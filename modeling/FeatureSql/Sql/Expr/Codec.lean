import FeatureSql.Json.Record
import FeatureSql.Sql.Expr.Basic

/-! Expressions as JSON objects, told apart by their member `type`. They are read from lists too,
which give the tag and then the other members by place. -/

set_option autoImplicit false

namespace FeatureSql.Sql

def Logical.tag : Logical → String
  | .and => "and"
  | .or => "or"

def Logical.ofTag? : String → Option Logical
  | "and" => some .and
  | "or" => some .or
  | _ => none

namespace Expr

/-- The kinds of expression, in the order by which a number may stand for a kind. -/
inductive Kind where
  | name
  | text
  | number
  | call
  | named
  | star
  | list
  | not
  | logical
  | comparison
  deriving DecidableEq, Repr

namespace Kind

def all : List Kind :=
  [.name, .text, .number, .call, .named, .star, .list, .not, .logical, .comparison]

def tag : Kind → String
  | .name => "literal"
  | .text => "string"
  | .number => "number"
  | .call => "function"
  | .named => "namedArgument"
  | .star => "star"
  | .list => "list"
  | .not => "not"
  | .logical => "conditional"
  | .comparison => "operator"

/-- The members of a kind, in the order of a list. -/
def keys : Kind → List String
  | .name | .text | .number => ["value"]
  | .call => ["name", "arguments"]
  | .named => ["name", "value"]
  | .star => []
  | .list => ["items"]
  | .not => ["expression"]
  | .logical | .comparison => ["operator", "left", "right"]

/-- Inside another expression the place of a kind in the order will do for its tag. -/
def ofJson? (inside : Bool) : Json → Option Kind
  | .str tag => all.find? fun kind => kind.tag == tag
  | .number (.int n) => if inside && 0 ≤ n then all[n.toNat]? else none
  | _ => none

end Kind

def tagged (kind : Kind) (members : Json.Members) : Json :=
  .obj (("type", .str kind.tag) :: members)

mutual

def toJson : Expr → Json
  | .name value => tagged .name [("value", .str value)]
  | .text value => tagged .text [("value", .str value)]
  | .number value => tagged .number [("value", .str value)]
  | .call function arguments =>
    tagged .call [("name", .str function), ("arguments", .arr (toJsonAll arguments))]
  | .named label value => tagged .named [("name", .str label), ("value", toJson value)]
  | .star => tagged .star []
  | .list items => tagged .list [("items", .arr (toJsonAll items))]
  | .not operand => tagged .not [("expression", toJson operand)]
  | .logical operator left right =>
    tagged .logical
      [("operator", .str operator.tag), ("left", toJson left), ("right", toJson right)]
  | .comparison operator left right =>
    tagged .comparison [("operator", .str operator), ("left", toJson left), ("right", toJson right)]

def toJsonAll : List Expr → List Json
  | [] => []
  | e :: es => toJson e :: toJsonAll es

end

/-- A member of an object with what it can stand for: any value, an expression, or a list of
expressions. -/
structure Field where
  key : String
  value : Json
  expr : Option Expr
  exprs : Option (List Expr)

/-- The one field of a key. -/
def Field.only? (fields : List Field) (key : String) : Option Field :=
  match fields.filter fun field => field.key == key with
  | [field] => some field
  | _ => none

/-- The expression of a kind whose members are these. -/
def ofFields? (kind : Kind) (fields : List Field) : Option Expr := do
  let json := fun key => (Field.only? fields key).map Field.value
  let text := fun key => json key >>= Json.str?
  let expr := fun key => Field.only? fields key >>= Field.expr
  let exprs := fun key => Field.only? fields key >>= Field.exprs
  match kind with
  | .name => pure (.name (← text "value"))
  | .text => pure (.text (← text "value"))
  | .number => pure (.number (← text "value"))
  | .call => pure (.call (← text "name") (← exprs "arguments"))
  | .named => pure (.named (← text "name") (← expr "value"))
  | .star => pure .star
  | .list => pure (.list (← exprs "items"))
  | .not => pure (.not (← expr "expression"))
  | .logical =>
    let operator ← json "operator" >>= Json.variantName? true >>= Logical.ofTag?
    pure (.logical operator (← expr "left") (← expr "right"))
  | .comparison => pure (.comparison (← text "operator") (← expr "left") (← expr "right"))

mutual

def ofJsonAt? (inside : Bool) : Json → Option Expr
  | .obj members => do
    let kind ← Json.Members.field members "type" (Kind.ofJson? inside)
    ofFields? kind (fieldsOf members)
  | .arr (tag :: parts) => do
    let kind ← Kind.ofJson? inside tag
    if parts.length = kind.keys.length then ofFields? kind (fieldsAt kind.keys parts) else none
  | _ => none

def fieldsOf : List (String × Json) → List Field
  | [] => []
  | (key, value) :: members =>
    { key, value, expr := ofJsonAt? true value, exprs := ofJsonList? value } :: fieldsOf members

/-- Values as the members that they stand for by place. -/
def fieldsAt : List String → List Json → List Field
  | key :: keys, value :: parts =>
    { key, value, expr := ofJsonAt? true value, exprs := ofJsonList? value } :: fieldsAt keys parts
  | _, _ => []

def ofJsonList? : Json → Option (List Expr)
  | .arr items => ofJsonItems? items
  | _ => none

def ofJsonItems? : List Json → Option (List Expr)
  | [] => some []
  | item :: items => do
    let e ← ofJsonAt? true item
    let es ← ofJsonItems? items
    pure (e :: es)

end

def ofJson? (json : Json) : Option Expr := ofJsonAt? false json

end Expr
end FeatureSql.Sql
