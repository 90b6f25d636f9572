import FeatureSql.Json.Basic

/-! Objects read as records: each field at most once, unknown members passed over. -/

set_option autoImplicit false

namespace FeatureSql.Json

abbrev Members := List (String × Json)

namespace Members
variable {α : Type}

/-- All values that a key was given. -/
def values (members : Members) (key : String) : List Json :=
  (members.filter fun member => member.1 == key).map Prod.snd

/-- A field that may be left out. -/
def fieldOr (members : Members) (key : String) (default : α) (read : Json → Option α) :
    Option α :=
  match members.values key with
  | [] => some default
  | [value] => read value
  | _ => none

/-- A field that has to be there. -/
def field (members : Members) (key : String) (read : Json → Option α) : Option α :=
  match members.values key with
  | [value] => read value
  | _ => none

end Members

/-- A value that may also be null. -/
def orNull {α : Type} (read : Json → Option α) : Json → Option (Option α)
  | .null => some none
  | json => (read json).map some

/-- A field that may be left out or null. -/
def Members.optional {α : Type} (members : Members) (key : String) (read : Json → Option α) :
    Option (Option α) :=
  members.fieldOr key none (orNull read)

def list? {α : Type} (read : Json → Option α) : Json → Option (List α)
  | .arr items => items.mapM read
  | _ => none

def members? : Json → Option Members
  | .obj members => some members
  | _ => none

/-- The members of a record. A list gives the fields by place, in the order of `keys`; those at
the end may be left out. -/
def record? (keys : List String) : Json → Option Members
  | .obj members => some members
  | .arr items => if items.length ≤ keys.length then some (keys.zip items) else none
  | _ => none

/-- The members of a variant, its tag among them as `type`. A list gives the tag first, and then the
fields of this variant by place. -/
def variant? (keys : String → List String) : Json → Option Members
  | .obj members => some members
  | .arr (.str tag :: parts) => (record? (keys tag) (.arr parts)).map (("type", .str tag) :: ·)
  | _ => none

/-- The name of a variant without content: alone, or as the only key of an object that gives it
null. Inside a tagged value an empty object will do for null. -/
def variantName? (tagged : Bool) : Json → Option String
  | .str name => some name
  | .obj [(name, .null)] => some name
  | .obj [(name, .obj [])] => if tagged then some name else none
  | _ => none

/-- A member that is written only if it has a value. -/
def optionalMember {α : Type} (key : String) (write : α → Json) : Option α → Members
  | some a => [(key, write a)]
  | none => []

/-- A member that is written only if its list is not empty. -/
def listMember {α : Type} (key : String) (write : α → Json) : List α → Members
  | [] => []
  | items => [(key, .arr (items.map write))]

end FeatureSql.Json
