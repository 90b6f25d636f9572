import FeatureSql.Sql.Expr.Codec
import FeatureSql.Sql.Query.Basic

/-! Queries as JSON. Clauses that are empty are left out, but for `select` and `from`. -/

set_option autoImplicit false

namespace FeatureSql.Sql

open Json

def AggregateArgument.toJson : AggregateArgument → Json
  | .star => .str "star"
  | .column name => .obj [("column", .str name)]

def AggregateArgument.ofJson? : Json → Option AggregateArgument
  | .obj [("column", .str name)] => some (.column name)
  | json => if variantName? true json = some "star" then some .star else none

/-- The aggregate function that a variant's name stands for, in this case only. -/
def AggregateFunction.ofJson? (json : Json) : Option AggregateFunction := do
  let name ← variantName? true json
  all.find? fun f => f.name == name

namespace SelectItem

def toJson : SelectItem → Json
  | .wildcard => .obj [("type", .str "wildcard")]
  | .column name output =>
    .obj ([("type", .str "column"), ("name", .str name)] ++ optionalMember "alias" .str output)
  | .aggregate function argument output =>
    .obj ([("type", .str "aggregate"), ("function", .str function.name),
      ("argument", argument.toJson)] ++ optionalMember "alias" .str output)
  | .distinct columns =>
    .obj [("type", .str "distinct"), ("columns", .arr (columns.map .str))]
  | .computed expression output =>
    .obj ([("type", .str "expression"), ("expression", expression.toJson)] ++
      optionalMember "alias" .str output)

/-- The fields of a variant in the order of a list. -/
def keys : String → List String
  | "column" => ["name", "alias"]
  | "aggregate" => ["function", "argument", "alias"]
  | "distinct" => ["columns"]
  | "expression" => ["expression", "alias"]
  | _ => []

def ofJson? (json : Json) : Option SelectItem := do
  let members ← json.variant? keys
  match ← members.field "type" str? with
  | "wildcard" => pure .wildcard
  | "column" =>
    pure (.column (← members.field "name" str?) (← members.optional "alias" str?))
  | "aggregate" =>
    pure (.aggregate (← members.field "function" AggregateFunction.ofJson?)
      (← members.field "argument" AggregateArgument.ofJson?) (← members.optional "alias" str?))
  | "distinct" => pure (.distinct (← members.field "columns" (list? str?)))
  | "expression" =>
    pure (.computed (← members.field "expression" (Expr.ofJsonAt? true))
      (← members.optional "alias" str?))
  | _ => none

end SelectItem

namespace Statement

def toJson : Statement → Json
  | .select => .obj [("type", .str "select")]
  | .delete => .obj [("type", .str "delete")]
  | .other keyword sql =>
    .obj [("type", .str "other"), ("keyword", .str keyword), ("sql", .str sql)]

def keys : String → List String
  | "other" => ["keyword", "sql"]
  | _ => []

def ofJson? (json : Json) : Option Statement := do
  let members ← json.variant? keys
  match ← members.field "type" str? with
  | "select" => pure .select
  | "delete" => pure .delete
  | "other" => pure (.other (← members.field "keyword" str?) (← members.field "sql" str?))
  | _ => none

end Statement

def Direction.tag : Direction → String
  | .asc => "asc"
  | .desc => "desc"

def Direction.ofJson? (json : Json) : Option Direction :=
  match variantName? false json with
  | some "asc" => some .asc
  | some "desc" => some .desc
  | _ => none

def OrderBy.toJson (order : OrderBy) : Json :=
  .obj (("expression", order.expression.toJson) ::
    optionalMember "direction" (fun direction => .str direction.tag) order.direction)

def OrderBy.keys : List String := ["expression", "direction"]

def OrderBy.ofJson? (json : Json) : Option OrderBy := do
  let members ← json.record? keys
  let expression ← members.field "expression" Expr.ofJson?
  let direction ← members.optional "direction" Direction.ofJson?
  pure { expression, direction }

def Join.toJson (join : Join) : Json :=
  .obj (optionalMember "kind" .str join.kind ++ [("table", .str join.table)] ++
    optionalMember "on" Expr.toJson join.condition)

def Join.keys : List String := ["kind", "table", "on"]

def Join.ofJson? (json : Json) : Option Join := do
  let members ← json.record? keys
  let kind ← members.optional "kind" str?
  let table ← members.field "table" str?
  let condition ← members.optional "on" Expr.ofJson?
  pure { kind, table, condition }

namespace Query

def countJson (n : UInt64) : Json := .int n.toNat

def toJson (query : Query) : Json :=
  .obj ([("statement", query.statement.toJson),
      ("select", .arr (query.select.map SelectItem.toJson)),
      ("from", .arr (query.tables.map .str))] ++
    listMember "joins" Join.toJson query.joins ++
    optionalMember "where" Expr.toJson query.filter ++
    listMember "groupBy" Expr.toJson query.groupBy ++
    listMember "orderBy" OrderBy.toJson query.orderBy ++
    optionalMember "limit" countJson query.limit ++
    optionalMember "offset" countJson query.offset)

def keys : List String :=
  ["statement", "select", "from", "joins", "where", "groupBy", "orderBy", "limit", "offset"]

/-- A query read from a record; what is left out is empty, and the statement a selection. -/
def ofJson? (json : Json) : Option Query := do
  let members ← json.record? keys
  let statement ← members.fieldOr "statement" .select Statement.ofJson?
  let select ← members.fieldOr "select" [] (list? SelectItem.ofJson?)
  let tables ← members.fieldOr "from" [] (list? str?)
  let joins ← members.fieldOr "joins" [] (list? Join.ofJson?)
  let filter ← members.optional "where" Expr.ofJson?
  let groupBy ← members.fieldOr "groupBy" [] (list? Expr.ofJson?)
  let orderBy ← members.fieldOr "orderBy" [] (list? OrderBy.ofJson?)
  let limit ← members.optional "limit" uint64?
  let offset ← members.optional "offset" uint64?
  pure { statement, select, tables, joins, filter, groupBy, orderBy, limit, offset }

end Query
end FeatureSql.Sql
