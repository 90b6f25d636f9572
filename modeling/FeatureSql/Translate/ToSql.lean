import FeatureSql.Feature.Query.Filter
import FeatureSql.Sql.Query.Parse
import FeatureSql.Sql.Query.Shape

/-! The SQL query that a feature service query stands for. -/

set_option autoImplicit false

namespace FeatureSql

/-- A text that does not parse makes a malformed query. -/
def parsed {α : Type} : Except Sql.SyntaxError α → Outcome α
  | .ok a => .ok a
  | .error _ => .error .malformedQuery

namespace Feature

open Sql (Expr SelectItem OrderBy AggregateFunction AggregateArgument SyntaxError)

/-- The list that a parameter holds; without text it is empty. -/
def parsedList {α : Type} (parse : String → Except SyntaxError (List α)) (parameter : Option String) :
    Outcome (List α) :=
  match given? parameter with
  | some text => parsed (parse text)
  | none => .ok []

namespace OutStatistic

def toSelectItem (statistic : OutStatistic) : Outcome SelectItem :=
  match AggregateFunction.ofName? statistic.type with
  | none => .error (.statisticNotSupported statistic.type)
  | some function =>
    let field := trim statistic.field
    let argument := if field = "*" then .star else AggregateArgument.column field
    .ok (.aggregate function argument statistic.output)

end OutStatistic

/-- The column of an item that can be asked for without its repetitions. -/
def distinctColumn : SelectItem → Outcome String
  | .column name none => .ok name
  | .distinct [column] => .ok column
  | _ => .error .distinctNotPlain

/-- The items of the output fields as one list of distinct columns, if there are any. -/
def distinctItems (items : List SelectItem) : Outcome (List SelectItem) := do
  let columns ← items.mapM distinctColumn
  pure (if columns.isEmpty then items else [.distinct columns])

namespace Query

/-- Output fields come first, then statistics; without either every field is selected. -/
def selectItems (query : Query) : Outcome (List SelectItem) := do
  if query.returnCountOnly = some true then return [SelectItem.countStar]
  let fields ← parsedList SelectItem.parseList query.outFields
  let fields ← if query.returnDistinctValues = some true then distinctItems fields else pure fields
  let statistics ← query.outStatistics.mapM OutStatistic.toSelectItem
  let items := fields ++ statistics
  let items := if items.isEmpty then [.wildcard] else items
  SelectItem.validateCount items
  pure items

/-- The condition, unless it asks for nothing. -/
def conditionExpr? (query : Query) : Outcome (Option Expr) :=
  if query.hasDefaultWhere then .ok none else (parsed (Expr.parse query.condition)).map some

/-- The condition behind the predicate of a spatial filter, if there is one. -/
def withFilter (condition : Option Expr) : Option SpatialFilter → Option Expr
  | some filter => some (Spatial.inFrontOf condition (Spatial.predicate filter .vector))
  | none => condition

/-- The SQL query. A filter that is given wins over the query's own. -/
def toSql (query : Query) (given : Option SpatialFilter) : Outcome Sql.Query := do
  let some table := given? query.tableName | throw .tableNameMissing
  let condition ← query.conditionExpr?
  let spatial ← match given with
    | some filter => pure (some filter)
    | none => query.filter?
  let groupBy ← parsedList Expr.parseList query.groupBy
  let orderBy ← parsedList OrderBy.parseList query.orderBy
  let select ← query.selectItems
  pure {
    select, groupBy, orderBy
    tables := [table]
    filter := withFilter condition spatial
    limit := query.resultRecordCount
    offset := query.resultOffset }

end Query
end Feature
end FeatureSql
