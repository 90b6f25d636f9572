import FeatureSql.Feature.Query.Filter
import FeatureSql.Sql.Query.Render
import FeatureSql.Sql.Query.Shape

/-! The feature service query that an SQL query stands for. -/

set_option autoImplicit false

namespace FeatureSql.Sql

open Feature (OutStatistic)

def AggregateArgument.field : AggregateArgument → String
  | .star => "*"
  | .column name => name

namespace SelectItem

/-- Adds an item: counts and statistics to their parameters, all else to the output fields. -/
def addTo (dialect : Dialect) (item : SelectItem) (target : Feature.Query × List String) :
    Feature.Query × List String :=
  let (query, fields) := target
  if item.isCountStar then ({ query with returnCountOnly := some true }, fields)
  else match item with
    | .aggregate function argument output =>
      let statistic : OutStatistic := { field := argument.field, type := function.name, output }
      ({ query with outStatistics := query.outStatistics ++ [statistic] }, fields)
    | .distinct columns =>
      ({ query with returnDistinctValues := some true, returnGeometry := some false },
        fields ++ columns.map writeName)
    | item => (query, fields ++ [item.render dialect])

end SelectItem

namespace Query

/-- Parts of a parameter, or no parameter where there are none. -/
def parameterOf (parts : List String) : Option String :=
  if parts.isEmpty then none else some (",".intercalate parts)

def addSelect (dialect : Dialect) (select : List SelectItem) (query : Feature.Query) :
    Outcome Feature.Query := do
  SelectItem.validateCount select
  let (query, fields) :=
    select.foldl (fun target item => item.addTo dialect target) (query, ([] : List String))
  pure (if fields.isEmpty then query else { query with outFields := parameterOf fields })

/-- Adds a condition. Its first spatial predicate becomes the query's filter. -/
def addCondition (dialect : Dialect) (condition : Expr) (query : Feature.Query) :
    Outcome Feature.Query := do
  let (query, residual) ← match Spatial.find? condition with
    | some filter => pure (← query.setFilter filter, Spatial.remove condition)
    | none => pure (query, some condition)
  match residual with
  | some residual => pure { query with condition := residual.render dialect }
  | none => pure query

def orderText (dialect : Dialect) (order : OrderBy) : String :=
  match order.direction with
  | some .asc => order.expression.render dialect ++ " asc"
  | some .desc => order.expression.render dialect ++ " desc"
  | none => order.expression.render dialect

/-- The feature service query. A filter that is given wins over one in the condition. -/
def toFeature (dialect : Dialect) (query : Query) (given : Option SpatialFilter)
    (excludeGeometries : Bool) : Outcome Feature.Query := do
  query.validate
  if query.isDelete then throw .deleteNotExpressible
  let result : Feature.Query := { tableName := query.table? }
  let result ← addSelect dialect query.select result
  let result ← match query.filter with
    | some condition => addCondition dialect condition result
    | none => pure result
  let result ← match given with
    | some filter => result.setFilter filter
    | none => pure result
  pure { result with
    groupBy := parameterOf (query.groupBy.map (Expr.render dialect))
    orderBy := parameterOf (query.orderBy.map (orderText dialect))
    resultRecordCount := query.limit
    supportsPagination := query.limit.map fun _ => true
    resultOffset := query.offset
    returnGeometry := if excludeGeometries then some false else result.returnGeometry }

end Query
end FeatureSql.Sql
