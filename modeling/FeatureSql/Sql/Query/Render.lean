import FeatureSql.Sql.Query.Basic

/-! Queries as SQL: the clauses that are there, in the order of the grammar. -/

set_option autoImplicit false

namespace FeatureSql.Sql

def Direction.word : Direction → String
  | .asc => "ASC"
  | .desc => "DESC"

def OrderBy.render (dialect : Dialect) (order : OrderBy) : String :=
  match order.direction with
  | some direction => order.expression.render dialect ++ " " ++ direction.word
  | none => order.expression.render dialect

def Join.render (dialect : Dialect) (join : Join) : String :=
  let kind := match join.kind with
    | some kind => kind ++ " "
    | none => ""
  let condition := match join.condition with
    | some condition => " ON " ++ condition.render dialect
    | none => ""
  kind ++ "JOIN " ++ writeTable join.table ++ condition

namespace Query

/-- A clause that is written only if it has a value. -/
def optionalClause {α : Type} (word : String) (render : α → String) : Option α → String
  | some a => word ++ render a
  | none => ""

/-- A clause that is written only if its list is not empty. -/
def listClause {α : Type} (word : String) (render : α → String) : List α → String
  | [] => ""
  | items => word ++ commas (items.map render)

def renderClauses (dialect : Dialect) (query : Query) : String :=
  listClause " FROM " writeTable query.tables ++
    String.join (query.joins.map fun join => " " ++ join.render dialect) ++
    optionalClause " WHERE " (Expr.render dialect) query.filter ++
    listClause " GROUP BY " (Expr.render dialect) query.groupBy ++
    listClause " ORDER BY " (OrderBy.render dialect) query.orderBy ++
    optionalClause " LIMIT " (fun n => n.toNat.repr) query.limit ++
    optionalClause " OFFSET " (fun n => n.toNat.repr) query.offset

def render (dialect : Dialect) (query : Query) : String :=
  match query.statement with
  | .select => "SELECT " ++ commas (query.select.map (SelectItem.render dialect)) ++
      renderClauses dialect query
  | .delete => "DELETE" ++ renderClauses dialect query
  | .other _ sql => sql

end Query
end FeatureSql.Sql
