import FeatureSql.Sql.SelectItem

/-! Queries: a statement's kind and its clauses. -/

set_option autoImplicit false

namespace FeatureSql.Sql

inductive Statement where
  | select
  | delete
  /-- A statement of another kind, kept as it was written. -/
  | other (keyword : String) (sql : String)
  deriving DecidableEq, Repr

inductive Direction where
  | asc
  | desc
  deriving DecidableEq, Repr

structure OrderBy where
  expression : Expr
  direction : Option Direction := none
  deriving DecidableEq, Repr

structure Join where
  kind : Option String := none
  table : String
  condition : Option Expr := none
  deriving DecidableEq, Repr

structure Query where
  statement : Statement := .select
  select : List SelectItem := []
  tables : List String := []
  joins : List Join := []
  filter : Option Expr := none
  groupBy : List Expr := []
  orderBy : List OrderBy := []
  limit : Option UInt64 := none
  offset : Option UInt64 := none
  deriving DecidableEq, Repr

namespace Query

def isDelete (query : Query) : Bool := query.statement == .delete

def table? (query : Query) : Option String := query.tables.head?

end Query
end FeatureSql.Sql
