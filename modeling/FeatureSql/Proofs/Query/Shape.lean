import FeatureSql.Proofs.Expr.Grouping
import FeatureSql.Sql.Query.Reader
import FeatureSql.Sql.Query.Render

/-! Shapes of queries: which of them a text can stand for, and the same query with its chains of
`AND` and `OR` grouped from the left in every clause. -/

set_option autoImplicit false

namespace FeatureSql.Sql

theorem Expr.labelFree_map_leftGrouped (condition : Option Expr) :
    (∀ e ∈ condition.map leftGrouped, e.LabelFree) ↔ ∀ e ∈ condition, e.LabelFree := by
  cases condition with
  | none => simp
  | some e => simp [labelFree_leftGrouped]

namespace SelectItem

def leftGrouped : SelectItem → SelectItem
  | .computed e output => .computed e.leftGrouped output
  | item => item

def LabelFree : SelectItem → Prop
  | .computed e _ => e.LabelFree
  | _ => True

/-- An item of a list; `DISTINCT` is none, it stands for a whole list. -/
def WellFormed : SelectItem → Prop
  | .distinct _ => False
  | .computed e output => e.WellFormed ∧ ofExpr e output = .computed e output
  | _ => True

def ListWellFormed (items : List SelectItem) : Prop :=
  (∃ columns, columns ≠ [] ∧ items = [.distinct columns]) ∨
    (items ≠ [] ∧ ∀ item ∈ items, item.WellFormed)

theorem render_leftGrouped (dialect : Dialect) (item : SelectItem) :
    item.leftGrouped.render dialect = item.render dialect := by
  cases item with
  | computed e output => rw [leftGrouped, render, Expr.render_leftGrouped, render]
  | _ => rfl

theorem labelFree_leftGrouped (item : SelectItem) :
    item.leftGrouped.LabelFree ↔ item.LabelFree := by
  cases item with
  | computed e output => exact Expr.labelFree_leftGrouped e
  | _ => rfl

theorem leftGrouped_leftGrouped (item : SelectItem) :
    item.leftGrouped.leftGrouped = item.leftGrouped := by
  cases item with
  | computed e output => rw [leftGrouped, leftGrouped, Expr.leftGrouped_leftGrouped]
  | _ => rfl

theorem aggregateArgument?_leftGrouped (as : List Expr) :
    aggregateArgument? (as.map Expr.leftGrouped) = aggregateArgument? as := by
  match as with
  | [] => rfl
  | [a] =>
    cases a with
    | logical operator left right =>
      obtain ⟨left', right', h⟩ :=
        Expr.attach_eq_logical operator left.leftGrouped right.leftGrouped
      rw [List.map_singleton, Expr.leftGrouped, h]
      rfl
    | _ => rfl
  | _ :: _ :: _ => simp [aggregateArgument?]

/-- An item stays the narrowest one for its expression when the expression is grouped. -/
theorem ofExpr_leftGrouped (e : Expr) (output : Option String) :
    ofExpr e.leftGrouped output = (ofExpr e output).leftGrouped := by
  cases e with
  | call function arguments =>
    rw [Expr.leftGrouped, Expr.leftGroupedAll_eq_map, ofExpr, ofExpr, aggregateArgument?_leftGrouped]
    split
    · rfl
    · rw [leftGrouped, Expr.leftGrouped, Expr.leftGroupedAll_eq_map]
  | logical operator left right =>
    obtain ⟨left', right', h⟩ :=
      Expr.attach_eq_logical operator left.leftGrouped right.leftGrouped
    simp only [ofExpr, leftGrouped, Expr.leftGrouped, h]
  | _ => rfl

end SelectItem

namespace OrderBy

def leftGrouped (order : OrderBy) : OrderBy :=
  { order with expression := order.expression.leftGrouped }

theorem render_leftGrouped (dialect : Dialect) (order : OrderBy) :
    order.leftGrouped.render dialect = order.render dialect := by
  cases order with
  | mk e direction => cases direction <;> simp only [leftGrouped, render, Expr.render_leftGrouped]

theorem leftGrouped_leftGrouped (order : OrderBy) :
    order.leftGrouped.leftGrouped = order.leftGrouped := by
  simp only [leftGrouped, Expr.leftGrouped_leftGrouped]

end OrderBy

namespace Join

def kinds : List String :=
  ["INNER", "CROSS", "LEFT", "LEFT OUTER", "RIGHT", "RIGHT OUTER", "FULL", "FULL OUTER"]

structure WellFormed (join : Join) : Prop where
  kind : ∀ kind ∈ join.kind, kind ∈ kinds
  condition : ∀ e ∈ join.condition, e.WellFormed

def LabelFree (join : Join) : Prop := ∀ e ∈ join.condition, e.LabelFree

def leftGrouped (join : Join) : Join :=
  { join with condition := join.condition.map Expr.leftGrouped }

theorem render_leftGrouped (dialect : Dialect) (join : Join) :
    join.leftGrouped.render dialect = join.render dialect := by
  cases join with
  | mk kind table condition =>
    cases condition with
    | none => rfl
    | some e => simp only [leftGrouped, render, Option.map_some, Expr.render_leftGrouped]

theorem labelFree_leftGrouped (join : Join) : join.leftGrouped.LabelFree ↔ join.LabelFree :=
  Expr.labelFree_map_leftGrouped join.condition

theorem leftGrouped_leftGrouped (join : Join) :
    join.leftGrouped.leftGrouped = join.leftGrouped := by
  simp only [leftGrouped, Option.map_map, Function.comp_def, Expr.leftGrouped_leftGrouped]

end Join

namespace Query

/-- A statement of another kind as it is kept: it starts with its keyword and has no blanks at its
ends. -/
structure IsOther (keyword sql : String) : Prop where
  word : lower (sql.toList.takeWhile isWordChar) = keyword.toList
  known : keyword.toList ∈ Draft.otherWords
  trimmed : trim sql = sql

inductive WellFormed : Query → Prop where
  | select {select : List SelectItem} {tables : List String} {joins : List Join}
      {filter : Option Expr} {groupBy : List Expr} {orderBy : List OrderBy}
      {limit offset : Option UInt64} : SelectItem.ListWellFormed select →
      (∀ join ∈ joins, join.WellFormed) → (∀ e ∈ filter, e.WellFormed) →
      (∀ e ∈ groupBy, e.WellFormed) → (∀ order ∈ orderBy, order.expression.WellFormed) →
      WellFormed { select, tables, joins, filter, groupBy, orderBy, limit, offset }
  | delete {tables : List String} {filter : Option Expr} : tables ≠ [] →
      (∀ e ∈ filter, e.WellFormed) → WellFormed { statement := .delete, tables, filter }
  | other {keyword sql : String} : IsOther keyword sql →
      WellFormed { statement := .other keyword sql }

/-- No argument by place, in any clause, opens with a label. -/
structure LabelFree (query : Query) : Prop where
  select : ∀ item ∈ query.select, item.LabelFree
  joins : ∀ join ∈ query.joins, join.LabelFree
  filter : ∀ e ∈ query.filter, e.LabelFree
  groupBy : ∀ e ∈ query.groupBy, e.LabelFree
  orderBy : ∀ order ∈ query.orderBy, order.expression.LabelFree

/-- The same query with every chain of one logical operator grouped from the left. -/
def leftGrouped (query : Query) : Query :=
  { query with
    select := query.select.map SelectItem.leftGrouped
    joins := query.joins.map Join.leftGrouped
    filter := query.filter.map Expr.leftGrouped
    groupBy := query.groupBy.map Expr.leftGrouped
    orderBy := query.orderBy.map OrderBy.leftGrouped }

section Text
variable {α : Type} {word : String} {f : α → α} {write : α → String}

theorem optionalClause_map (h : ∀ a, write (f a) = write a) (a : Option α) :
    optionalClause word write (a.map f) = optionalClause word write a := by
  cases a with
  | none => rfl
  | some a => simp only [Option.map_some, optionalClause, h]

theorem map_map_of_eq (h : ∀ a, write (f a) = write a) (items : List α) :
    (items.map f).map write = items.map write := by
  rw [List.map_map]
  exact List.map_congr_left fun a _ => h a

theorem listClause_map (h : ∀ a, write (f a) = write a) (items : List α) :
    listClause word write (items.map f) = listClause word write items := by
  cases items with
  | nil => rfl
  | cons a items => exact congrArg (fun sqls => word ++ commas sqls) (map_map_of_eq h (a :: items))

end Text

theorem render_leftGrouped (dialect : Dialect) (query : Query) :
    query.leftGrouped.render dialect = query.render dialect := by
  have hclauses : renderClauses dialect query.leftGrouped = renderClauses dialect query := by
    have hjoins : (query.joins.map Join.leftGrouped).map (fun join => " " ++ join.render dialect) =
        query.joins.map fun join => " " ++ join.render dialect := by
      rw [List.map_map]
      apply List.map_congr_left
      intro join _
      exact congrArg (" " ++ ·) (Join.render_leftGrouped dialect join)
    simp only [renderClauses, leftGrouped,
      optionalClause_map (Expr.render_leftGrouped dialect),
      listClause_map (Expr.render_leftGrouped dialect),
      listClause_map (OrderBy.render_leftGrouped dialect)]
    rw [hjoins]
  have hselect : (query.leftGrouped.select).map (SelectItem.render dialect) =
      query.select.map (SelectItem.render dialect) :=
    map_map_of_eq (SelectItem.render_leftGrouped dialect) query.select
  rw [render, render, hclauses, hselect]
  rfl

theorem leftGrouped_leftGrouped (query : Query) :
    query.leftGrouped.leftGrouped = query.leftGrouped := by
  simp only [leftGrouped, List.map_map, Option.map_map, Function.comp_def,
    Expr.leftGrouped_leftGrouped, SelectItem.leftGrouped_leftGrouped, Join.leftGrouped_leftGrouped,
    OrderBy.leftGrouped_leftGrouped]

theorem LabelFree.leftGrouped {query : Query} (h : query.LabelFree) :
    query.leftGrouped.LabelFree where
  select := List.forall_mem_map.mpr fun item hitem =>
    (SelectItem.labelFree_leftGrouped item).mpr (h.select item hitem)
  joins := List.forall_mem_map.mpr fun join hjoin =>
    (Join.labelFree_leftGrouped join).mpr (h.joins join hjoin)
  filter := (Expr.labelFree_map_leftGrouped query.filter).mpr h.filter
  groupBy := List.forall_mem_map.mpr fun e he =>
    (Expr.labelFree_leftGrouped e).mpr (h.groupBy e he)
  orderBy := List.forall_mem_map.mpr fun order horder =>
    (Expr.labelFree_leftGrouped order.expression).mpr (h.orderBy order horder)

end Query
end FeatureSql.Sql
