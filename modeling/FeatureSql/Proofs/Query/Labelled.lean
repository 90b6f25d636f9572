import FeatureSql.Proofs.Expr.Label
import FeatureSql.Proofs.Query.Shape

/-! Queries as their text is read: in every clause, arguments by place that open with a label are
arguments by name. -/

set_option autoImplicit false

namespace FeatureSql.Sql

section Maps
variable {es : List Expr} {condition : Option Expr}

theorem Expr.map_labelled (h : ∀ e ∈ es, e.LabelFree) : es.map labelled = es :=
  (List.map_congr_left fun e he => labelled_of_labelFree (h e he)).trans (List.map_id' es)

theorem Expr.map_labelled_option (h : ∀ e ∈ condition, e.LabelFree) :
    condition.map labelled = condition := by
  cases condition with
  | none => rfl
  | some e => rw [Option.map_some, labelled_of_labelFree (h e rfl)]

theorem Expr.forall_labelled_option {P : Expr → Prop}
    (h : ∀ e ∈ condition, P e.labelled) : ∀ e ∈ condition.map labelled, P e := by
  simpa using h

end Maps

namespace SelectItem

def labelled : SelectItem → SelectItem
  | .computed e output => .computed e.labelled output
  | item => item

def reread (item : SelectItem) : SelectItem := item.labelled.leftGrouped

theorem labelled_of_labelFree {item : SelectItem} (h : item.LabelFree) : item.labelled = item := by
  cases item with
  | computed e output => rw [labelled, Expr.labelled_of_labelFree h]
  | _ => rfl

theorem reread_of_labelFree {item : SelectItem} (h : item.LabelFree) :
    item.reread = item.leftGrouped := by
  rw [reread, labelled_of_labelFree h]

/-- An argument of an aggregate is not taken for one by name, and no other becomes one. -/
theorem aggregateArgument?_labelled (as : List Expr) :
    aggregateArgument? (Expr.labelledArguments as) = aggregateArgument? as := by
  have hoperation : ∀ {a : Expr}, aggregateArgument? [a] = none →
      aggregateArgument? [Expr.byPlace a] = none := by
    intro a h
    cases hsplit : Expr.splitLabel a with
    | none => rwa [Expr.byPlace_of_none hsplit]
    | some split =>
      rw [Expr.byPlace, hsplit]
      rfl
  cases as with
  | nil => rfl
  | cons a others =>
    cases others with
    | cons next others => simp [aggregateArgument?, Expr.labelledArguments]
    | nil =>
      cases a with
      | name | star => rfl
      | _ => exact hoperation rfl

/-- An item stays the narrowest one for its expression. -/
theorem ofExpr_labelled (e : Expr) (output : Option String) :
    ofExpr e.labelled output = (ofExpr e output).labelled := by
  cases e with
  | call function arguments =>
    rw [Expr.labelled, ofExpr, ofExpr, aggregateArgument?_labelled]
    split
    · rfl
    · rw [labelled, Expr.labelled]
  | _ => rfl

theorem ofExpr_reread (e : Expr) (output : Option String) :
    ofExpr e.reread output = (ofExpr e output).reread := by
  rw [Expr.reread, ofExpr_leftGrouped, ofExpr_labelled, reread]

theorem WellFormed.labelled {item : SelectItem} (h : item.WellFormed) : item.labelled.WellFormed := by
  cases item with
  | computed e output =>
    refine ⟨Expr.WellFormedAt.labelled h.1, ?_⟩
    rw [ofExpr_labelled, h.2]
    rfl
  | _ => exact h

theorem ListWellFormed.labelled {items : List SelectItem} (h : ListWellFormed items) :
    ListWellFormed (items.map SelectItem.labelled) := by
  rcases h with ⟨columns, hne, rfl⟩ | ⟨hne, hitems⟩
  · exact Or.inl ⟨columns, hne, rfl⟩
  · exact Or.inr ⟨by simpa using hne, List.forall_mem_map.mpr fun item hitem =>
      (hitems item hitem).labelled⟩

theorem ListWellFormed.labelFree_labelled {items : List SelectItem} (h : ListWellFormed items) :
    ∀ item ∈ items.map SelectItem.labelled, item.LabelFree := by
  rcases h with ⟨columns, _, rfl⟩ | ⟨_, hitems⟩
  · exact List.forall_mem_singleton.mpr True.intro
  · refine List.forall_mem_map.mpr fun item hitem => ?_
    cases item with
    | computed e output => exact (hitems _ hitem).1.labelFree_labelled
    | _ => exact True.intro

end SelectItem

namespace OrderBy

def labelled (order : OrderBy) : OrderBy := { order with expression := order.expression.labelled }

def reread (order : OrderBy) : OrderBy := order.labelled.leftGrouped

theorem labelled_of_labelFree {order : OrderBy} (h : order.expression.LabelFree) :
    order.labelled = order := by
  rw [labelled, Expr.labelled_of_labelFree h]

theorem reread_of_labelFree {order : OrderBy} (h : order.expression.LabelFree) :
    order.reread = order.leftGrouped := by
  rw [reread, labelled_of_labelFree h]

end OrderBy

namespace Join

def labelled (join : Join) : Join := { join with condition := join.condition.map Expr.labelled }

def reread (join : Join) : Join := join.labelled.leftGrouped

theorem reread_eq (join : Join) :
    join.reread = { join with condition := join.condition.map Expr.reread } := by
  rw [reread, leftGrouped, labelled, Option.map_map]
  rfl

theorem labelled_of_labelFree {join : Join} (h : join.LabelFree) : join.labelled = join := by
  rw [labelled, Expr.map_labelled_option h]

theorem WellFormed.labelled {join : Join} (h : join.WellFormed) : join.labelled.WellFormed where
  kind := h.kind
  condition := Expr.forall_labelled_option fun e he => Expr.WellFormedAt.labelled (h.condition e he)

theorem WellFormed.labelFree_labelled {join : Join} (h : join.WellFormed) :
    join.labelled.LabelFree :=
  Expr.forall_labelled_option fun e he => (h.condition e he).labelFree_labelled

end Join

namespace Query

def labelled (query : Query) : Query :=
  { query with
    select := query.select.map SelectItem.labelled
    joins := query.joins.map Join.labelled
    filter := query.filter.map Expr.labelled
    groupBy := query.groupBy.map Expr.labelled
    orderBy := query.orderBy.map OrderBy.labelled }

/-- What the text of a query is read as. -/
def reread (query : Query) : Query := query.labelled.leftGrouped

theorem labelled_of_labelFree {query : Query} (h : query.LabelFree) : query.labelled = query := by
  have hselect : query.select.map SelectItem.labelled = query.select :=
    (List.map_congr_left fun item hitem =>
      SelectItem.labelled_of_labelFree (h.select item hitem)).trans (List.map_id' _)
  have hjoins : query.joins.map Join.labelled = query.joins :=
    (List.map_congr_left fun join hjoin =>
      Join.labelled_of_labelFree (h.joins join hjoin)).trans (List.map_id' _)
  have horder : query.orderBy.map OrderBy.labelled = query.orderBy :=
    (List.map_congr_left fun order horder =>
      OrderBy.labelled_of_labelFree (h.orderBy order horder)).trans (List.map_id' _)
  rw [labelled, hselect, hjoins, Expr.map_labelled_option h.filter, Expr.map_labelled h.groupBy,
    horder]

theorem reread_eq (query : Query) : query.reread = { query with
    select := query.select.map SelectItem.reread
    joins := query.joins.map Join.reread
    filter := query.filter.map Expr.reread
    groupBy := query.groupBy.map Expr.reread
    orderBy := query.orderBy.map OrderBy.reread } := by
  simp only [reread, labelled, leftGrouped, List.map_map, Option.map_map]
  rfl

theorem reread_of_labelFree {query : Query} (h : query.LabelFree) :
    query.reread = query.leftGrouped := by
  rw [reread, labelled_of_labelFree h]

theorem WellFormed.labelled {query : Query} (h : query.WellFormed) : query.labelled.WellFormed := by
  cases h with
  | select hselect hjoins hfilter hgroup horder =>
    exact .select hselect.labelled (List.forall_mem_map.mpr fun join hjoin =>
      (hjoins join hjoin).labelled)
      (Expr.forall_labelled_option fun e he => Expr.WellFormedAt.labelled (hfilter e he))
      (List.forall_mem_map.mpr fun e he => Expr.WellFormedAt.labelled (hgroup e he))
      (List.forall_mem_map.mpr fun order ho => Expr.WellFormedAt.labelled (horder order ho))
  | delete htables hfilter =>
    exact .delete htables
      (Expr.forall_labelled_option fun e he => Expr.WellFormedAt.labelled (hfilter e he))
  | other hother => exact .other hother

/-- What was read no longer holds an argument that could be taken for another one. -/
theorem WellFormed.labelFree_labelled {query : Query} (h : query.WellFormed) :
    query.labelled.LabelFree := by
  cases h with
  | select hselect hjoins hfilter hgroup horder =>
    exact {
      select := hselect.labelFree_labelled
      joins := List.forall_mem_map.mpr fun join hjoin => (hjoins join hjoin).labelFree_labelled
      filter := Expr.forall_labelled_option fun e he => (hfilter e he).labelFree_labelled
      groupBy := List.forall_mem_map.mpr fun e he => (hgroup e he).labelFree_labelled
      orderBy := List.forall_mem_map.mpr fun order ho => (horder order ho).labelFree_labelled }
  | delete _ hfilter =>
    refine ⟨by simp [Query.labelled], by simp [Query.labelled], ?_, by simp [Query.labelled],
      by simp [Query.labelled]⟩
    exact Expr.forall_labelled_option fun e he => (hfilter e he).labelFree_labelled
  | other _ => exact ⟨by simp [Query.labelled], by simp [Query.labelled], by simp [Query.labelled],
      by simp [Query.labelled], by simp [Query.labelled]⟩

end Query
end FeatureSql.Sql
