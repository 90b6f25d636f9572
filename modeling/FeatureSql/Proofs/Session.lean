import FeatureSql.Proofs.Expr.Piece
import FeatureSql.Proofs.Translate.Reading
import FeatureSql.Session

/-! Sessions keep the expressions of their query well formed, as long as no tree is loaded from
outside. -/

set_option autoImplicit false

namespace FeatureSql

open Sql (Expr OrderBy SelectItem)

namespace Sql

def SelectItem.expressions : SelectItem → List Expr
  | .computed e _ => [e]
  | _ => []

namespace Query

/-- The expressions of all clauses. -/
def expressions (query : Query) : List Expr :=
  query.select.flatMap SelectItem.expressions ++ query.joins.flatMap (·.condition.toList) ++
    query.filter.toList ++ query.groupBy ++ query.orderBy.map OrderBy.expression

/-- Every expression can stand for itself, wherever in the query it is. -/
def HasWellFormed (query : Query) : Prop := ∀ e ∈ query.expressions, e.WellFormed

theorem hasWellFormed_iff (query : Query) : query.HasWellFormed ↔
    (∀ item ∈ query.select, ∀ e ∈ item.expressions, e.WellFormed) ∧
      (∀ join ∈ query.joins, ∀ e ∈ join.condition, e.WellFormed) ∧
        (∀ e ∈ query.filter, e.WellFormed) ∧ (∀ e ∈ query.groupBy, e.WellFormed) ∧
          ∀ order ∈ query.orderBy, order.expression.WellFormed := by
  simp only [HasWellFormed, expressions, List.forall_mem_append, List.forall_mem_flatMap,
    List.forall_mem_map, Option.mem_toList, Option.mem_def, and_assoc]

end Query

theorem SelectItem.IsSelectable.expressions {item : SelectItem} (h : item.IsSelectable) :
    ∀ e ∈ item.expressions, e.WellFormed := by
  cases item with
  | computed e output =>
    rcases h with h | ⟨columns, _, hitem⟩
    · exact List.forall_mem_singleton.mpr h.1
    · cases hitem
  | _ => exact fun e he => absurd he List.not_mem_nil

namespace Query

theorem WellFormed.hasWellFormed {query : Query} (h : query.WellFormed) : query.HasWellFormed := by
  apply (hasWellFormed_iff _).mpr
  cases h with
  | select hselect hjoins hfilter hgroup horder =>
    exact ⟨fun item hitem => (hselect.selectable item hitem).expressions,
      fun join hjoin => (hjoins join hjoin).condition, hfilter, hgroup, horder⟩
  | delete _ hfilter => simpa using hfilter
  | other _ => simp

theorem HasWellFormed.withFilter {query : Query} (h : query.HasWellFormed) {filter : Option Expr}
    (hfilter : ∀ e ∈ filter, e.WellFormed) : HasWellFormed { query with filter } := by
  obtain ⟨hselect, hjoins, _, hgroup, horder⟩ := (hasWellFormed_iff _).mp h
  exact (hasWellFormed_iff _).mpr ⟨hselect, hjoins, hfilter, hgroup, horder⟩

theorem HasWellFormed.filter {query : Query} (h : query.HasWellFormed) :
    ∀ e ∈ query.filter, e.WellFormed := ((hasWellFormed_iff _).mp h).2.2.1

end Query
end Sql

theorem Spatial.hasWellFormed_inject {query : Sql.Query} (h : query.HasWellFormed)
    (filter : SpatialFilter) (column : SpatialColumn) :
    (inject query filter column).HasWellFormed :=
  h.withFilter fun _ he =>
    Option.some.inj he ▸ wellFormed_inFrontOf (wellFormed_predicate filter column) h.filter

theorem Spatial.hasWellFormed_remove {query : Sql.Query} (h : query.HasWellFormed) :
    Sql.Query.HasWellFormed { query with filter := query.filter >>= remove } := by
  refine h.withFilter fun e he => ?_
  obtain ⟨condition, hcondition, he⟩ := Option.bind_eq_some_iff.mp he
  exact wellFormed_remove (h.filter condition hcondition) e he

theorem Feature.Query.IsReadAs.hasWellFormed {query : Feature.Query} {given : Option SpatialFilter}
    {tree : Sql.Query} (h : query.IsReadAs given tree) : tree.HasWellFormed := by
  obtain ⟨condition, spatial, hcondition, _, hfilter⟩ := h.filter
  apply (Sql.Query.hasWellFormed_iff _).mpr
  refine ⟨fun item hitem => ((selectable_selectItems h.select).2 item hitem).expressions, ?_, ?_,
    wellFormed_groupBy h.groupBy, wellFormed_orderBy h.orderBy⟩
  · rw [h.joins]
    exact fun join hjoin => absurd hjoin List.not_mem_nil
  · rw [hfilter]
    exact wellFormed_withFilter (wellFormed_conditionExpr? hcondition) spatial

namespace Session

/-- A step that takes a tree from outside, whatever it holds. -/
def Step.isLoad : Step → Bool
  | .load _ => true
  | _ => false

/-- A step that may leave another query behind than it found. -/
def Step.changesQuery : Step → Bool
  | .load _ | .parse _ _ | .reparse | .inject _ _ | .remove | .ofFeature _ => true
  | _ => false

def HasWellFormed (session : Session) : Prop := ∀ query ∈ session.query, query.HasWellFormed

theorem ofSyntax_eq_ok {α : Type} {result : Except Sql.SyntaxError α} {a : α} :
    ofSyntax result = .ok a ↔ result = .ok a := by
  cases result <;> simp [ofSyntax, Except.mapError]

theorem ofOutcome_eq_ok {α : Type} {outcome : Outcome α} {a : α} :
    ofOutcome outcome = .ok a ↔ outcome = .ok a := by
  cases outcome <;> simp [ofOutcome, Except.mapError]

theorem needQuery_eq_ok {session : Session} {query : Sql.Query} :
    session.needQuery = .ok query ↔ session.query = some query := by
  unfold needQuery
  cases session.query <;> simp

section Step
variable {session next : Session} {report : Report}

theorem hasWellFormed_with {query : Sql.Query} (h : query.HasWellFormed) :
    HasWellFormed { session with query := some query } :=
  fun _ hquery => Option.some.inj hquery ▸ h

/-- The other steps read the query at most. -/
theorem query_of_step {step : Step} (hframe : step.changesQuery = false)
    (hstep : session.step step = .ok (next, report)) : next.query = session.query := by
  cases step with
  | load | parse | reparse | inject | remove | ofFeature => cases hframe
  | find | tree | loadFeature =>
    simp only [Session.step, bind_eq_ok] at hstep
    obtain ⟨_, _, hstep⟩ := hstep
    cases hstep
    rfl
  | validate | readFilter =>
    simp only [Session.step, bind_eq_ok] at hstep
    obtain ⟨_, _, _, _, hstep⟩ := hstep
    cases hstep
    rfl
  | toFeature | setFilter =>
    simp only [Session.step, bind_eq_ok] at hstep
    obtain ⟨_, _, _, _, _, _, hstep⟩ := hstep
    cases hstep
    rfl
  | newFeature =>
    cases hstep
    rfl

theorem HasWellFormed.step (h : session.HasWellFormed) {step : Step} (hload : step.isLoad = false)
    (hstep : session.step step = .ok (next, report)) : next.HasWellFormed := by
  cases hframe : step.changesQuery with
  | false => exact fun query hquery => h query (query_of_step hframe hstep ▸ hquery)
  | true =>
    cases step with
    | load json => cases hload
    | parse mode sql =>
      simp only [Session.step, bind_eq_ok, ofSyntax_eq_ok] at hstep
      obtain ⟨query, hparse, hstep⟩ := hstep
      cases hstep
      exact hasWellFormed_with (Sql.Query.wellFormed_of_parse hparse).hasWellFormed
    | reparse =>
      simp only [Session.step, bind_eq_ok, ofSyntax_eq_ok] at hstep
      obtain ⟨_, _, query, hparse, hstep⟩ := hstep
      cases hstep
      exact hasWellFormed_with (Sql.Query.wellFormed_of_parse hparse).hasWellFormed
    | inject text column =>
      simp only [Session.step, bind_eq_ok, needQuery_eq_ok] at hstep
      obtain ⟨query, hquery, filter, _, hstep⟩ := hstep
      cases hstep
      exact hasWellFormed_with (Spatial.hasWellFormed_inject (h query hquery) filter column)
    | remove =>
      simp only [Session.step, bind_eq_ok, needQuery_eq_ok] at hstep
      obtain ⟨query, hquery, hstep⟩ := hstep
      cases hstep
      exact hasWellFormed_with (Spatial.hasWellFormed_remove (h query hquery))
    | ofFeature text =>
      simp only [Session.step, bind_eq_ok, ofOutcome_eq_ok] at hstep
      obtain ⟨_, _, feature, _, query, hquery, hstep⟩ := hstep
      cases hstep
      exact hasWellFormed_with (Feature.Query.toSql_eq_ok.mp hquery).hasWellFormed
    | _ => cases hframe

end Step

theorem HasWellFormed.after {session : Session} (h : session.HasWellFormed) {step : Step}
    (hload : step.isLoad = false) : (session.after step).HasWellFormed := by
  unfold Session.after
  split
  · next hstep => exact h.step hload hstep
  · exact h

theorem HasWellFormed.run {session : Session} (h : session.HasWellFormed) {steps : List Step}
    (hload : ∀ step ∈ steps, step.isLoad = false) : (session.run steps).HasWellFormed := by
  induction steps generalizing session with
  | nil => exact h
  | cons step steps ih =>
    rw [List.forall_mem_cons] at hload
    exact ih (h.after hload.1) hload.2

theorem run_wellFormed {steps : List Step} (hload : ∀ step ∈ steps, step.isLoad = false)
    {query : Sql.Query} (hquery : (run {} steps).query = some query) :
    ∀ e ∈ query.expressions, e.WellFormed ∧ ∀ dialect,
      (e.render dialect).toList = Sql.Piece.chars (e.pieces dialect) ∧
        ∀ piece ∈ e.pieces dialect, piece.IsLexeme := by
  have hempty : HasWellFormed {} := fun _ hnone => absurd hnone (by simp)
  intro e he
  have hwell : e.WellFormed := hempty.run hload query hquery e he
  exact ⟨hwell, fun dialect => ⟨(Expr.chars_pieces dialect e).symm, hwell.isLexeme dialect⟩⟩

/-- A filter is injected, crosses over to the feature service, is removed and comes back. -/
theorem run_wellFormed_crossing :
    let steps : List Step := [.parse .standard "select f('n' = 1) from t where x in (-2)",
      .inject { geometry := "\x7b\x7d" } .vector, .toFeature none false, .remove, .reparse,
      .ofFeature none]
    ∃ query, (run {} steps).query = some query ∧ query.expressions.length = 2 ∧
      ∀ e ∈ query.expressions, e.WellFormed ∧ ∀ dialect,
        (e.render dialect).toList = Sql.Piece.chars (e.pieces dialect) ∧
          ∀ piece ∈ e.pieces dialect, piece.IsLexeme := by
  intro steps
  have hlength : (run {} steps).query.map (·.expressions.length) = some 2 := by decide +kernel
  obtain ⟨query, hquery, hlength⟩ := Option.map_eq_some_iff.mp hlength
  have hload : ∀ step ∈ steps, step.isLoad = false := by simp [steps, Step.isLoad]
  exact ⟨query, hquery, hlength, run_wellFormed hload hquery⟩

end Session
end FeatureSql
