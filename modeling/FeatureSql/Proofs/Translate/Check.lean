import FeatureSql.Proofs.Spatial.Stack
import FeatureSql.Proofs.Translate.RoundTrip

/-! Emitted SQL passes a check again, in the shape that was validated, and what that second check
emits no longer changes. -/

set_option autoImplicit false

namespace FeatureSql

open Sql (Query)

namespace Sql.Query

/-- Two queries on one and the same table, with as many entries in each list. -/
structure SameShape (before after : Query) : Prop where
  statement : after.statement = before.statement
  table : ∃ table, before.tables = [table] ∧ after.tables = [table]
  joins : before.joins = [] ∧ after.joins = []
  select : after.select.length = before.select.length
  groupBy : after.groupBy.length = before.groupBy.length
  orderBy : after.orderBy.length = before.orderBy.length
  limit : after.limit = before.limit
  offset : after.offset = before.offset

/-- What passes validation is a selection or a deletion on one table. -/
theorem shape_of_validate {query : Query} (h : query.validate = .ok ()) :
    (query.statement = .select ∨ query.statement = .delete) ∧ (∃ table, query.tables = [table]) ∧
      query.joins = [] := by
  obtain ⟨statement, select, tables, joins, filter, groupBy, orderBy, limit, offset⟩ := query
  unfold validate at h
  cases statement with
  | other keyword sql => cases h
  | select | delete =>
    match tables, joins with
    | [], _ => cases h
    | [table], [] => simp
    | [_], _ :: _ => cases h
    | _ :: _ :: _, _ => simp at h

theorem validate_labelled (query : Query) : query.labelled.validate = query.validate := by
  obtain ⟨statement, select, tables, joins, filter, groupBy, orderBy, limit, offset⟩ := query
  cases select <;> cases joins <;> rfl

theorem validate_reread (query : Query) : query.reread.validate = query.validate :=
  (validate_leftGrouped query.labelled).trans (validate_labelled query)

theorem sameShape_reread {query : Query} (h : query.validate = .ok ()) :
    SameShape query query.reread := by
  obtain ⟨_, ⟨table, htable⟩, hjoins⟩ := shape_of_validate h
  rw [reread_eq]
  exact {
    statement := rfl
    table := ⟨table, htable, htable⟩
    joins := ⟨hjoins, by rw [hjoins, List.map_nil]⟩
    select := List.length_map _
    groupBy := List.length_map _
    orderBy := List.length_map _
    limit := rfl
    offset := rfl }

/-- What a text was read as, is read from its own text. -/
theorem WellFormed.parse_render_fixed {query : Query} (h : query.WellFormed) :
    parse .standard (query.reread.render .standard) = .ok query.reread := by
  rw [reread, render_leftGrouped]
  exact h.labelled.parse_render h.labelFree_labelled

end Sql.Query

namespace Converter

/-- A converter emits what a check answers, or SQL with a filter, read in either mode. -/
inductive Emits (converter : Converter) (conversion : Conversion) : Prop where
  | check {sql : String} : converter.check sql = .ok conversion → Emits converter conversion
  | filtered {request : Request.Filtered} : converter.filtered request = .ok conversion →
      Emits converter conversion

section Emits
variable {geostore : Geostore} {conversion : Conversion}

/-- What is emitted is the text of a query that is well formed and was validated. -/
theorem Emits.tree (h : Emits { geostore } conversion) : conversion.tree.WellFormed ∧
    conversion.tree.validate = .ok () ∧ conversion.query = conversion.tree.render .standard := by
  cases h with
  | check h =>
    obtain ⟨tree, hparse, h⟩ := bind_eq_ok.mp h
    obtain ⟨hvalid, rfl⟩ := Query.ofQuery_eq_ok.mp h
    exact ⟨Query.wellFormed_of_parse (parse_eq_ok.mp hparse), hvalid, rfl⟩
  | filtered h =>
    obtain ⟨tree, hparse, h⟩ := bind_eq_ok.mp h
    obtain ⟨filter, _, h⟩ := bind_eq_ok.mp h
    have hwell := Query.wellFormed_of_parse (parse_eq_ok.mp hparse)
    cases filter with
    | none =>
      obtain ⟨hvalid, rfl⟩ := Query.ofQuery_eq_ok.mp h
      exact ⟨hwell, hvalid, rfl⟩
    | some filter =>
      obtain ⟨hvalid, rfl⟩ := Query.ofQuery_eq_ok.mp h
      -- Validation looks at no condition.
      have hkind := (Query.shape_of_validate (hvalid : tree.validate = .ok ())).1
      exact ⟨Spatial.wellFormed_inject hwell hkind filter _, hvalid, rfl⟩

theorem check_eq_ok {sql : String} {tree : Query} (hparse : Query.parse .standard sql = .ok tree)
    (hvalid : tree.validate = .ok ()) : Converter.check { geostore } sql =
      .ok { query := tree.render .standard, tree } := by
  rw [Converter.check, parse_eq_ok.mpr hparse]
  exact Query.ofQuery_eq_ok.mpr ⟨hvalid, rfl⟩

/-- Arguments that open with a label come back as arguments by name, once and for all. -/
theorem check_converges (h : Emits { geostore } conversion) :
    ∃ second, Converter.check { geostore } conversion.query = .ok second ∧
      conversion.tree.SameShape second.tree ∧
        Converter.check { geostore } second.query = .ok second := by
  obtain ⟨hwell, hvalid, htext⟩ := h.tree
  have hsame := (Query.validate_reread conversion.tree).trans hvalid
  refine ⟨_, check_eq_ok (htext ▸ hwell.parse_render_reread) hsame,
    Query.sameShape_reread hvalid, ?_⟩
  exact check_eq_ok hwell.parse_render_fixed hsame

end Emits

/-- A column in parentheses loses them, and is a label from then on. -/
theorem check_converges_label :
    let sql := "select f(a = 1 and b, (c) = 2 or d) from t"
    ∃ first second, Converter.check {} sql = .ok first ∧
      first.query = "SELECT f('a'=1 AND b, c=2 OR d) FROM t" ∧
      Converter.check {} first.query = .ok second ∧
      second.query = "SELECT f('a'=1 AND b, 'c'=2 OR d) FROM t" ∧
      Converter.check {} second.query = .ok second := by
  intro sql
  let tree : Query := {
    select := [.computed (.call "f" [
      .named "a" (.logical .and (.number "1") (.name "b")),
      .logical .or (.comparison "=" (.name "c") (.number "2")) (.name "d")]) none]
    tables := ["t"] }
  have hparse : Query.parse .standard sql = .ok tree := by decide +kernel
  let named : Query := {
    select := [.computed (.call "f" [
      .named "a" (.logical .and (.number "1") (.name "b")),
      .named "c" (.logical .or (.number "2") (.name "d"))]) none]
    tables := ["t"] }
  have hnamed : Query.parse .standard (tree.render .standard) = .ok named := by decide +kernel
  have hfirst := @check_eq_ok Geostore.disabled sql tree hparse rfl
  have hagain := @check_eq_ok Geostore.disabled (tree.render .standard) named hnamed rfl
  obtain ⟨second, hsecond, _, hthird⟩ := check_converges (.check hfirst)
  obtain rfl := Except.ok.inj (hsecond.symm.trans hagain)
  exact ⟨_, _, hfirst, by decide +kernel, hsecond, by decide +kernel, hthird⟩

end Converter
end FeatureSql
