import FeatureSql.Proofs.Outcome
import FeatureSql.Proofs.Spatial.Condition
import FeatureSql.Proofs.Translate.Parameter

/-! A condition, and the parameters that its first spatial predicate and the rest of it go to. -/

set_option autoImplicit false

namespace FeatureSql

open Sql (Expr)
open Sql.Expr (always leftGrouped)
open Spatial (find? remove takeOut? inFrontOf predicate IsReadable)

/-- A filter as the parameters hold it. -/
structure RingFilter where
  rings : Json
  srid : Int64

def RingFilter.toSpatial (filter : RingFilter) : SpatialFilter :=
  { geometry := Geometry.polygon filter.rings, srid := filter.srid }

/-- The filter whose rings are those that are read from the text of these. -/
def RingFilter.reread (filter : RingFilter) : RingFilter :=
  { filter with rings := filter.rings.reread }

section Reread
variable {found : Option RingFilter}
  (h : ∀ filter ∈ found, IsReadable (Geometry.polygon filter.rings))
include h

theorem RingFilter.legible_of_readable : ∀ filter ∈ found, Json.IsLegibleAt 126 filter.rings :=
  fun filter hfilter =>
    Json.IsExactAt.isLegibleAt (Geometry.isExactAt_of_polygon (h filter hfilter).readsBack)

theorem RingFilter.map_reread : found.map RingFilter.reread = found := by
  cases found with
  | none => rfl
  | some filter =>
    have hrings := Geometry.isExactAt_of_polygon (h filter rfl).readsBack
    rw [Option.map_some, RingFilter.reread, Json.IsExactAt.reread_eq hrings]

end Reread

namespace Spatial

def ringFilter (filter : SpatialFilter) : Outcome RingFilter :=
  (Geometry.rings filter.geometry).map fun rings => { rings, srid := filter.srid }

/-- The filter that a condition gives to the parameters, if it has one. -/
def extract (condition : Option Expr) : Outcome (Option RingFilter) :=
  match condition >>= find? with
  | some filter => (ringFilter filter).map some
  | none => .ok none

/-- What is left of a condition, unless it asks for nothing. -/
def remnant (condition : Option Expr) : Option Expr :=
  ((condition >>= remove).filter fun e => decide (e ≠ always)).map leftGrouped

/-- A condition after its way through the parameters: what is left of it behind the predicate of
its rings. -/
def carried (condition : Option Expr) : Option Expr :=
  match extract condition with
  | .ok (some filter) => some (inFrontOf (remnant condition) (predicate filter.toSpatial .vector))
  | _ => remnant condition

theorem ringFilter_toSpatial (filter : RingFilter) : ringFilter filter.toSpatial = .ok filter := rfl

theorem extract_of_some {condition : Option Expr} {filter : SpatialFilter}
    (h : condition >>= find? = some filter) : extract condition = (ringFilter filter).map some := by
  rw [extract, h]

theorem extract_of_none {condition : Option Expr} (h : condition >>= find? = none) :
    extract condition = .ok none := by
  rw [extract, h]

theorem find?_of_extract_none {condition : Option Expr} (h : extract condition = .ok none) :
    condition >>= find? = none := by
  cases hfind : condition >>= find? with
  | none => rfl
  | some filter =>
    rw [extract_of_some hfind, map_eq_ok] at h
    obtain ⟨_, _, h⟩ := h
    cases h

/-- Rings that are taken out of a condition are those of the filter that it finds. -/
theorem exists_find?_of_extract {condition : Option Expr} {filter : RingFilter}
    (h : extract condition = .ok (some filter)) : ∃ given, condition >>= find? = some given ∧
      Geometry.rings given.geometry = .ok filter.rings := by
  cases hfind : condition >>= find? with
  | none =>
    rw [extract_of_none hfind] at h
    exact absurd (Except.ok.inj h) (by simp)
  | some given =>
    rw [extract_of_some hfind, map_eq_ok] at h
    obtain ⟨_, hgiven, hfilter⟩ := h
    obtain rfl := Option.some.inj hfilter
    obtain ⟨rings, hrings, rfl⟩ := map_eq_ok.mp hgiven
    exact ⟨given, rfl, hrings⟩

/-- They can be read back if the geometry can. -/
theorem readable_of_extract {condition : Option Expr} {filter : RingFilter}
    (h : extract condition = .ok (some filter)) (hread : ∀ given, condition >>= find? = some given →
      Json.parse? given.geometry.compact = some given.geometry) :
    IsReadable (Geometry.polygon filter.rings) := by
  obtain ⟨given, hfind, hrings⟩ := exists_find?_of_extract h
  exact (Geometry.readable_rings (hread given hfind) hrings).1

theorem carried_of_some {condition : Option Expr} {filter : RingFilter}
    (h : extract condition = .ok (some filter)) :
    carried condition =
      some (inFrontOf (remnant condition) (predicate filter.toSpatial .vector)) := by
  rw [carried, h]

theorem carried_of_none {condition : Option Expr} (h : extract condition = .ok none) :
    carried condition = remnant condition := by
  rw [carried, h]

section Behind
open Feature.Query (withFilter)
variable {condition : Option Expr} {found : Option RingFilter}
  (hread : ∀ filter ∈ found, Json.IsLegibleAt 126 filter.rings)
  (hnone : found = none → condition >>= find? = none)
include hread hnone

/-- The filter is found again as its text is read, in front of any other. -/
theorem extract_withFilter :
    extract (withFilter condition (found.map RingFilter.toSpatial)) =
      .ok (found.map RingFilter.reread) := by
  cases found with
  | none => exact extract_of_none (hnone rfl)
  | some filter =>
    have hpredicate : find? (predicate filter.toSpatial .vector) = some filter.reread.toSpatial :=
      find?_predicate_of_parse? .vector (Geometry.parse?_polygon (hread filter rfl)) rfl
    have hfind : withFilter condition (some filter.toSpatial) >>= find? =
        some filter.reread.toSpatial := find?_inFrontOf hpredicate
    rw [Option.map_some, extract_of_some hfind, ringFilter_toSpatial]
    rfl

/-- The condition is left without it. -/
theorem bind_remove_withFilter :
    withFilter condition (found.map RingFilter.toSpatial) >>= remove = condition := by
  cases found with
  | none => exact bind_remove_of_none (hnone rfl)
  | some filter =>
    have hpredicate : takeOut? (predicate filter.toSpatial .vector) = some none :=
      takeOut?_predicate_of_parse? .vector (Geometry.parse?_polygon (hread filter rfl)) rfl
    exact remove_inFrontOf hpredicate

end Behind

theorem extract_leftGrouped (condition : Option Expr) :
    extract (condition.map leftGrouped) = extract condition := by
  rw [extract, bind_find?_leftGrouped, extract]

section Again
variable {condition : Option Expr} {found : Option RingFilter}

theorem withFilter_carried (h : extract condition = .ok found) :
    Feature.Query.withFilter (remnant condition) (found.map RingFilter.toSpatial) =
      carried condition := by
  cases found with
  | none => exact (carried_of_none h).symm
  | some filter => exact (carried_of_some h).symm

theorem bind_find?_remnant (h : condition >>= find? = none) :
    remnant condition >>= find? = none := by
  rw [remnant, bind_find?_leftGrouped, bind_remove_of_none h]
  cases condition with
  | none => rfl
  | some e =>
    by_cases he : e = always
    · simp [he]
    · simpa [he] using h

section Found
variable (h : extract condition = .ok found)
  (hread : ∀ filter ∈ found, IsReadable (Geometry.polygon filter.rings))
include h hread

/-- The same filter is found again. -/
theorem extract_carried : extract (carried condition) = .ok found := by
  have hnone : found = none → remnant condition >>= find? = none := by
    rintro rfl
    exact bind_find?_remnant (find?_of_extract_none h)
  rw [← withFilter_carried h, extract_withFilter (RingFilter.legible_of_readable hread) hnone,
    RingFilter.map_reread hread]

/-- The same is left without it. -/
theorem bind_remove_carried : carried condition >>= remove = remnant condition := by
  rw [← withFilter_carried h]
  refine bind_remove_withFilter (RingFilter.legible_of_readable hread) ?_
  rintro rfl
  exact bind_find?_remnant (find?_of_extract_none h)

end Found

section Parts
variable {P : Expr → Prop} (hremove : ∀ {e : Expr}, P e → ∀ left ∈ remove e, P left)
include hremove

theorem forall_bind_remove (h : ∀ e ∈ condition, P e) : ∀ left ∈ condition >>= remove, P left := by
  intro left hleft
  obtain ⟨e, he, hleft⟩ := Option.bind_eq_some_iff.mp hleft
  exact hremove (h e he) left hleft

theorem forall_remnant (hgroup : ∀ {e : Expr}, P e → P e.leftGrouped) (h : ∀ e ∈ condition, P e) :
    ∀ e ∈ remnant condition, P e := by
  intro e he
  obtain ⟨left, hleft, rfl⟩ := Option.map_eq_some_iff.mp he
  exact hgroup (forall_bind_remove hremove h left (Option.filter_eq_some_iff.mp hleft).1)

end Parts

theorem wellFormed_carried (h : ∀ e ∈ condition, e.WellFormed) :
    ∀ e ∈ carried condition, e.WellFormed := by
  have hremnant := forall_remnant wellFormed_remove Sql.Expr.WellFormedAt.leftGrouped h
  intro e he
  unfold carried at he
  split at he
  · next filter _ =>
    exact Option.some.inj he ▸ wellFormed_inFrontOf (wellFormed_predicate _ _) hremnant
  · exact hremnant e he

theorem labelFree_carried (h : ∀ e ∈ condition, e.LabelFree) :
    ∀ e ∈ carried condition, e.LabelFree := by
  have hremnant := forall_remnant labelFree_remove
    (fun {e} => (Expr.labelFree_leftGrouped e).mpr) h
  intro e he
  unfold carried at he
  split at he
  · next filter _ =>
    exact Option.some.inj he ▸ labelFree_inFrontOf (labelFree_predicate _ _) hremnant
  · exact hremnant e he

end Again

end Spatial

namespace Feature.Query

open Sql (IsNumber)
open Spatial (extract remnant carried)

def withRingFilter (query : Query) : Option RingFilter → Query
  | some filter => query.withRings filter.rings filter.srid
  | none => query

def withCondition (query : Query) (condition : Option Expr) : Query :=
  { query with condition := (condition.map (Expr.render .standard)).getD query.condition }

/-- A condition and what is left of it in the parameters, as text. -/
def IsWrittenFrom (fs : Query) (rest : Option Expr) : Prop :=
  fs.condition = (rest.map (Expr.render .standard)).getD Feature.defaultWhere

theorem withCondition_leftGrouped (query : Query) (condition : Option Expr) :
    query.withCondition (condition.map leftGrouped) = query.withCondition condition := by
  cases condition with
  | none => rfl
  | some e =>
    rw [withCondition, withCondition, Option.map_some, Option.map_some, Option.map_some,
      Expr.render_leftGrouped]

theorem render_always : always.render .standard = defaultWhere := by decide +kernel

theorem withCondition_remnant {query : Query} (h : query.condition = defaultWhere)
    (condition : Option Expr) :
    query.withCondition (remnant condition) =
      query.withCondition (condition >>= Spatial.remove) := by
  rw [remnant, withCondition_leftGrouped]
  cases condition >>= Spatial.remove with
  | none => rfl
  | some e =>
    by_cases he : e = always
    · have hsame : query.withCondition (some always) = query := by
        rw [withCondition, Option.map_some, Option.getD_some, render_always, ← h]
      rw [he, hsame]
      rfl
    · rw [Option.filter_some_pos (by simpa using he)]

theorem addCondition_eq (condition : Expr) (query : Query) :
    Sql.Query.addCondition .standard condition query = (extract (some condition)).map fun found =>
      (query.withRingFilter found).withCondition (Spatial.remove condition) := by
  unfold Sql.Query.addCondition extract
  rw [Option.bind_eq_bind, Option.bind_some]
  cases hfind : Spatial.find? condition with
  | none =>
    rw [Spatial.remove_of_find?_none hfind]
    rfl
  | some filter =>
    dsimp only
    rw [setFilter_eq, Spatial.ringFilter]
    cases Geometry.rings filter.geometry with
    | error error => rfl
    | ok rings => cases Spatial.remove condition <;> rfl

/-- A text asks for nothing just where it is the text of the condition that every row meets. -/
theorem hasDefaultWhere_of_text {query : Query} {e : Expr} (h : e.WellFormed)
    (htext : query.condition = e.render .standard) :
    query.hasDefaultWhere = true ↔ e = always := by
  have hink : (squeeze query.condition).toList = Expr.ink e.chars := by
    rw [htext]
    exact Expr.toList_squeeze _
  constructor
  · intro hdefault
    rcases Bool.or_eq_true_iff.mp hdefault with hempty | hdefault
    · obtain ⟨c, rest, hcs, hc⟩ := h.solid.first
      have hnil : Expr.ink e.chars = [] := by
        rw [← hink, String.isEmpty_iff.mp hempty]
        rfl
      have hmem : c ∈ Expr.ink e.chars := List.mem_filter.mpr ⟨by simp [hcs], by simp [hc]⟩
      exact absurd (hnil ▸ hmem) (by simp)
    · apply Expr.eq_always_of_ink h
      rw [← hink, beq_iff_eq.mp hdefault]
      rfl
  · rintro rfl
    unfold hasDefaultWhere
    rw [htext, render_always]
    decide +kernel

theorem hasDefaultWhere_of_default {query : Query} (h : query.condition = defaultWhere) :
    query.hasDefaultWhere = true := by
  unfold hasDefaultWhere
  rw [h]
  decide +kernel

theorem parse_of_render {e : Expr} (h : e.WellFormed) (hfree : e.LabelFree) :
    Expr.parse (e.render .standard) = .ok e.leftGrouped :=
  Sql.parseWhole_of_readsAs (h.readsAs hfree) Expr.closes_nil

theorem conditionExpr?_of_text {query : Query} {e : Expr} (h : e.WellFormed) (hfree : e.LabelFree)
    (htext : query.condition = e.render .standard) : query.conditionExpr? =
      .ok (((some e).filter fun e => decide (e ≠ always)).map leftGrouped) := by
  have hdefault := hasDefaultWhere_of_text h htext
  have hparse : Expr.parse query.condition = .ok e.leftGrouped := by
    rw [htext]
    exact parse_of_render h hfree
  unfold conditionExpr?
  by_cases he : e = always
  · rw [if_pos (hdefault.mpr he), Option.filter_some_neg (by simpa using he)]
    rfl
  · rw [if_neg (mt hdefault.mp he), hparse, Option.filter_some_pos (by simpa using he)]
    rfl

/-- A condition is read back from its text, unless it asks for nothing. -/
theorem conditionExpr?_withCondition {query : Query} (hquery : query.condition = defaultWhere)
    {condition : Option Expr} (h : ∀ e ∈ condition, e.WellFormed)
    (hfree : ∀ e ∈ condition, e.LabelFree) : (query.withCondition condition).conditionExpr? =
      .ok ((condition.filter fun e => decide (e ≠ always)).map leftGrouped) := by
  cases condition with
  | some e => exact conditionExpr?_of_text (h e rfl) (hfree e rfl) rfl
  | none => exact if_pos (hasDefaultWhere_of_default hquery)

end Feature.Query
end FeatureSql
