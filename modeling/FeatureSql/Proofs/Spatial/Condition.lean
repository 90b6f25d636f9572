import FeatureSql.Proofs.Spatial.Grouping

/-! Conditions with a predicate in front of them, and conditions that lose their first spatial
predicate: it is taken out just where one is found. -/

set_option autoImplicit false

namespace FeatureSql.Spatial

open Sql (Expr Logical)
open Sql.Expr (leftGrouped)

theorem isSome_takeOut? (e : Expr) : (takeOut? e).isSome = (find? e).isSome := by
  have hleaf : ∀ {e : Expr}, (∀ operator left right, e ≠ .logical operator left right) →
      (takeOut? e).isSome = (find? e).isSome := by
    intro e h
    rw [takeOut?_leaf h, find?_leaf h]
    cases filterOf? e <;> rfl
  induction e with
  | logical operator left right ihl ihr =>
    rw [takeOut?_logical, find?_logical, Option.isSome_or, Option.isSome_or, Option.isSome_map,
      Option.isSome_map, ihl, ihr]
  | _ => exact hleaf (by simp)

theorem remove_of_find?_none {e : Expr} (h : find? e = none) : remove e = some e := by
  have hsome := isSome_takeOut? e
  rw [h, Option.isSome_none, Option.isSome_eq_false_iff, Option.isNone_iff_eq_none] at hsome
  rw [remove, hsome, Option.getD_none]

section Parts
variable {P : Expr → Prop}

theorem forall_rejoin (hP : ∀ operator left right, P left → P right →
    P (.logical operator left right)) {operator : Logical} {left right : Option Expr}
    (hl : ∀ e ∈ left, P e) (hr : ∀ e ∈ right, P e) : ∀ e ∈ rejoin operator left right, P e := by
  cases left with
  | none =>
    cases right with
    | none => simp [rejoin]
    | some right => exact hr
  | some left =>
    cases right with
    | none => exact hl
    | some right =>
      intro e he
      cases he
      exact hP operator left right (hl left rfl) (hr right rfl)

/-- A property of operands and of what they are joined to holds of what is left. -/
theorem forall_remove (hP : ∀ operator left right, P (.logical operator left right) ↔
    P left ∧ P right) {e : Expr} (h : P e) : ∀ left ∈ remove e, P left := by
  have hjoin : ∀ operator left right, P left → P right → P (.logical operator left right) :=
    fun operator left right hl hr => (hP operator left right).mpr ⟨hl, hr⟩
  have htaken : ∀ left ∈ takeOut? e, ∀ rest ∈ left, P rest := by
    induction e with
    | logical operator left right ihl ihr =>
      obtain ⟨hl, hr⟩ := (hP operator left right).mp h
      intro taken htaken
      rw [Option.mem_def, takeOut?_logical, Option.or_eq_some_iff] at htaken
      rcases htaken with htaken | ⟨_, htaken⟩
      · obtain ⟨left', hleft, rfl⟩ := Option.map_eq_some_iff.mp htaken
        exact forall_rejoin hjoin (ihl hl left' hleft) fun e he => Option.some.inj he ▸ hr
      · obtain ⟨right', hright, rfl⟩ := Option.map_eq_some_iff.mp htaken
        exact forall_rejoin hjoin (fun e he => Option.some.inj he ▸ hl) (ihr hr right' hright)
    | _ =>
      intro taken htaken
      rw [Option.mem_def, takeOut?_leaf (by simp)] at htaken
      split at htaken
      · cases htaken
        simp
      · cases htaken
  intro left hleft
  rw [remove] at hleft
  cases hcase : takeOut? e with
  | none =>
    rw [hcase] at hleft
    exact Option.some.inj hleft ▸ h
  | some taken =>
    rw [hcase] at hleft
    exact htaken taken hcase left hleft

end Parts

theorem wellFormed_remove {e : Expr} (h : e.WellFormed) : ∀ left ∈ remove e, left.WellFormed := by
  refine forall_remove (fun operator left right => ⟨fun h => ?_, fun h => .logical operator h.1 h.2⟩) h
  cases h with
  | logical _ hl hr => exact ⟨hl, hr⟩

theorem labelFree_remove {e : Expr} (h : e.LabelFree) : ∀ left ∈ remove e, left.LabelFree :=
  forall_remove (fun _ _ _ => Iff.rfl) h

theorem bind_remove_of_none {condition : Option Expr} (h : condition >>= find? = none) :
    condition >>= remove = condition := by
  cases condition with
  | none => rfl
  | some e => exact remove_of_find?_none h

theorem bind_find?_leftGrouped (condition : Option Expr) :
    condition.map leftGrouped >>= find? = condition >>= find? := by
  cases condition with
  | none => rfl
  | some e => exact find?_leftGrouped e

theorem bind_remove_leftGrouped (condition : Option Expr) :
    (condition.map leftGrouped >>= remove).map leftGrouped =
      (condition >>= remove).map leftGrouped := by
  cases condition with
  | none => rfl
  | some e => exact remove_congr (Expr.leftGrouped_leftGrouped e)

section InFront
variable {condition : Option Expr} {p : Expr}

theorem leftGrouped_inFrontOf : (inFrontOf condition p).leftGrouped =
    (inFrontOf (condition.map leftGrouped) p.leftGrouped).leftGrouped := by
  cases condition with
  | none => exact (Expr.leftGrouped_leftGrouped p).symm
  | some e =>
    simp only [inFrontOf, Option.map_some, Expr.and, leftGrouped, Expr.leftGrouped_leftGrouped]

theorem leftGrouped_inFrontOf_congr {other : Option Expr}
    (h : condition.map leftGrouped = other.map leftGrouped) (p : Expr) :
    (inFrontOf condition p).leftGrouped = (inFrontOf other p).leftGrouped := by
  rw [leftGrouped_inFrontOf, h, ← leftGrouped_inFrontOf]

theorem wellFormed_inFrontOf (hp : p.WellFormed) (h : ∀ e ∈ condition, e.WellFormed) :
    (inFrontOf condition p).WellFormed := by
  cases condition with
  | none => exact hp
  | some e => exact .logical .and hp (h e rfl)

theorem labelFree_inFrontOf (hp : p.LabelFree) (h : ∀ e ∈ condition, e.LabelFree) :
    (inFrontOf condition p).LabelFree := by
  cases condition with
  | none => exact hp
  | some e => exact ⟨hp, h e rfl⟩

theorem find?_inFrontOf {filter : SpatialFilter} (hp : find? p = some filter) :
    find? (inFrontOf condition p) = some filter := by
  cases condition with
  | none => exact hp
  | some e => rw [inFrontOf, Expr.and, find?_logical, hp, Option.some_or]

theorem remove_inFrontOf (hp : takeOut? p = some none) :
    remove (inFrontOf condition p) = condition := by
  cases condition with
  | none => rw [inFrontOf, remove, hp, Option.getD_some]
  | some e => rw [inFrontOf, Expr.and, remove, takeOut?, hp, Option.getD_some, rejoin]

end InFront

end FeatureSql.Spatial
