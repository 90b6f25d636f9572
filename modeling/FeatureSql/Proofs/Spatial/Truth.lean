import FeatureSql.Proofs.Spatial.Condition

/-! Conditions as truth functions of their leaves. Where only `AND` stands above the first spatial
predicate, a condition says the same as that predicate and what is left without it. -/

set_option autoImplicit false

namespace FeatureSql

namespace Sql

/-- What an operator makes of the truth of its operands. -/
def Logical.join : Logical → Bool → Bool → Bool
  | .and, left, right => left && right
  | .or, left, right => left || right

namespace Expr

/-- The truth of a condition when each of its leaves is true or false as given. -/
def holds (leaf : Expr → Bool) : Expr → Bool
  | .logical operator left right => operator.join (holds leaf left) (holds leaf right)
  | e => leaf e

section Holds
variable (leaf : Expr → Bool)

theorem holds_logical (operator : Logical) (left right : Expr) :
    holds leaf (.logical operator left right) =
      operator.join (holds leaf left) (holds leaf right) := by
  rw [holds]

theorem holds_leaf {e : Expr} (h : ∀ operator left right, e ≠ .logical operator left right) :
    holds leaf e = leaf e := by
  rw [holds]
  exact h

end Holds
end Expr
end Sql

namespace Spatial

open Sql (Expr Logical)
open Sql.Expr (holds)

/-- The first spatial predicate of a condition is `p`, and every operator above it is `AND`. -/
inductive IsConjunct (p : Expr) : Expr → Prop where
  | itself : (filterOf? p).isSome → IsConjunct p p
  | left {left right : Expr} : IsConjunct p left → IsConjunct p (.logical .and left right)
  | right {left right : Expr} : find? left = none → IsConjunct p right →
      IsConjunct p (.logical .and left right)

section Conjunct
variable {p e : Expr}

theorem ne_logical_of_filterOf? (h : (filterOf? p).isSome) :
    ∀ operator left right, p ≠ .logical operator left right := by
  rintro operator left right rfl
  rw [filterOf?_logical] at h
  cases h

theorem IsConjunct.filterOf?_isSome (h : IsConjunct p e) : (filterOf? p).isSome := by
  induction h with
  | itself hp => exact hp
  | left _ ih => exact ih
  | right _ _ ih => exact ih

/-- The predicate is the one that is found. -/
theorem IsConjunct.find? (h : IsConjunct p e) : find? e = filterOf? p := by
  induction h with
  | itself hp => exact find?_leaf (ne_logical_of_filterOf? hp)
  | left hleft ih =>
    obtain ⟨filter, hfilter⟩ := Option.isSome_iff_exists.mp hleft.filterOf?_isSome
    rw [find?_logical, ih, hfilter, Option.some_or]
  | right hnone _ ih => rw [find?_logical, hnone, Option.none_or, ih]

/-- What is left of two operands of `AND` holds just where both rests hold. -/
theorem all_rejoin_and (leaf : Expr → Bool) (left right : Option Expr) :
    (rejoin .and left right).all (holds leaf) =
      (left.all (holds leaf) && right.all (holds leaf)) := by
  cases left with
  | none => cases right <;> simp [rejoin]
  | some left =>
    cases right with
    | none => simp [rejoin]
    | some right => exact Expr.holds_logical leaf .and left right

theorem takeOut?_of_find?_none (h : Spatial.find? e = none) : takeOut? e = none := by
  have hsome := isSome_takeOut? e
  rw [h] at hsome
  simpa using hsome

/-- The predicate is taken out, and together with what is left it says what was said before. -/
theorem IsConjunct.takeOut? (h : IsConjunct p e) (leaf : Expr → Bool) :
    ∃ rest, takeOut? e = some rest ∧ e.holds leaf = (leaf p && rest.all (holds leaf)) := by
  induction h with
  | itself hp =>
    refine ⟨none, ?_, ?_⟩
    · rw [takeOut?_leaf (ne_logical_of_filterOf? hp), if_pos hp]
    · rw [Expr.holds_leaf leaf (ne_logical_of_filterOf? hp), Option.all_none, Bool.and_true]
  | @left left right _ ih =>
    obtain ⟨rest, htaken, hholds⟩ := ih
    refine ⟨rejoin .and rest (some right), ?_, ?_⟩
    · rw [takeOut?_logical, htaken, Option.map_some, Option.some_or]
    · rw [Expr.holds_logical, Logical.join, hholds, all_rejoin_and, Option.all_some, Bool.and_assoc]
  | @right left right hnone _ ih =>
    obtain ⟨rest, htaken, hholds⟩ := ih
    refine ⟨rejoin .and (some left) rest, ?_, ?_⟩
    · rw [takeOut?_logical, takeOut?_of_find?_none hnone, htaken, Option.map_none, Option.none_or,
        Option.map_some]
    · rw [Expr.holds_logical, Logical.join, hholds, all_rejoin_and, Option.all_some,
        Bool.and_left_comm]

theorem IsConjunct.holds_eq (h : IsConjunct p e) (leaf : Expr → Bool) :
    e.holds leaf = (leaf p && (remove e).all (holds leaf)) := by
  obtain ⟨rest, htaken, hholds⟩ := h.takeOut? leaf
  rw [remove, htaken, Option.getD_some, hholds]

end Conjunct
end Spatial
end FeatureSql
