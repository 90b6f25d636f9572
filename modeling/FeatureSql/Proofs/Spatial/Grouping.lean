import FeatureSql.Proofs.Expr.Grouping
import FeatureSql.Spatial.Predicate

/-! Spatial predicates in conditions that differ only in how their chains are grouped: the same one
is found, and what is left without it differs only in its grouping. -/

set_option autoImplicit false

namespace FeatureSql.Spatial

open Sql (Expr Logical)
open Sql.Expr (attach leftGrouped leftGroupedAll)

theorem geometryIn_logical (operator : Logical) (left right : Expr) :
    geometryIn (.logical operator left right) = none := by
  rw [geometryIn]
  all_goals simp

theorem sridIn_logical (operator : Logical) (left right : Expr) :
    sridIn (.logical operator left right) = none := by
  rw [sridIn]
  all_goals simp

theorem geometryAmong_map {as : List Expr}
    (h : ∀ a ∈ as, geometryIn a.leftGrouped = geometryIn a) :
    geometryAmong (as.map leftGrouped) = geometryAmong as := by
  induction as with
  | nil => rfl
  | cons a as ih =>
    rw [List.map_cons, geometryAmong, geometryAmong, h a List.mem_cons_self,
      ih fun b hb => h b (List.mem_cons_of_mem a hb)]

theorem sridAmong_map {as : List Expr} (h : ∀ a ∈ as, sridIn a.leftGrouped = sridIn a) :
    sridAmong (as.map leftGrouped) = sridAmong as := by
  induction as with
  | nil => rfl
  | cons a as ih =>
    rw [List.map_cons, sridAmong, sridAmong, h a List.mem_cons_self,
      ih fun b hb => h b (List.mem_cons_of_mem a hb)]

theorem geometryIn_leftGrouped (e : Expr) : geometryIn e.leftGrouped = geometryIn e := by
  induction e with
  | call function arguments ih =>
    rw [leftGrouped, Expr.leftGroupedAll_eq_map, geometryIn, geometryIn, geometryAmong_map ih]
  | logical operator left right =>
    obtain ⟨left', right', h⟩ := Expr.attach_eq_logical operator left.leftGrouped right.leftGrouped
    rw [leftGrouped, h, geometryIn_logical, geometryIn_logical]
  | _ => simp only [leftGrouped, geometryIn]

theorem sridIn_leftGrouped (e : Expr) : sridIn e.leftGrouped = sridIn e := by
  induction e with
  | call function arguments ih =>
    rw [leftGrouped, Expr.leftGroupedAll_eq_map, sridIn, sridIn, sridAmong_map ih]
  | logical operator left right =>
    obtain ⟨left', right', h⟩ := Expr.attach_eq_logical operator left.leftGrouped right.leftGrouped
    rw [leftGrouped, h, sridIn_logical, sridIn_logical]
  | _ => simp only [leftGrouped, sridIn]

theorem filterOf?_logical (operator : Logical) (left right : Expr) :
    filterOf? (.logical operator left right) = none := rfl

theorem filterOf?_leftGrouped (e : Expr) : filterOf? e.leftGrouped = filterOf? e := by
  cases e with
  | call function arguments =>
    rw [leftGrouped, Expr.leftGroupedAll_eq_map, filterOf?, filterOf?,
      geometryAmong_map fun a _ => geometryIn_leftGrouped a,
      sridAmong_map fun a _ => sridIn_leftGrouped a]
  | logical operator left right =>
    obtain ⟨left', right', h⟩ := Expr.attach_eq_logical operator left.leftGrouped right.leftGrouped
    rw [leftGrouped, h, filterOf?_logical, filterOf?_logical]
  | _ => rfl

theorem find?_leaf {e : Expr} (h : ∀ operator left right, e ≠ .logical operator left right) :
    find? e = filterOf? e := by
  rw [find?]
  exact h

theorem find?_logical (operator : Logical) (left right : Expr) :
    find? (.logical operator left right) = (find? left).or (find? right) := by
  rw [find?]
  cases find? left <;> rfl

theorem find?_attach (operator : Logical) (first second : Expr) :
    find? (attach operator first second) = (find? first).or (find? second) := by
  induction second with
  | logical other left right ihl _ =>
    by_cases h : other = operator
    · subst h
      rw [Expr.attach_logical, find?_logical, ihl, find?_logical, Option.or_assoc]
    · rw [attach, if_neg h, find?_logical]
  | _ => exact find?_logical operator first _

theorem find?_leftGrouped (e : Expr) : find? e.leftGrouped = find? e := by
  induction e with
  | logical operator left right ihl ihr =>
    rw [leftGrouped, find?_attach, ihl, ihr, find?_logical]
  | call function arguments => exact filterOf?_leftGrouped (.call function arguments)
  | _ => rfl

theorem takeOut?_logical (operator : Logical) (left right : Expr) :
    takeOut? (.logical operator left right) =
      ((takeOut? left).map fun left => rejoin operator left (some right)).or
        ((takeOut? right).map (rejoin operator (some left))) := by
  rw [takeOut?]
  cases takeOut? left <;> rfl

theorem takeOut?_leaf {e : Expr} (h : ∀ operator left right, e ≠ .logical operator left right) :
    takeOut? e = if (filterOf? e).isSome then some none else none := by
  rw [takeOut?]
  exact h

/-- Left-grouped operands under an operator, or what is left where one of them is gone. -/
def glue (operator : Logical) : Option Expr → Option Expr → Option Expr
  | some left, some right => some (attach operator left right)
  | some e, none | none, some e => some e
  | none, none => none

theorem glue_some (operator : Logical) (left right : Expr) :
    glue operator (some left) (some right) = some (attach operator left right) := rfl

theorem glue_assoc (operator : Logical) (first second third : Option Expr) :
    glue operator (glue operator first second) third =
      glue operator first (glue operator second third) := by
  cases first <;> cases second <;> cases third <;>
    simp only [glue, Expr.attach_assoc]

theorem map_rejoin (operator : Logical) (left right : Option Expr) :
    (rejoin operator left right).map leftGrouped =
      glue operator (left.map leftGrouped) (right.map leftGrouped) := by
  cases left <;> cases right <;> rfl

/-- What is left without the first spatial predicate, grouped from the left. -/
def pruned (e : Expr) : Option (Option Expr) := (takeOut? e).map (Option.map leftGrouped)

theorem pruned_logical (operator : Logical) (left right : Expr) :
    pruned (.logical operator left right) =
      ((pruned left).map fun left => glue operator left (some right.leftGrouped)).or
        ((pruned right).map (glue operator (some left.leftGrouped))) := by
  rw [pruned, takeOut?_logical, pruned, pruned]
  cases takeOut? left with
  | some left' => simp only [Option.map_some, Option.some_or, map_rejoin]
  | none =>
    cases takeOut? right with
    | some right' => simp only [Option.map_some, Option.map_none, Option.none_or, map_rejoin]
    | none => rfl

theorem pruned_attach (operator : Logical) (first second : Expr) :
    pruned (attach operator first second) = pruned (.logical operator first second) := by
  induction second with
  | logical other left right ihl _ =>
    by_cases h : other = operator
    · subst h
      have hleft : leftGrouped (attach other first left) =
          attach other first.leftGrouped left.leftGrouped := Expr.leftGrouped_attach other first left
      rw [Expr.attach_logical, pruned_logical, ihl, pruned_logical, pruned_logical, pruned_logical,
        hleft]
      cases pruned first with
      | some first' =>
        simp only [Option.map_some, Option.some_or, glue_assoc, glue_some, leftGrouped]
      | none =>
        cases pruned left with
        | some left' => simp only [Option.map_some, Option.map_none, Option.none_or, Option.some_or,
            glue_assoc]
        | none =>
          cases pruned right with
          | some right' => simp only [Option.map_some, Option.map_none, Option.none_or, ← glue_assoc,
              glue_some]
          | none => rfl
    · rw [attach, if_neg h]
  | _ => rfl

theorem pruned_leaf {e : Expr} (h : ∀ operator left right, e ≠ .logical operator left right) :
    pruned e = if (filterOf? e).isSome then some none else none := by
  rw [pruned, takeOut?_leaf h]
  split <;> rfl

theorem pruned_leftGrouped (e : Expr) : pruned e.leftGrouped = pruned e := by
  induction e with
  | logical operator left right ihl ihr =>
    rw [leftGrouped, pruned_attach, pruned_logical, ihl, ihr, Expr.leftGrouped_leftGrouped,
      Expr.leftGrouped_leftGrouped, pruned_logical]
  | call function arguments =>
    rw [pruned_leaf (by simp [leftGrouped]), filterOf?_leftGrouped, pruned_leaf (by simp)]
  | _ => rfl

theorem map_remove (e : Expr) :
    (remove e).map leftGrouped = (pruned e).getD (some e.leftGrouped) := by
  rw [remove, pruned]
  cases takeOut? e <;> rfl

theorem remove_congr {first second : Expr} (h : first.leftGrouped = second.leftGrouped) :
    (remove first).map leftGrouped = (remove second).map leftGrouped := by
  rw [map_remove, map_remove, ← pruned_leftGrouped first, h, pruned_leftGrouped]

end FeatureSql.Spatial
