import FeatureSql.Proofs.Spatial.Truth

/-! The leaves of a condition, and the literals that a call holds. Which filter is found is a matter
of the leaves alone, in the order in which they stand. -/

set_option autoImplicit false

namespace FeatureSql

namespace Sql.Expr

/-- What `AND` and `OR` join in a condition, from left to right. -/
def leaves : Expr → List Expr
  | .logical _ left right => leaves left ++ leaves right
  | e => [e]

theorem leaves_logical (operator : Logical) (left right : Expr) :
    leaves (.logical operator left right) = left.leaves ++ right.leaves := by
  rw [leaves]

theorem leaves_leaf {e : Expr} (h : ∀ operator left right, e ≠ .logical operator left right) :
    leaves e = [e] := by
  rw [leaves]
  exact h

mutual

/-- An expression itself, or what a call holds in its place: its arguments from left to right, with
the calls among them opened in turn. -/
def atoms : Expr → List Expr
  | .call _ arguments => atomsAmong arguments
  | e => [e]

def atomsAmong : List Expr → List Expr
  | [] => []
  | e :: es => atoms e ++ atomsAmong es

end

end Sql.Expr

namespace Spatial

open Sql (Expr Logical)
open Sql.Expr (leaves atoms atomsAmong)

/-- The JSON object that a text literal reads as. -/
def objectOf? : Expr → Option Json
  | .text value => (Json.parse? value).filter Json.isObject
  | _ => none

/-- The integer that a number literal reads as, if a 64-bit word can hold it. -/
def integerOf? : Expr → Option Int64
  | .number value => readInt64? value
  | _ => none

theorem geometryAmong_eq_findSome? {es : List Expr}
    (h : ∀ e ∈ es, geometryIn e = e.atoms.findSome? objectOf?) :
    geometryAmong es = (atomsAmong es).findSome? objectOf? := by
  induction es with
  | nil => rfl
  | cons e es ih =>
    rw [List.forall_mem_cons] at h
    rw [geometryAmong, atomsAmong, List.findSome?_append, h.1, ih h.2]
    cases e.atoms.findSome? objectOf? <;> rfl

theorem geometryIn_eq_findSome? (e : Expr) : geometryIn e = e.atoms.findSome? objectOf? := by
  induction e with
  | call function arguments ih => rw [geometryIn, atoms, geometryAmong_eq_findSome? ih]
  | text value => simp [geometryIn, atoms, objectOf?]
  | _ => simp [geometryIn, atoms, objectOf?]

theorem sridAmong_eq_findSome? {es : List Expr}
    (h : ∀ e ∈ es, sridIn e = e.atoms.findSome? integerOf?) :
    sridAmong es = (atomsAmong es).findSome? integerOf? := by
  induction es with
  | nil => rfl
  | cons e es ih =>
    rw [List.forall_mem_cons] at h
    rw [sridAmong, atomsAmong, List.findSome?_append, h.1, ih h.2]
    cases e.atoms.findSome? integerOf? <;> rfl

theorem sridIn_eq_findSome? (e : Expr) : sridIn e = e.atoms.findSome? integerOf? := by
  induction e with
  | call function arguments ih => rw [sridIn, atoms, sridAmong_eq_findSome? ih]
  | number value => simp [sridIn, atoms, integerOf?]
  | _ => simp [sridIn, atoms, integerOf?]

/-- An expression stands for a filter by itself just where it is a call of `ST_INTERSECTS` that
holds the geometry's text, and the number of its coordinate system unless that is the default. -/
theorem filterOf?_eq_some_iff {e : Expr} {filter : SpatialFilter} : filterOf? e = some filter ↔
    ∃ function arguments, e = .call function arguments ∧
      Sql.lower function.toList = "st_intersects".toList ∧
      (atomsAmong arguments).findSome? objectOf? = some filter.geometry ∧
      ((atomsAmong arguments).findSome? integerOf?).getD defaultWkid = filter.srid := by
  constructor
  · intro h
    cases e with
    | call function arguments =>
      rw [filterOf?] at h
      split at h
      case isTrue hname =>
        obtain ⟨geometry, hgeometry, rfl⟩ := Option.map_eq_some_iff.mp h
        rw [geometryAmong_eq_findSome? fun e _ => geometryIn_eq_findSome? e] at hgeometry
        refine ⟨function, arguments, rfl, by simpa [isIntersects] using hname, hgeometry, ?_⟩
        rw [sridAmong_eq_findSome? fun e _ => sridIn_eq_findSome? e]
      case isFalse => cases h
    | _ => cases h
  · rintro ⟨function, arguments, rfl, hname, hgeometry, hsrid⟩
    rw [← geometryAmong_eq_findSome? fun e _ => geometryIn_eq_findSome? e] at hgeometry
    rw [← sridAmong_eq_findSome? fun e _ => sridIn_eq_findSome? e] at hsrid
    rw [filterOf?, if_pos (by simpa [isIntersects] using hname), hgeometry, Option.map_some, hsrid]

theorem find?_eq_findSome? (e : Expr) : find? e = e.leaves.findSome? filterOf? := by
  induction e with
  | logical operator left right ihl ihr =>
    rw [find?_logical, Sql.Expr.leaves_logical, List.findSome?_append, ihl, ihr]
  | _ => simp [find?, leaves]

theorem find?_eq_none_iff {e : Expr} :
    find? e = none ↔ ∀ leaf ∈ e.leaves, filterOf? leaf = none := by
  rw [find?_eq_findSome?, List.findSome?_eq_none_iff]

/-- A filter that is found is that of one leaf, and no leaf before it has any. -/
theorem find?_eq_some_iff {e : Expr} {filter : SpatialFilter} : find? e = some filter ↔
    ∃ before p after, e.leaves = before ++ p :: after ∧ filterOf? p = some filter ∧
      ∀ leaf ∈ before, filterOf? leaf = none := by
  rw [find?_eq_findSome?, List.findSome?_eq_some_iff]

end Spatial
end FeatureSql
