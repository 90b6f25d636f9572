import FeatureSql.Proofs.Expr.RoundTrip
import Mathlib

/-! Names in quotes and bare constants as operands. Both are kept as names, and they meet where a
name in quotes is a constant in capitals. -/

set_option autoImplicit false

namespace FeatureSql.Sql

theorem upper_lower (cs : List Char) : upper (lower cs) = upper cs := by
  rw [upper, lower, List.map_map]
  exact List.map_congr_left fun c _ => Char.toUpper_toLower_eq_toUpper c

/-- The constants as they are kept, and as they are written. -/
def constants : List String := ["NULL", "TRUE", "FALSE"]

section Constants
variable {word : String}

theorem isConstant_iff (cs : List Char) : isConstant cs = true ↔ lower cs ∈ constantWords := by
  rw [isConstant, List.contains_eq_mem, decide_eq_true_eq]

/-- Whatever its letter case, a constant is kept in capitals. -/
theorem normalizeConstant_mem (h : isConstant word.toList = true) :
    normalizeConstant word ∈ constants := by
  have hwords : ∀ cs ∈ constantWords, String.ofList (upper cs) ∈ constants := by decide
  rw [normalizeConstant, if_pos h, ← upper_lower]
  exact hwords _ ((isConstant_iff _).mp h)

theorem isBare_of_isConstant (h : isConstant word.toList = true) : IsBare word.toList := by
  have hwords : ∀ cs ∈ constantWords, cs ≠ [] ∧ cs.all Char.isAlpha = true ∧
      reservedWords.contains cs = false := by decide
  obtain ⟨hne, halpha, hfree⟩ := hwords _ ((isConstant_iff _).mp h)
  have hletters : ∀ c ∈ word.toList, c.isAlpha = true := by
    intro c hc
    rw [← Char.isAlpha_toLower_eq_isAlpha]
    exact List.all_eq_true.mp halpha _ (List.mem_map_of_mem hc)
  have hstart : ∀ c ∈ word.toList, isWordStart c = true := fun c hc =>
    (isWordStart_iff c).mpr (Or.inl (hletters c hc))
  have hwhole : word.toList.takeWhile isWordChar = word.toList := by
    have htake := Reader.takeWhile_append_of_breaks
      (fun c hc => isWordChar_of_isWordStart (hstart c hc)) (Reader.Breaks.nil isWordChar)
    rwa [List.append_nil] at htake
  refine ⟨?_, ?_⟩
  · cases hcs : word.toList with
    | nil => exact absurd (congrArg lower hcs) hne
    | cons c cs =>
      rw [hcs, List.forall_mem_cons] at hstart
      exact ⟨c, cs, rfl, hstart.1, fun d hd =>
        isNameChar_of_isWordChar (isWordChar_of_isWordStart (hstart.2 d hd))⟩
  · rw [hwhole]
    exact hfree

end Constants

namespace Expr

/-- What is read as an operand, whatever may be read inside of it, is read as an expression. -/
theorem readsAs_of_primary {sql : String} {e : Expr} (hrank : 7 ≤ e.rank)
    (h : ∀ inner, Whole inner 7 sql.toList e) : ReadsAs reader (Closes 1) sql e := by
  intro gap text hg ht
  have hprimary := h (readerAt (gap ++ (sql.toList ++ text)).length)
  have hreading : Reading _ 1 sql.toList e :=
    (Reading.of_primary hprimary (Or.inr hrank)).le_rank (one_le_rank e) (Nat.le_refl 1)
  exact hreading.whole gap text hg ht

theorem whole_quoted (inner : Reader Expr) (name : String) :
    Whole inner 7 (quoteName name).toList (.name name) := fun _ _ hg hc =>
  (primary_gap hg _).trans (primary_quoted name hc.boundary)

theorem whole_constant (inner : Reader Expr) {word : String}
    (h : isConstant word.toList = true) :
    Whole inner 7 word.toList (.name (normalizeConstant word)) := fun _ _ hg hc =>
  (primary_gap hg _).trans (primary_bare (isBare_of_isConstant h) hc.boundary)

theorem parse_quoted (name : String) : parse (quoteName name) = .ok (.name name) :=
  parseWhole_of_readsAs (readsAs_of_primary (by simp [rank]) fun inner => whole_quoted inner name)
    closes_nil

theorem parse_constant {word : String} (h : isConstant word.toList = true) :
    parse word = .ok (.name (normalizeConstant word)) :=
  parseWhole_of_readsAs (readsAs_of_primary (by simp [rank]) fun inner => whole_constant inner h)
    closes_nil

/-- A name in quotes is read as a bare constant just where it is that constant in capitals. -/
theorem parse_quoted_eq_iff (name : String) {word : String} (h : isConstant word.toList = true) :
    parse (quoteName name) = parse word ↔ name = normalizeConstant word := by
  rw [parse_quoted, parse_constant h, Except.ok.injEq, Expr.name.injEq]

end Expr
end FeatureSql.Sql
