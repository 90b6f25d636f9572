import FeatureSql.Sql.Lexeme
import FeatureSql.Sql.Name
import FeatureSql.Text.Blank

/-! Classes of characters: which of them exclude and which contain one another. -/

set_option autoImplicit false

namespace FeatureSql.Sql

/-- What may go on a bare name. -/
def isNameChar (c : Char) : Bool := isWordChar c || isDot c

/-- What may go on a bare table name. -/
def isTableChar (c : Char) : Bool := isWordChar c || isDotOrDash c

theorem isDigit_iff (c : Char) : c.isDigit = true ↔ 48 ≤ c.toNat ∧ c.toNat ≤ 57 := by
  simp only [Char.isDigit, Bool.and_eq_true, decide_eq_true_eq, UInt32.le_iff_toNat_le, ge_iff_le]
  exact Iff.rfl

theorem isAlpha_iff (c : Char) : c.isAlpha = true ↔
    (65 ≤ c.toNat ∧ c.toNat ≤ 90) ∨ (97 ≤ c.toNat ∧ c.toNat ≤ 122) := by
  have hupper : c.isUpper = decide (c.val ≥ 65 ∧ c.val ≤ 90) := rfl
  have hlower : c.isLower = (decide (c.val ≥ 97) && decide (c.val ≤ 122)) := rfl
  have halpha : c.isAlpha = (c.isUpper || c.isLower) := rfl
  simp only [halpha, hupper, hlower, Bool.or_eq_true, Bool.and_eq_true, decide_eq_true_eq,
    UInt32.le_iff_toNat_le, ge_iff_le]
  exact Iff.rfl

theorem toLower_cases (c : Char) : c.toLower = c ∨ c.isAlpha = true := by
  by_cases h : c.val ≥ 'A'.val ∧ c.val ≤ 'Z'.val
  · exact Or.inr ((isAlpha_iff c).mpr (Or.inl h))
  · exact Or.inl (dif_neg h)

theorem isWordStart_iff (c : Char) : isWordStart c = true ↔ c.isAlpha = true ∨ c = '_' := by
  simp [isWordStart]

theorem isWordChar_iff (c : Char) :
    isWordChar c = true ↔ c.isAlpha = true ∨ c.isDigit = true ∨ c = '_' := by
  simp [isWordChar, Char.isAlphanum, or_assoc]

theorem isWordChar_of_isWordStart {c : Char} (h : isWordStart c = true) : isWordChar c = true := by
  rcases (isWordStart_iff c).mp h with ha | rfl
  · exact (isWordChar_iff c).mpr (Or.inl ha)
  · rfl

theorem isWordChar_of_isDigit {c : Char} (h : c.isDigit = true) : isWordChar c = true :=
  (isWordChar_iff c).mpr (Or.inr (Or.inl h))

theorem isNameChar_of_isWordChar {c : Char} (h : isWordChar c = true) : isNameChar c = true := by
  simp [isNameChar, h]

theorem isWordStart_of_isDigit {c : Char} (h : c.isDigit = true) : isWordStart c = false := by
  rw [← Bool.not_eq_true, isWordStart_iff, isAlpha_iff]
  rintro (ha | rfl)
  · have hd := (isDigit_iff c).mp h
    omega
  · exact absurd h (by decide)

theorem isDigit_of_isWordStart {c : Char} (h : isWordStart c = true) : c.isDigit = false := by
  rw [← Bool.not_eq_true]
  intro hd
  rw [isWordStart_of_isDigit hd] at h
  exact absurd h (by decide)

theorem isGap_iff (c : Char) : isGap c = true ↔ c = ' ' ∨ c = '\t' ∨ c = '\r' ∨ c = '\n' := by
  simp [isGap, or_assoc]

theorem isBlank_of_isGap {c : Char} (h : isGap c = true) : isBlank c = true := by
  rcases (isGap_iff c).mp h with rfl | rfl | rfl | rfl <;> rfl

theorem isBlank_of_isWordChar {c : Char} (h : isWordChar c = true) : isBlank c = false := by
  have hrange : 48 ≤ c.toNat ∧ c.toNat ≤ 122 := by
    rcases (isWordChar_iff c).mp h with ha | hd | rfl
    · have := (isAlpha_iff c).mp ha
      omega
    · have := (isDigit_iff c).mp hd
      omega
    · decide
  simp only [isBlank, blankRanges, List.any_cons, List.any_nil, Bool.or_false, Bool.or_eq_false_iff,
    Bool.and_eq_false_iff, decide_eq_false_iff_not]
  omega

theorem isGap_of_isWordChar {c : Char} (h : isWordChar c = true) : isGap c = false := by
  rw [← Bool.not_eq_true]
  intro hg
  have hb := isBlank_of_isWordChar h
  rw [isBlank_of_isGap hg] at hb
  exact absurd hb (by decide)

theorem isBlank_of_isNameChar {c : Char} (h : isNameChar c = true) : isBlank c = false := by
  simp only [isNameChar, isDot, Bool.or_eq_true, beq_iff_eq] at h
  rcases h with h | rfl
  · exact isBlank_of_isWordChar h
  · rfl

theorem isGap_of_isBlank_false {c : Char} (h : isBlank c = false) : isGap c = false := by
  rw [← Bool.not_eq_true]
  intro hg
  rw [isBlank_of_isGap hg] at h
  exact absurd h (by decide)

end FeatureSql.Sql
