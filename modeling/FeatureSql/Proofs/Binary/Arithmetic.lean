import FeatureSql.Proofs.Binary.Packing
import Mathlib.Algebra.Order.Field.Basic
import Mathlib.Tactic.FieldSimp

/-! Products, quotients and integers as the core computes them: none of them is larger than a number
of the format that covers the exact result. -/

set_option autoImplicit false

namespace FeatureSql.Binary

open Float.Model (Format UnpackedFloat totalExponent)
open Float.Model.UnpackedFloat

theorem represents_fraction (quotient : Nat) {rest n : Nat} (hlt : rest < n) :
    Represents (.ofMantissaAndAccuracy quotient (accuracyOfFraction rest n))
      (quotient + rest / n) := by
  have hpos : (0 : ℚ) < n := by exact_mod_cast Nat.zero_lt_of_lt hlt
  have hone : (rest : ℚ) < n := by exact_mod_cast hlt
  unfold accuracyOfFraction
  split
  · next hzero =>
    rw [hzero, Nat.cast_zero, zero_div, add_zero]
    exact .exact quotient
  · next hrest =>
    have hrestPos : (0 : ℚ) < rest := by exact_mod_cast Nat.pos_of_ne_zero hrest
    cases hcompare : compare (2 * rest) n with
    | lt =>
      have hhalf : (2 : ℚ) * rest < n := by exact_mod_cast Nat.compare_eq_lt.mp hcompare
      refine .below (by simpa using div_pos hrestPos hpos) ?_
      rw [add_lt_add_iff_left, div_lt_iff₀ hpos]
      linarith
    | eq =>
      have hhalf : (2 : ℚ) * rest = n := by exact_mod_cast Nat.compare_eq_eq.mp hcompare
      have hmiddle : (rest : ℚ) / n = 1 / 2 := by
        rw [div_eq_iff hpos.ne']
        linarith
      exact hmiddle ▸ .half quotient
    | gt =>
      have hhalf : (n : ℚ) < 2 * rest := by exact_mod_cast Nat.compare_eq_gt.mp hcompare
      refine .above ?_ ?_
      · rw [add_lt_add_iff_left, lt_div_iff₀ hpos]
        linarith
      · rw [add_lt_add_iff_left, div_lt_iff₀ hpos]
        linarith

theorem represents_quotient (m : Nat) {n : Nat} (hn : 0 < n) :
    Represents (.ofMantissaAndAccuracy (m / n) (accuracyOfFraction (m % n) n)) (m / n) := by
  have hquotient : (m / n : ℚ) = (m / n : Nat) + (m % n : Nat) / n := by
    have hsplit : (m : ℚ) = n * (m / n : Nat) + (m % n : Nat) := by
      exact_mod_cast (Nat.div_add_mod m n).symm
    have hne : (n : ℚ) ≠ 0 := by exact_mod_cast hn.ne'
    field_simp
    linarith
  rw [hquotient]
  exact represents_fraction (m / n) (Nat.mod_lt m hn)

/-- A dividend that is 53 bits longer than the divisor leaves a quotient with all bits. -/
theorem le_shiftLeft_div {m n k : Nat} (hm : 0 < m) (hn : 0 < n)
    (hroom : 53 + n.log2 ≤ m.log2 + k) : 2 ^ 52 ≤ m <<< k / n := by
  rw [Nat.le_div_iff_mul_le hn, Nat.shiftLeft_eq]
  calc 2 ^ 52 * n ≤ 2 ^ 52 * 2 ^ (n.log2 + 1) := Nat.mul_le_mul_left _ Nat.lt_log2_self.le
    _ ≤ 2 ^ (m.log2 + k) := by
      rw [← Nat.pow_add]
      exact Nat.pow_le_pow_right (by decide) (by omega)
    _ ≤ m * 2 ^ k := by
      rw [Nat.pow_add]
      exact Nat.mul_le_mul_right _ (Nat.log2_self_le hm.ne')

section Operations
variable {x : Binary} (hx : x.Canonical) (hbits : 2 ^ 52 ≤ x.significand)
include hx hbits

section Finite
variable {m₁ m₂ : Nat} (e₁ e₂ : Int) (h₁ : 0 < m₁) (h₂ : 0 < m₂)

theorem isAtMost_mul (h : 2 ^ 52 ≤ m₁ * m₂) (hv : x.Covers (m₁ * 2 ^ e₁ * (m₂ * 2 ^ e₂))) :
    IsAtMost x.value
      (mul .binary64 (.finite .positive m₁ e₁ h₁) (.finite .positive m₂ e₂ h₂)) := by
  have hunits : (m₁ * 2 ^ e₁ * (m₂ * 2 ^ e₂) : ℚ) / 2 ^ (e₁ + e₂) = (m₁ * m₂ : Nat) := by
    rw [zpow_add₀ (by norm_num), Nat.cast_mul, mul_mul_mul_comm,
      mul_div_cancel_right₀ _ (by positivity)]
  refine isAtMost_roundWithAccuracy hx hbits (hunits ▸ .exact (m₁ * m₂)) ?_ hv
  have hlog := (Nat.le_log2 (by omega)).mpr h
  rw [targetExponent_eq]
  omega

theorem isAtMost_div (hv : x.Covers (m₁ * 2 ^ e₁ / (m₂ * 2 ^ e₂))) :
    IsAtMost x.value
      (div .binary64 (.finite .positive m₁ e₁ h₁) (.finite .positive m₂ e₂ h₂)) := by
  unfold div divCore
  dsimp only
  generalize htarget : min (e₁ - e₂)
    (Format.binary64.targetExponent (totalExponent m₁ e₁ - totalExponent m₂ e₂)) = target
  obtain ⟨k, hk⟩ := Int.le.dest (show target ≤ e₁ - e₂ by omega)
  have hshift : (e₁ - e₂ - target).toNat = k := by omega
  rw [hshift]
  have hunits : (m₁ * 2 ^ e₁ / (m₂ * 2 ^ e₂) : ℚ) / 2 ^ target = (m₁ <<< k : Nat) / m₂ := by
    have hpower : (2 : ℚ) ^ e₁ = 2 ^ e₂ * (2 ^ target * 2 ^ k) := by
      rw [← zpow_natCast, ← zpow_add₀ (by norm_num), ← zpow_add₀ (by norm_num)]
      congr 1
      omega
    have hpos : (m₂ : ℚ) ≠ 0 := by exact_mod_cast h₂.ne'
    rw [hpower, Nat.shiftLeft_eq, Nat.cast_mul, Nat.cast_pow, Nat.cast_ofNat]
    field_simp
  refine isAtMost_roundWithAccuracy hx hbits (hunits ▸ represents_quotient (m₁ <<< k) h₂) ?_ hv
  rw [targetExponent_eq]
  by_cases hleast : target ≤ -1074
  · omega
  · have hroom : 53 + m₂.log2 ≤ m₁.log2 + k := by
      rw [targetExponent_binary64] at htarget
      unfold totalExponent at htarget
      omega
    have hlong := le_shiftLeft_div h₁ h₂ hroom
    have hlog := (Nat.le_log2 (by omega)).mpr hlong
    omega

end Finite

theorem isAtMost_round {n : Nat} (hn : n ≠ 0) (hv : x.Covers n) :
    IsAtMost x.value (UnpackedFloat.round .binary64 .positive n 0) := by
  unfold UnpackedFloat.round decreaseExponent
  dsimp only
  generalize hk : (0 - Format.binary64.targetExponent (totalExponent n 0)).toNat = k
  have hunits : (n : ℚ) / 2 ^ (0 - k : Int) = (n <<< k : Nat) := by
    rw [zero_sub, zpow_neg, div_inv_eq_mul, zpow_natCast, Nat.shiftLeft_eq]
    push_cast
    rfl
  refine isAtMost_roundWithAccuracy hx hbits (hunits ▸ .exact (n <<< k)) ?_ hv
  have hlong : 2 ^ (n.log2 + k) ≤ n <<< k := by
    rw [Nat.shiftLeft_eq, Nat.pow_add]
    exact Nat.mul_le_mul_right _ (Nat.log2_self_le hn)
  have hlog := (Nat.le_log2 (by have := Nat.two_pow_pos (n.log2 + k); omega)).mpr hlong
  rw [targetExponent_eq] at hk ⊢
  omega

end Operations

theorem value_nonneg (x : Binary) : 0 ≤ x.value := mul_nonneg (Nat.cast_nonneg _) (by positivity)

theorem Canonical.value_le {x : Binary} (hx : x.Canonical) : x.value ≤ largest.value := by
  have hlast : (x.significand : ℚ) ≤ largest.significand := by
    exact_mod_cast Nat.le_of_lt_succ hx.lt
  exact mul_le_mul hlast (zpow_le_zpow_right₀ (by norm_num) hx.high) (by positivity) (by positivity)

/-- Products of numbers, compared without fractions. -/
theorem mul_value_le {x y z : Binary} (hz : 0 ≤ z.exponent)
    (h : x.significand * y.significand * 2 ^ (x.exponent + y.exponent).toNat ≤
      z.significand * 2 ^ z.exponent.toNat) : x.value * y.value ≤ z.value := by
  have hcast : (x.significand * y.significand * 2 ^ (x.exponent + y.exponent).toNat : ℚ) ≤
      z.significand * 2 ^ z.exponent.toNat := by exact_mod_cast h
  calc x.value * y.value = x.significand * y.significand * 2 ^ (x.exponent + y.exponent) := by
        rw [zpow_add₀ (by norm_num)]
        exact mul_mul_mul_comm _ _ _ _
    _ ≤ x.significand * y.significand * 2 ^ ((x.exponent + y.exponent).toNat : Int) :=
      mul_le_mul_of_nonneg_left (zpow_le_zpow_right₀ (by norm_num) (Int.self_le_toNat _))
        (by positivity)
    _ ≤ z.significand * 2 ^ (z.exponent.toNat : Int) := by
      rw [zpow_natCast, zpow_natCast]
      exact hcast
    _ = z.value := by
      rw [Int.toNat_of_nonneg hz]
      rfl

/-- A finite number without a sign that is not larger than `bound`. -/
structure IsUpTo (bound : ℚ) (value : Float) : Prop where
  unsigned : IsUnsigned value.toBits
  le : (ofBits value.toBits).value ≤ bound

theorem IsUpTo.of_isAtMost {bound : ℚ} {result : UnpackedFloat} (h : IsAtMost bound result)
    (hbound : bound ≤ largest.value) : IsUpTo bound (.ofModel (.pack result)) :=
  ⟨(isUnsigned_pack h hbound).1, (isUnsigned_pack h hbound).2⟩

theorem isUpTo_toFloat {x : Binary} (hx : x.Canonical) (hbits : 2 ^ 52 ≤ x.significand) {n : Nat}
    (hn : n < UInt64.size) (hv : x.Covers n) : IsUpTo x.value n.toUInt64.toFloat := by
  have hword : n.toUInt64.toNat = n := UInt64.toNat_ofNat_of_lt' hn
  refine @IsUpTo.of_isAtMost x.value (normalize .binary64 n.toUInt64.toNat 0 .positive) ?_ hx.value_le
  rw [hword]
  by_cases hzero : n = 0
  · subst hzero
    exact .zero x.value_nonneg
  · have hpositive : compare (n : Int) 0 = .gt := Int.compare_eq_gt.mpr (by omega)
    rw [UnpackedFloat.normalize, hpositive]
    dsimp only
    rw [Int.toNat_natCast]
    exact isAtMost_round hx hbits hzero hv

section Floats
variable {v w : ℚ} {a b : Float}

theorem isUpTo_mul (ha : IsUpTo v a) (hb : IsUpTo w b) (hfull : 2 ^ 52 ≤ (ofBits b.toBits).significand)
    (hle : v * w ≤ largest.value) : IsUpTo largest.value (a * b) := by
  refine @IsUpTo.of_isAtMost largest.value (UnpackedFloat.mul .binary64
    (unpack .binary64 a.toBits.toBitVec) (unpack .binary64 b.toBits.toBitVec)) ?_ le_rfl
  rcases unpack_of_isUnsigned hb.unsigned with ⟨hzero, _⟩ | ⟨hposb, hunpackb⟩
  · omega
  rcases unpack_of_isUnsigned ha.unsigned with ⟨_, hunpacka⟩ | ⟨hposa, hunpacka⟩
  · rw [hunpacka, hunpackb]
    exact .zero largest.value_nonneg
  · rw [hunpacka, hunpackb]
    have hbits := hfull.trans (Nat.le_mul_of_pos_left _ hposa)
    refine isAtMost_mul canonical_largest (by decide) _ _ _ _ hbits (covers_of_le (le_trans ?_ hle))
    exact mul_le_mul ha.le hb.le (value_nonneg _) ((value_nonneg _).trans ha.le)

theorem isUpTo_div (ha : IsUpTo largest.value a) (hb : IsUnsigned b.toBits)
    (hone : 1 ≤ (ofBits b.toBits).value) : IsUpTo largest.value (a / b) := by
  refine @IsUpTo.of_isAtMost largest.value (UnpackedFloat.div .binary64
    (unpack .binary64 a.toBits.toBitVec) (unpack .binary64 b.toBits.toBitVec)) ?_ le_rfl
  rcases unpack_of_isUnsigned hb with ⟨hzero, _⟩ | ⟨hposb, hunpackb⟩
  · rw [value, hzero, Nat.cast_zero, zero_mul] at hone
    exact absurd hone (by norm_num)
  rcases unpack_of_isUnsigned ha.unsigned with ⟨_, hunpacka⟩ | ⟨hposa, hunpacka⟩
  · rw [hunpacka, hunpackb]
    exact .zero largest.value_nonneg
  · rw [hunpacka, hunpackb]
    refine isAtMost_div canonical_largest (by decide) _ _ _ _ (covers_of_le (le_trans ?_ ha.le))
    exact div_le_self (value_nonneg _) hone

theorem isInf_of_isUnsigned (h : IsUnsigned a.toBits) : a.isInf = false := by
  change (unpack .binary64 a.toBits.toBitVec).isInf = false
  rcases unpack_of_isUnsigned h with ⟨_, hunpack⟩ | ⟨_, hunpack⟩
  · rw [hunpack]
    rfl
  · rw [hunpack]
    rfl

/-- Without a sign, only infinity lies beyond the finite numbers. -/
theorem isUnsigned_of_isInf (hle : a.toBits.toNat ≤ 0x7FF0000000000000) (h : a.isInf = false) :
    IsUnsigned a.toBits := by
  refine lt_of_le_of_ne hle fun hbits => ?_
  have hbits : a.toBits = 0x7FF0000000000000 := UInt64.toNat_inj.mp hbits
  change (unpack .binary64 a.toBits.toBitVec).isInf = false at h
  rw [hbits] at h
  exact absurd h (by decide)

theorem isUnsigned_mul (ha : IsUnsigned a.toBits) (hb : IsUnsigned b.toBits)
    (h : (a * b).isInf = false) : IsUnsigned (a * b).toBits := by
  have hpositive : IsPositive (UnpackedFloat.mul .binary64 (unpack .binary64 a.toBits.toBitVec)
      (unpack .binary64 b.toBits.toBitVec)) := by
    rcases unpack_of_isUnsigned ha with ⟨_, hunpacka⟩ | ⟨_, hunpacka⟩ <;>
      rcases unpack_of_isUnsigned hb with ⟨_, hunpackb⟩ | ⟨_, hunpackb⟩ <;>
      rw [hunpacka, hunpackb]
    · rfl
    · rfl
    · rfl
    · exact isPositive_roundWithAccuracy _ _ _
  exact isUnsigned_of_isInf (toNat_pack_le hpositive) h

end Floats
end FeatureSql.Binary
