import FeatureSql.Text.Shortest
import Mathlib.Algebra.Order.Field.Power
import Mathlib.Tactic.Linarith
import Mathlib.Tactic.NormNum
import Mathlib.Tactic.Ring

/-! Rounding to binary64: what does not lie beyond the middle of the gap above a number of the
format comes to that number at most. The core's mantissas carry a bit for one half and a bit for
whatever else was shifted out. -/

set_option autoImplicit false

namespace FeatureSql.Binary

open Float.Model (Format UnpackedFloat totalExponent)
open Float.Model.UnpackedFloat

/-- The number whose integral part a mantissa keeps, its bits telling what lies behind the point. -/
inductive Represents : ExtendedMantissa → ℚ → Prop where
  | exact (m : Nat) : Represents ⟨m, false, false⟩ m
  | below {m : Nat} {x : ℚ} : m < x → x < m + 1 / 2 → Represents ⟨m, false, true⟩ x
  | half (m : Nat) : Represents ⟨m, true, false⟩ (m + 1 / 2)
  | above {m : Nat} {x : ℚ} : m + 1 / 2 < x → x < m + 1 → Represents ⟨m, true, true⟩ x

theorem mantissa_le_roundedMantissa (em : ExtendedMantissa) : em.mantissa ≤ em.roundedMantissa := by
  obtain ⟨m, roundBit, stickyBit⟩ := em
  cases roundBit <;> cases stickyBit
  · exact Nat.le_refl m
  · exact Nat.le_refl m
  · exact Nat.le_add_right m (m % 2)
  · exact Nat.le_succ m

namespace Represents
variable {em : ExtendedMantissa} {x : ℚ}

theorem bounds (h : Represents em x) : em.mantissa ≤ x ∧ x < em.mantissa + 1 := by
  cases h with
  | exact m => exact ⟨le_rfl, by simp⟩
  | below hlow hhigh => exact ⟨hlow.le, by linarith⟩
  | half m => exact ⟨by simp, by simp only [add_lt_add_iff_left]; norm_num⟩
  | above hlow hhigh => exact ⟨by linarith, hhigh⟩

theorem shiftRightOne (h : Represents em x) : Represents em.shiftRightOne (x / 2) := by
  obtain ⟨m, roundBit, stickyBit⟩ := em
  obtain ⟨k, hk | hk⟩ := Nat.even_or_odd' m
  · have hdiv : m / 2 = k := by omega
    have hbit : (m % 2 != 0) = false := by simp [hk]
    have hcast : (m : ℚ) = 2 * k := by exact_mod_cast hk
    simp only [ExtendedMantissa.shiftRightOne, hdiv, hbit]
    cases h with
    | exact m =>
      have hx : (m : ℚ) / 2 = k := by linarith
      exact hx ▸ .exact k
    | below hlow hhigh => exact .below (by linarith) (by linarith)
    | half m => exact .below (by linarith) (by linarith)
    | above hlow hhigh => exact .below (by linarith) (by linarith)
  · have hdiv : m / 2 = k := by omega
    have hbit : (m % 2 != 0) = true := by simp [hk]
    have hcast : (m : ℚ) = 2 * k + 1 := by exact_mod_cast hk
    simp only [ExtendedMantissa.shiftRightOne, hdiv, hbit]
    cases h with
    | exact m =>
      have hx : (m : ℚ) / 2 = k + 1 / 2 := by linarith
      exact hx ▸ .half k
    | below hlow hhigh => exact .above (by linarith) (by linarith)
    | half m => exact .above (by linarith) (by linarith)
    | above hlow hhigh => exact .above (by linarith) (by linarith)

theorem shiftRight (h : Represents em x) (n : Nat) : Represents (em >>> n) (x / 2 ^ n) := by
  change Represents (n.repeat ExtendedMantissa.shiftRightOne em) _
  induction n with
  | zero => simpa [Nat.repeat] using h
  | succ n ih =>
    rw [Nat.repeat, pow_succ, ← div_div]
    exact ih.shiftRightOne

/-- One half is rounded to the even integer. -/
theorem roundedMantissa_le (h : Represents em x) {n : Nat} (hle : x ≤ n + 1 / 2)
    (hodd : n % 2 = 1 → x < n + 1 / 2) : em.roundedMantissa ≤ n := by
  cases h with
  | exact m =>
    have hm : m < n + 1 := by exact_mod_cast (by linarith : (m : ℚ) < n + 1)
    exact Nat.le_of_lt_succ hm
  | @below m x hm hx =>
    have hm : m < n + 1 := by exact_mod_cast (by linarith : (m : ℚ) < n + 1)
    exact Nat.le_of_lt_succ hm
  | half m =>
    have hm : m ≤ n := by exact_mod_cast (by linarith : (m : ℚ) ≤ n)
    change m + m % 2 ≤ n
    rcases Nat.mod_two_eq_zero_or_one n with heven | hodd'
    · omega
    · have hm : m < n := by exact_mod_cast (by linarith [hodd hodd'] : (m : ℚ) < n)
      omega
  | @above m x hm hx =>
    have hm : m < n := by exact_mod_cast (by linarith : (m : ℚ) < n)
    exact hm

end Represents

theorem zpow_eq_div {b : ℚ} (hb : b ≠ 0) (e : Int) : b ^ e = b ^ e.toNat / b ^ (-e).toNat := by
  rw [← zpow_natCast, ← zpow_natCast, ← zpow_sub₀ hb]
  congr 1
  omega

theorem div_zpow_eq (v : ℚ) (e f : Int) : v / 2 ^ e = v / 2 ^ f * 2 ^ (f - e) := by
  rw [zpow_sub₀ (by norm_num), div_mul_div_cancel₀ (by positivity)]

theorem div_zpow_add (v : ℚ) (e : Int) (k : Nat) : v / 2 ^ (e + k) = v / 2 ^ e / 2 ^ k := by
  rw [zpow_add₀ (by norm_num), zpow_natCast, div_div]

/-- The number that a significand and an exponent stand for. -/
def value (x : Binary) : ℚ := x.significand * 2 ^ x.exponent

/-- A positive number of the format, with as many bits as its exponent leaves room for. -/
structure Canonical (x : Binary) : Prop where
  pos : 0 < x.significand
  lt : x.significand < 2 ^ 53
  low : -1074 ≤ x.exponent
  high : x.exponent ≤ 971
  full : -1074 < x.exponent → 2 ^ 52 ≤ x.significand

/-- How far below `x`, in units of its last place, numbers still round to it. -/
def reach (x : Binary) : ℚ := if x.narrowBelow then 1 / 4 else 1 / 2

/-- The numbers that are nearest to `x`, those in the middle of two only if `x` is even. -/
structure Near (x : Binary) (v : ℚ) : Prop where
  low : x.significand - x.reach ≤ v / 2 ^ x.exponent
  high : v / 2 ^ x.exponent ≤ x.significand + 1 / 2
  strict : x.significand % 2 = 1 →
    x.significand - x.reach < v / 2 ^ x.exponent ∧ v / 2 ^ x.exponent < x.significand + 1 / 2

/-- The numbers that are not nearer to what comes after `x`, the middle only if `x` is even. -/
structure Covers (x : Binary) (v : ℚ) : Prop where
  high : v / 2 ^ x.exponent ≤ x.significand + 1 / 2
  strict : x.significand % 2 = 1 → v / 2 ^ x.exponent < x.significand + 1 / 2

variable {x : Binary} {v w : ℚ}

theorem reach_le (x : Binary) : x.reach ≤ 1 / 2 := by
  unfold reach
  split <;> norm_num

theorem Near.covers (h : x.Near v) : x.Covers v := ⟨h.high, fun hodd => (h.strict hodd).2⟩

theorem Covers.mono (h : x.Covers v) (hle : w ≤ v) : x.Covers w := by
  have hunits : w / 2 ^ x.exponent ≤ v / 2 ^ x.exponent :=
    div_le_div_of_nonneg_right hle (by positivity)
  exact ⟨hunits.trans h.high, fun hodd => hunits.trans_lt (h.strict hodd)⟩

theorem near_value (x : Binary) : x.Near x.value := by
  have hunits : x.value / 2 ^ x.exponent = x.significand :=
    mul_div_cancel_right₀ _ (by positivity)
  have hreach : 0 < x.reach := by
    unfold reach
    split <;> norm_num
  constructor
  · linarith
  · linarith
  · exact fun _ => ⟨by linarith, by linarith⟩

theorem covers_of_le (h : v ≤ x.value) : x.Covers v := x.near_value.covers.mono h

theorem targetExponent_binary64 (e : Int) :
    Format.binary64.targetExponent e = max (e - 53) (-1074) :=
  rfl

theorem targetExponent_eq (m : Nat) (e : Int) :
    Format.binary64.targetExponent (totalExponent m e) = max (m.log2 + e - 52) (-1074) := by
  rw [targetExponent_binary64]
  unfold totalExponent
  omega

/-- A mantissa is not shifted where its exponent is the one of the format already. -/
theorem shiftToTargetExponent_of_lt {m : Nat} {e : Int} (hm : m < 2 ^ 53) (he : -1074 ≤ e) :
    shiftToTargetExponent .binary64 m e .exact = (⟨m, false, false⟩, e) := by
  have hlog : m.log2 ≤ 52 := by
    by_cases hzero : m = 0
    · simp [hzero]
    · have := (Nat.log2_lt hzero).mpr hm
      omega
  have hshift : (Format.binary64.targetExponent (totalExponent m e) - e).toNat = 0 := by
    rw [targetExponent_eq]
    omega
  rw [shiftToTargetExponent, shiftToExponent, hshift]
  exact Prod.ext rfl (by simp)

/-- A mantissa that rounding made one bit too long loses that bit. -/
theorem shiftToTargetExponent_carry {e : Int} (he : -1074 ≤ e) :
    shiftToTargetExponent .binary64 (2 ^ 53) e .exact = (⟨2 ^ 52, false, false⟩, e + 1) := by
  have hshift : (Format.binary64.targetExponent (totalExponent (2 ^ 53) e) - e).toNat = 1 := by
    rw [targetExponent_eq, Nat.log2_two_pow]
    omega
  rw [shiftToTargetExponent, shiftToExponent, hshift]
  rfl

theorem mantissa_ofMantissaAndAccuracy (m : Nat) (accuracy : Accuracy) :
    (ExtendedMantissa.ofMantissaAndAccuracy m accuracy).mantissa = m := by
  unfold ExtendedMantissa.ofMantissaAndAccuracy
  split <;> rfl

theorem finite_congr (sign : Sign) {m₁ m₂ : Nat} {e₁ e₂ : Int} {h₁ : 0 < m₁} {h₂ : 0 < m₂}
    (hm : m₁ = m₂) (he : e₁ = e₂) :
    UnpackedFloat.finite sign m₁ e₁ h₁ = .finite sign m₂ e₂ h₂ := by
  subst hm he
  rfl

/-- Zero, or a positive number of the format that is not larger than `bound`. -/
inductive IsAtMost (bound : ℚ) : UnpackedFloat → Prop where
  | zero : 0 ≤ bound → IsAtMost bound (.zero .positive)
  | finite {m : Nat} {e : Int} (hm : 0 < m) : m < 2 ^ 53 → -1074 ≤ e → (-1074 < e → 2 ^ 52 ≤ m) →
      (m * 2 ^ e : ℚ) ≤ bound → IsAtMost bound (.finite .positive m e hm)

section Round
variable {m : Nat} {e : Int} {accuracy : Accuracy}

/-- Shifted to the exponent of the format, a mantissa has room for all of its bits, and fills it
unless the exponent is the least. -/
theorem shifted_bounds
    (hm : Represents (.ofMantissaAndAccuracy m accuracy) (v / 2 ^ e)) {k : Nat}
    (hk : Format.binary64.targetExponent (totalExponent m e) = e + k) :
    v / 2 ^ (e + k) < 2 ^ 53 ∧ (-1074 < e + k → 2 ^ 52 ≤ v / 2 ^ (e + k)) := by
  have hbounds := hm.bounds
  rw [mantissa_ofMantissaAndAccuracy] at hbounds
  rw [targetExponent_eq] at hk
  rw [div_zpow_add, div_lt_iff₀ (by positivity), ← pow_add]
  constructor
  · have hroom : m + 1 ≤ 2 ^ (53 + k) :=
      Nat.lt_log2_self.trans_le (Nat.pow_le_pow_right (by decide) (by omega))
    have hcast : (m : ℚ) + 1 ≤ 2 ^ (53 + k) := by exact_mod_cast hroom
    linarith
  · intro hleast
    have hlog : m.log2 = 52 + k := by omega
    have hne : m ≠ 0 := by
      rintro rfl
      rw [Nat.log2_zero] at hlog
      omega
    have hfull : 2 ^ (52 + k) ≤ m := hlog ▸ Nat.log2_self_le hne
    have hcast : (2 : ℚ) ^ (52 + k) ≤ m := by exact_mod_cast hfull
    rw [le_div_iff₀ (by positivity), ← pow_add]
    linarith

/-- Rounding to an exponent of the format does not go beyond a number that covers `v`. -/
theorem roundedMantissa_bounds {em : ExtendedMantissa} {t : Int} (hx : x.Canonical)
    (hbits : 2 ^ 52 ≤ x.significand) (hv : x.Covers v) (hm : Represents em (v / 2 ^ t))
    (hlt : v / 2 ^ t < 2 ^ 53) (hfull : x.exponent < t → 2 ^ 52 ≤ v / 2 ^ t) :
    em.roundedMantissa ≤ 2 ^ 53 ∧ (em.roundedMantissa * 2 ^ t : ℚ) ≤ x.value := by
  have hroom : em.roundedMantissa ≤ 2 ^ 53 :=
    hm.roundedMantissa_le (by push_cast; linarith) fun _ => by push_cast; linarith
  refine ⟨hroom, ?_⟩
  rcases lt_trichotomy t x.exponent with hless | rfl | hmore
  · have hcast : (em.roundedMantissa : ℚ) ≤ 2 ^ 53 := by exact_mod_cast hroom
    have hsignificand : (2 : ℚ) ^ 52 ≤ x.significand := by exact_mod_cast hbits
    calc (em.roundedMantissa * 2 ^ t : ℚ) ≤ 2 ^ 53 * 2 ^ t :=
          mul_le_mul_of_nonneg_right hcast (by positivity)
      _ = 2 ^ 52 * 2 ^ (t + 1) := by
        rw [zpow_add_one₀ (by norm_num)]
        ring
      _ ≤ x.significand * 2 ^ x.exponent :=
        mul_le_mul hsignificand (zpow_le_zpow_right₀ (by norm_num) hless) (by positivity)
          (by positivity)
  · have hle := hm.roundedMantissa_le hv.high hv.strict
    have hcast : (em.roundedMantissa : ℚ) ≤ x.significand := by exact_mod_cast hle
    exact mul_le_mul_of_nonneg_right hcast (by positivity)
  · -- `v` would be as large as the next power of two, which `x` does not cover
    have hbig := hfull hmore
    have htwo : (2 : ℚ) ^ (1 : Int) ≤ 2 ^ (t - x.exponent) :=
      zpow_le_zpow_right₀ (by norm_num) (by omega)
    have hdouble : v / 2 ^ t * 2 ≤ v / 2 ^ x.exponent := by
      rw [div_zpow_eq v x.exponent t]
      exact mul_le_mul_of_nonneg_left (by simpa using htwo) (by linarith)
    have hlast : (x.significand : ℚ) + 1 ≤ 2 ^ 53 := by exact_mod_cast hx.lt
    linarith [hv.high]

/-- What a number of the format covers is not rounded beyond it. -/
theorem isAtMost_roundWithAccuracy (hx : x.Canonical) (hbits : 2 ^ 52 ≤ x.significand)
    (hm : Represents (.ofMantissaAndAccuracy m accuracy) (v / 2 ^ e))
    (he : e ≤ Format.binary64.targetExponent (totalExponent m e)) (hv : x.Covers v) :
    IsAtMost x.value (roundWithAccuracy .binary64 .positive m e accuracy) := by
  obtain ⟨k, hk⟩ := Int.le.dest he
  obtain ⟨hlt, hfull⟩ := shifted_bounds hm hk.symm
  have hleast : -1074 ≤ e + k := by
    rw [hk, targetExponent_eq]
    omega
  have hfirst : shiftToTargetExponent .binary64 m e accuracy =
      (ExtendedMantissa.ofMantissaAndAccuracy m accuracy >>> k, e + k) := by
    rw [shiftToTargetExponent, shiftToExponent, ← hk]
    simp
  have hshifted := hm.shiftRight k
  rw [← div_zpow_add] at hshifted
  generalize ExtendedMantissa.ofMantissaAndAccuracy m accuracy >>> k = em at hfirst hshifted
  obtain ⟨hroom, hvalue⟩ := roundedMantissa_bounds hx hbits hv hshifted hlt fun hmore =>
    hfull (by have := hx.low; omega)
  have hlarge : -1074 < e + k → 2 ^ 52 ≤ em.roundedMantissa := by
    intro hnormal
    have hbelow : 2 ^ 52 < em.mantissa + 1 := by
      exact_mod_cast (hfull hnormal).trans_lt hshifted.bounds.2
    exact (Nat.le_of_lt_succ hbelow).trans (mantissa_le_roundedMantissa em)
  unfold roundWithAccuracy
  rw [hfirst]
  dsimp only
  generalize em.roundedMantissa = n at *
  rcases Nat.lt_or_eq_of_le hroom with hshort | rfl
  · rw [shiftToTargetExponent_of_lt hshort hleast]
    dsimp only
    by_cases hzero : n = 0
    · rw [dif_pos hzero]
      exact .zero (mul_nonneg (Nat.cast_nonneg _) (by positivity))
    · rw [dif_neg hzero]
      exact .finite _ hshort hleast hlarge hvalue
  · rw [shiftToTargetExponent_carry hleast]
    dsimp only
    rw [dif_neg (by decide)]
    refine .finite _ (by decide) (by omega) (fun _ => le_rfl) (le_of_eq_of_le ?_ hvalue)
    rw [zpow_add_one₀ (by norm_num)]
    push_cast
    ring

end Round
end FeatureSql.Binary
