import FeatureSql.Json.Reader
import FeatureSql.Proofs.Binary.Arithmetic
import FeatureSql.Proofs.Binary.Shortest
import Mathlib.Tactic.MkIffOfInductiveProp

/-! Significands that are scaled by powers of ten. The results are finite, and there is one wherever
the exact product stays half a place below the largest number. -/

set_option autoImplicit false

namespace FeatureSql.Json

open Binary (ofBits IsUnsigned IsUpTo largest)

/-- The largest number, less half of its last place. -/
def scaleLimit : Nat := (2 ^ 54 - 3) * 2 ^ 970

theorem scaleLimit_lt : scaleLimit < 10 ^ (largestPower + 1) := by decide +kernel

/-- The largest significand that fits a word and stays within the limit. -/
def scaleCap (exponent : Nat) : Nat := min (UInt64.size - 1) (scaleLimit / 10 ^ exponent)

def powerBinary (exponent : Nat) : Binary := ofBits (powerOfTen exponent).toBits

def capBinary (exponent : Nat) : Binary := ofBits (scaleCap exponent).toUInt64.toFloat.toBits

/-- What a power of ten does to the numbers up to its cap. -/
@[mk_iff]
structure Scales (exponent : Nat) : Prop where
  unsigned : IsUnsigned (powerOfTen exponent).toBits
  full : 2 ^ 52 ≤ (powerBinary exponent).significand
  low : -52 ≤ (powerBinary exponent).exponent
  capUnsigned : IsUnsigned (scaleCap exponent).toUInt64.toFloat.toBits
  capFull : 2 ^ 52 ≤ (capBinary exponent).significand
  capRead : (capBinary exponent).readsBack ⟨scaleCap exponent, 0⟩ = true
  product : (capBinary exponent).significand * (powerBinary exponent).significand *
    2 ^ ((capBinary exponent).exponent + (powerBinary exponent).exponent).toNat ≤
      largest.significand * 2 ^ largest.exponent.toNat

instance : DecidablePred Scales := fun exponent => decidable_of_iff' _ (scales_iff exponent)

/-- The powers of ten are closed terms. -/
theorem scales_fin : ∀ exponent : Fin (largestPower + 1), Scales exponent := by decide +kernel

theorem scales {exponent : Nat} (h : exponent ≤ largestPower) : Scales exponent :=
  scales_fin ⟨exponent, Nat.lt_succ_of_le h⟩

namespace Scales
variable {exponent : Nat} (h : Scales exponent)
include h

theorem one_le : 1 ≤ (powerBinary exponent).value := by
  have hfull : (2 : ℚ) ^ 52 ≤ (powerBinary exponent).significand := by exact_mod_cast h.full
  calc (1 : ℚ) = 2 ^ 52 * 2 ^ (-52 : Int) := by norm_num
    _ ≤ (powerBinary exponent).significand * 2 ^ (powerBinary exponent).exponent :=
      mul_le_mul hfull (zpow_le_zpow_right₀ (by norm_num) h.low) (by positivity) (by positivity)

theorem canonical_cap : (capBinary exponent).Canonical :=
  Binary.canonical_ofBits h.capUnsigned.isFinite
    (Nat.ne_of_gt (Nat.lt_of_lt_of_le (by positivity) h.capFull))

/-- What does not exceed the cap becomes a number that does not either. -/
theorem isUpTo_toFloat {significand : Nat} (hcap : significand ≤ scaleCap exponent) :
    IsUpTo (capBinary exponent).value significand.toUInt64.toFloat := by
  have hword : significand < UInt64.size :=
    Nat.lt_of_le_of_lt (hcap.trans (Nat.min_le_left _ _)) (by decide)
  have hnear := Binary.near_of_readsBack h.canonical_cap h.capRead
  have hvalue : (⟨scaleCap exponent, 0⟩ : Decimal).value = scaleCap exponent := mul_one _
  refine Binary.isUpTo_toFloat h.canonical_cap h.capFull hword (hnear.covers.mono ?_)
  rw [hvalue]
  exact Nat.cast_le.mpr hcap

end Scales

/-- Within the limit there is a result. -/
theorem exists_scale? {significand exponent : Nat} (hword : significand < UInt64.size)
    (hlimit : significand * 10 ^ exponent ≤ scaleLimit) :
    ∃ value, scale? significand exponent = some value := by
  unfold scale?
  dsimp only
  rw [if_neg (by omega)]
  by_cases hpower : exponent ≤ largestPower
  · have hcap : significand ≤ scaleCap exponent :=
      Nat.le_min.mpr ⟨Nat.le_pred_of_lt hword, (Nat.le_div_iff_mul_le (by positivity)).mpr hlimit⟩
    have hproduct := Binary.isUpTo_mul ((scales hpower).isUpTo_toFloat hcap)
      ⟨(scales hpower).unsigned, le_rfl⟩ (scales hpower).full
        (Binary.mul_value_le (by decide) (scales hpower).product)
    rw [if_pos (by exact_mod_cast hpower), Int.toNat_natCast,
      Binary.isInf_of_isUnsigned hproduct.unsigned]
    exact ⟨_, rfl⟩
  · have hzero : significand = 0 := by
      by_contra hne
      refine absurd hlimit (Nat.not_le.mpr ?_)
      calc scaleLimit < 10 ^ (largestPower + 1) := scaleLimit_lt
        _ ≤ 10 ^ exponent := Nat.pow_le_pow_right (by decide) (Nat.lt_of_not_le hpower)
        _ ≤ significand * 10 ^ exponent := Nat.le_mul_of_pos_left _ (Nat.pos_of_ne_zero hne)
    rw [if_neg (by exact_mod_cast hpower), if_pos hzero]
    exact ⟨_, rfl⟩

section Finite
variable {value : Float}

theorem isUpTo_word {significand : Nat} (hword : significand < UInt64.size) :
    IsUpTo largest.value significand.toUInt64.toFloat := by
  have hzero := scales (Nat.zero_le largestPower)
  have hcap : significand ≤ scaleCap 0 := (Nat.le_pred_of_lt hword).trans (by decide +kernel)
  have hvalue := hzero.isUpTo_toFloat hcap
  exact ⟨hvalue.unsigned, hvalue.le.trans hzero.canonical_cap.value_le⟩

theorem isUpTo_scaleDown (h : IsUpTo largest.value value) (times : Nat) :
    IsUpTo largest.value (scaleDown value times) := by
  induction times generalizing value with
  | zero => exact h
  | succ times ih =>
    rw [scaleDown]
    split
    · exact h
    · exact ih (Binary.isUpTo_div h (scales le_rfl).unsigned (scales le_rfl).one_le)

/-- Every result is finite. -/
theorem isUnsigned_of_scale? {significand : Nat} (hword : significand < UInt64.size) {exponent : Int}
    (h : scale? significand exponent = some value) : IsUnsigned value.toBits := by
  have hsignificand := isUpTo_word hword
  unfold scale? at h
  dsimp only at h
  split at h
  · next hneg =>
    have hpower : exponent.natAbs - (exponent.natAbs - 1) / largestPower * largestPower ≤
        largestPower := by
      have := Nat.div_add_mod (exponent.natAbs - 1) largestPower
      have := Nat.mod_lt (exponent.natAbs - 1) (show 0 < largestPower by decide)
      unfold largestPower at *
      omega
    obtain rfl := Option.some.inj h
    exact (Binary.isUpTo_div (isUpTo_scaleDown hsignificand _) (scales hpower).unsigned
      (scales hpower).one_le).unsigned
  · split at h
    · next hpower =>
      split at h
      · cases h
      · next hinf =>
        obtain rfl := Option.some.inj h
        exact Binary.isUnsigned_mul hsignificand.unsigned (scales (by omega)).unsigned
          (by simpa using hinf)
    · split at h
      · exact Option.some.inj h ▸ hsignificand.unsigned
      · cases h

end Finite
end FeatureSql.Json
