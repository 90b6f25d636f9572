import FeatureSql.Proofs.Binary.Rounding

/-! The bits of positive numbers of the format: the core unpacks them to what they are read as, and
what it packs is read as what it was. -/

set_option autoImplicit false

namespace FeatureSql.Binary

open Float.Model (Format UnpackedFloat)
open Float.Model.UnpackedFloat

theorem toNat_packComponents (e : BitVec 11) (m : BitVec 52) :
    (packComponents .binary64 .positive e m).toNat = e.toNat * 2 ^ 52 + m.toNat := by
  unfold packComponents
  rw [BitVec.toNat_append, BitVec.toNat_append, ← Nat.shiftLeft_add_eq_or_of_lt m.isLt,
    ← Nat.shiftLeft_add_eq_or_of_lt e.isLt]
  simp [Sign.toBitVec, Nat.shiftLeft_eq]

theorem unpackSign_packComponents (e : BitVec 11) (m : BitVec 52) :
    Sign.ofBitVec (unpackSign (packComponents .binary64 .positive e m)) = .positive := by
  have hzero : unpackSign (packComponents .binary64 .positive e m) = 0#1 := by
    apply BitVec.eq_of_toNat_eq
    unfold unpackSign
    rw [BitVec.toNat_cast, BitVec.extractLsb_toNat, toNat_packComponents,
      Nat.shiftRight_eq_div_pow]
    have he := e.isLt
    have hm := m.isLt
    change (e.toNat * 2 ^ 52 + m.toNat) / 2 ^ 63 % 2 = 0
    omega
  rw [hzero]
  rfl

/-- With an exponent, the first bit is added. -/
theorem unpack_full {e : BitVec 11} (hfirst : e ≠ 0#11) (hlast : e ≠ -1#11) (m : BitVec 52) :
    unpack .binary64 (packComponents .binary64 .positive e m) =
      .finite .positive (2 ^ 52 + m.toNat) (e.toNat - 1075)
        (Nat.add_pos_left (Nat.two_pow_pos 52) _) := by
  have hmantissa : (1#1 ++ m).toNat = 2 ^ 52 + m.toNat := by
    rw [BitVec.toNat_append, ← Nat.shiftLeft_add_eq_or_of_lt m.isLt]
    rfl
  unfold unpack
  dsimp only
  rw [unpackExponent_packComponents, if_neg hlast, if_neg hfirst, unpackSign_packComponents]
  refine finite_congr _ ?_ rfl
  simpa only [unpackMantissa_packComponents] using hmantissa

theorem unpack_small {m : BitVec 52} (hm : 0 < m.toNat) :
    unpack .binary64 (packComponents .binary64 .positive 0#11 m) =
      .finite .positive m.toNat (-1074) hm := by
  have hmantissa : unpackMantissa (packComponents .binary64 .positive 0#11 m) = m :=
    unpackMantissa_packComponents
  have hzero : unpackMantissa (packComponents .binary64 .positive 0#11 m) ≠ 0#52 := by
    rw [hmantissa]
    rintro rfl
    exact absurd hm (by decide)
  unfold unpack
  dsimp only
  rw [unpackExponent_packComponents, if_neg (by decide), if_pos rfl, dif_neg hzero,
    unpackSign_packComponents]
  exact finite_congr _ (congrArg BitVec.toNat hmantissa) rfl

section Pack
variable {m : Nat} (hm : 0 < m)
include hm

/-- All bits are kept but the first, and the exponent tells that there is one. -/
theorem pack_full {b : Nat} (hfull : 2 ^ 52 ≤ m) (hlt : m < 2 ^ 53) (hb : b < 2047) :
    pack .binary64 (.finite .positive m (b - 1075) hm) =
      packComponents .binary64 .positive (BitVec.ofNat 11 b) (BitVec.ofNat 52 m) := by
  have hlog : m.log2 = 52 := (Nat.log2_eq_iff hm.ne').mpr ⟨hfull, hlt⟩
  have hbiased : ((b : Int) - 1075 + Format.binary64.exponentBias +
      Format.binary64.mantissaBitsWithoutImplicit).toNat = b := by
    change ((b : Int) - 1075 + 1023 + 52).toNat = b
    omega
  have hfinite : ¬ 2 ^ Format.binary64.exponentBits ≤ b + 1 := by
    change ¬ 2 ^ 11 ≤ b + 1
    omega
  have hnormal : m.log2 + 1 = Format.binary64.mantissaBits := by
    rw [hlog]
    rfl
  unfold pack
  dsimp only
  rw [hbiased, if_neg hfinite, if_pos hnormal]

/-- Below the least exponent the first bits are zeros. -/
theorem pack_small (hlt : m < 2 ^ 52) :
    pack .binary64 (.finite .positive m (-1074) hm) =
      packComponents .binary64 .positive 0 (BitVec.ofNat 52 m) := by
  have hlog : m.log2 < 52 := (Nat.log2_lt hm.ne').mpr hlt
  have hsubnormal : m.log2 + 1 ≠ Format.binary64.mantissaBits := by
    change m.log2 + 1 ≠ 53
    omega
  unfold pack
  dsimp only
  rw [if_neg (by decide), if_neg hsubnormal]
  rfl

end Pack

/-- Neither a negative number nor none at all. -/
def IsPositive : UnpackedFloat → Prop
  | .notANumber => False
  | .infinity sign | .zero sign | .finite sign _ _ _ => sign = .positive

theorem isPositive_roundWithAccuracy (m : Nat) (e : Int) (accuracy : Accuracy) :
    IsPositive (roundWithAccuracy .binary64 .positive m e accuracy) := by
  unfold roundWithAccuracy
  dsimp only
  generalize shiftToTargetExponent .binary64 _ _ .exact = carried
  by_cases hzero : carried.1.mantissa = 0
  · rw [dif_pos hzero]
    rfl
  · rw [dif_neg hzero]
    rfl

/-- No positive result lies beyond infinity. -/
theorem toNat_pack_le {result : UnpackedFloat} (h : IsPositive result) :
    (pack .binary64 result).toNat ≤ 0x7FF0000000000000 := by
  cases result with
  | notANumber => exact h.elim
  | infinity sign =>
    obtain rfl : sign = .positive := h
    decide
  | zero sign =>
    obtain rfl : sign = .positive := h
    decide
  | finite sign m e hm =>
    obtain rfl : sign = .positive := h
    unfold pack
    dsimp only
    split
    · decide
    · next hfinite =>
      change ¬ 2 ^ 11 ≤ (e + 1023 + 52).toNat + 1 at hfinite
      split
      · rw [toNat_packComponents]
        have := (BitVec.ofNat 52 m).isLt
        rw [BitVec.toNat_ofNat]
        change (e + 1023 + 52).toNat % 2 ^ 11 * 2 ^ 52 + _ ≤ _
        omega
      · rw [toNat_packComponents]
        have := (BitVec.ofNat 52 m).isLt
        rw [BitVec.toNat_zero]
        omega

/-- Neither an infinity nor no number at all. -/
def IsFinite (bits : UInt64) : Prop := bits.toNat / 2 ^ 52 % 2 ^ 11 < 2047

section OfBits
variable {bits : UInt64}

theorem ofBits_of_small (h : bits.toNat / 2 ^ 52 % 2 ^ 11 = 0) :
    ofBits bits = ⟨bits.toNat % 2 ^ 52, -1074, false⟩ :=
  if_pos h

theorem ofBits_of_full (h : bits.toNat / 2 ^ 52 % 2 ^ 11 ≠ 0) :
    ofBits bits = ⟨2 ^ 52 + bits.toNat % 2 ^ 52, (bits.toNat / 2 ^ 52 % 2 ^ 11 : Nat) - 1075,
      bits.toNat % 2 ^ 52 = 0 && 1 < bits.toNat / 2 ^ 52 % 2 ^ 11⟩ :=
  if_neg h

theorem canonical_ofBits (hfinite : IsFinite bits) (hne : (ofBits bits).significand ≠ 0) :
    (ofBits bits).Canonical := by
  unfold IsFinite at hfinite
  by_cases hexponent : bits.toNat / 2 ^ 52 % 2 ^ 11 = 0
  · rw [ofBits_of_small hexponent] at hne ⊢
    dsimp only at hne
    constructor <;> dsimp only <;> omega
  · rw [ofBits_of_full hexponent]
    constructor <;> dsimp only <;> omega

/-- The largest number of the format. -/
def largest : Binary := ofBits 0x7FEFFFFFFFFFFFFF

theorem canonical_largest : largest.Canonical := canonical_ofBits (show _ < _ by decide) (by decide)

/-- The bits of a finite number without a sign. -/
def IsUnsigned (bits : UInt64) : Prop := bits.toNat < 0x7FF0000000000000

instance : DecidablePred IsUnsigned := fun bits => Nat.decLt bits.toNat 0x7FF0000000000000

theorem IsUnsigned.isFinite (h : IsUnsigned bits) : IsFinite bits := by
  unfold IsUnsigned at h
  unfold IsFinite
  omega

/-- Bits without a sign are unpacked to zero, or to the number that they are read as. -/
theorem unpack_of_isUnsigned (h : IsUnsigned bits) :
    ((ofBits bits).significand = 0 ∧ unpack .binary64 bits.toBitVec = .zero .positive) ∨
      ∃ hpos : 0 < (ofBits bits).significand, unpack .binary64 bits.toBitVec =
        .finite .positive (ofBits bits).significand (ofBits bits).exponent hpos := by
  unfold IsUnsigned at h
  have hexponent : (BitVec.ofNat 11 (bits.toNat / 2 ^ 52)).toNat = bits.toNat / 2 ^ 52 % 2 ^ 11 :=
    BitVec.toNat_ofNat _ _
  have hmantissa : (BitVec.ofNat 52 bits.toNat).toNat = bits.toNat % 2 ^ 52 := BitVec.toNat_ofNat _ _
  have hbits : bits.toBitVec = packComponents .binary64 .positive
      (BitVec.ofNat 11 (bits.toNat / 2 ^ 52)) (BitVec.ofNat 52 bits.toNat) := by
    apply BitVec.eq_of_toNat_eq
    rw [toNat_packComponents, hexponent, hmantissa]
    change bits.toNat = _
    omega
  rw [hbits]
  generalize BitVec.ofNat 11 (bits.toNat / 2 ^ 52) = e at *
  generalize BitVec.ofNat 52 bits.toNat = m at *
  by_cases hsmall : e = 0#11
  · subst hsmall
    rw [ofBits_of_small hexponent.symm, ← hmantissa]
    by_cases hzero : m = 0#52
    · subst hzero
      exact Or.inl ⟨rfl, rfl⟩
    · have hpos : 0 < m.toNat := Nat.pos_of_ne_zero fun h => hzero (BitVec.eq_of_toNat_eq h)
      exact Or.inr ⟨hpos, unpack_small hpos⟩
  · have hne : bits.toNat / 2 ^ 52 % 2 ^ 11 ≠ 0 := fun h =>
      hsmall (BitVec.eq_of_toNat_eq (hexponent.trans h))
    have hfinite : e ≠ -1#11 := by
      rintro rfl
      change 2047 = _ at hexponent
      omega
    rw [ofBits_of_full hne, ← hmantissa, ← hexponent]
    exact Or.inr ⟨by positivity, unpack_full hsmall hfinite m⟩

end OfBits

theorem exponent_le {m : Nat} {e : Int} (hfull : 2 ^ 52 ≤ m)
    (h : (m * 2 ^ e : ℚ) ≤ largest.value) : e ≤ 971 := by
  by_contra hlarge
  have hcast : (2 : ℚ) ^ (52 : Int) ≤ m := by exact_mod_cast hfull
  have hlast : (largest.significand : ℚ) < 2 ^ (53 : Int) := by exact_mod_cast canonical_largest.lt
  refine absurd h (not_le.mpr ?_)
  calc largest.value < 2 ^ (53 : Int) * 2 ^ (971 : Int) :=
        mul_lt_mul_of_pos_right hlast (by positivity)
    _ = 2 ^ (52 : Int) * 2 ^ (972 : Int) :=
      (zpow_add₀ (by norm_num) 53 971).symm.trans (zpow_add₀ (by norm_num) 52 972)
    _ ≤ m * 2 ^ e :=
      mul_le_mul hcast (zpow_le_zpow_right₀ (by norm_num) (by omega)) (by positivity) (by positivity)

section Packed
variable {m : Nat} (hm : 0 < m)

theorem toNat_pack_full {b : Nat} (hfull : 2 ^ 52 ≤ m) (hlt : m < 2 ^ 53) (hb : b < 2047) :
    (UInt64.ofBitVec (pack .binary64 (.finite .positive m (b - 1075) hm))).toNat =
      b * 2 ^ 52 + m % 2 ^ 52 := by
  change (pack .binary64 _).toNat = _
  rw [pack_full hm hfull hlt hb, toNat_packComponents, BitVec.toNat_ofNat, BitVec.toNat_ofNat,
    Nat.mod_eq_of_lt (show b < 2 ^ 11 by omega)]

theorem toNat_pack_small (hlt : m < 2 ^ 52) :
    (UInt64.ofBitVec (pack .binary64 (.finite .positive m (-1074) hm))).toNat = m := by
  change (pack .binary64 _).toNat = _
  rw [pack_small hm hlt, toNat_packComponents, BitVec.toNat_ofNat, Nat.mod_eq_of_lt hlt]
  exact Nat.zero_add m

end Packed

/-- What is packed is read as what it was. -/
theorem isUnsigned_pack {bound : ℚ} {result : UnpackedFloat} (h : IsAtMost bound result)
    (hbound : bound ≤ largest.value) :
    IsUnsigned (UInt64.ofBitVec (pack .binary64 result)) ∧
      (ofBits (UInt64.ofBitVec (pack .binary64 result))).value ≤ bound := by
  unfold IsUnsigned
  cases h with
  | zero h => exact ⟨by decide, (zero_mul _).trans_le h⟩
  | @finite m e hm hlt hleast hfull hle =>
    by_cases hbits : 2 ^ 52 ≤ m
    · have hhigh := exponent_le hbits (hle.trans hbound)
      obtain ⟨b, rfl⟩ : ∃ b : Nat, e = b - 1075 := ⟨(e + 1075).toNat, by omega⟩
      have hpack := toNat_pack_full hm (b := b) hbits hlt (by omega)
      generalize UInt64.ofBitVec (pack .binary64 _) = bits at *
      have hexponent : bits.toNat / 2 ^ 52 % 2 ^ 11 = b := by omega
      refine ⟨by omega, le_of_eq_of_le ?_ hle⟩
      rw [ofBits_of_full (by omega), hexponent, show bits.toNat % 2 ^ 52 = m - 2 ^ 52 by omega]
      change ((2 ^ 52 + (m - 2 ^ 52) : Nat) * 2 ^ (b - 1075 : Int) : ℚ) = _
      rw [Nat.add_sub_cancel' hbits]
    · obtain rfl : e = -1074 := by
        by_contra hne
        exact hbits (hfull (by omega))
      have hpack := toNat_pack_small hm (by omega)
      generalize UInt64.ofBitVec (pack .binary64 _) = bits at *
      refine ⟨by omega, le_of_eq_of_le ?_ hle⟩
      rw [ofBits_of_small (by omega), Nat.mod_eq_of_lt (by omega), hpack]
      rfl

end FeatureSql.Binary
