import FeatureSql.Proofs.Json.Scale
import FeatureSql.Proofs.Json.Text

/-! Floating-point numbers read from their text. Reading is not exact, so that another number may come
of it, but one always does: no number's shortest text lies beyond what is scaled. -/

set_option autoImplicit false

namespace FeatureSql.Json

open Binary (ofBits IsFinite IsUnsigned largest)
open Numeral (IsDigits IsExponent)

/-- The sign bit and the others, put together. -/
theorem toNat_or_sign (negative : Bool) {bits : UInt64} (h : bits.toNat < 2 ^ 63) :
    ((if negative then 0x8000000000000000 else 0 : UInt64) ||| bits).toNat =
      (if negative then 2 ^ 63 else 0) + bits.toNat := by
  cases negative with
  | false => simp
  | true =>
    rw [if_pos rfl, if_pos rfl, UInt64.toNat_or]
    exact (Nat.two_pow_add_eq_or_of_lt h 1).symm

section Double
variable {negative : Bool} {significand : Nat} (hword : significand < UInt64.size)
include hword

/-- What is read for a decimal is finite. -/
theorem isFinite_of_doubleOf? {exponent : Int} {bits : UInt64}
    (h : doubleOf? negative significand exponent = some bits) : IsFinite bits := by
  obtain ⟨value, hscale, rfl⟩ := Option.map_eq_some_iff.mp h
  have hunsigned := isUnsigned_of_scale? hword hscale
  unfold IsUnsigned at hunsigned
  rw [IsFinite, toNat_or_sign negative (by omega)]
  cases negative <;> simp <;> omega

/-- Within the limit something is read. -/
theorem exists_doubleOf? (negative : Bool) {exponent : Int}
    (hlimit : (significand * 10 ^ exponent : ℚ) ≤ scaleLimit) :
    ∃ bits, doubleOf? negative significand exponent = some bits := by
  obtain ⟨value, hvalue⟩ : ∃ value, scale? significand exponent = some value := by
    by_cases hneg : exponent < 0
    · exact ⟨_, if_pos hneg⟩
    · obtain ⟨e, rfl⟩ := Int.eq_ofNat_of_zero_le (Int.not_lt.mp hneg)
      rw [zpow_natCast] at hlimit
      exact exists_scale? hword (by exact_mod_cast hlimit)
  exact ⟨_, Option.map_eq_some_iff.mpr ⟨value, hvalue, rfl⟩⟩

end Double

section Digits

theorem takeDigits_lt {significand : Nat} (h : significand < UInt64.size) (digits : List Char) :
    (takeDigits significand digits).1 < UInt64.size := by
  induction digits generalizing significand with
  | nil => exact h
  | cons c cs ih =>
    rw [takeDigits]
    split
    · next hnext => exact ih hnext
    · exact h

/-- Digits that are passed over only make a number larger. -/
theorem takeDigits_le (significand : Nat) (digits : List Char) :
    (takeDigits significand digits).2 ≤ digits.length ∧
      (takeDigits significand digits).1 * 10 ^ (takeDigits significand digits).2 ≤
        Nat.ofDigitChars 10 digits significand := by
  induction digits generalizing significand with
  | nil => simp [takeDigits]
  | cons c cs ih =>
    rw [takeDigits]
    split
    · obtain ⟨hlength, hle⟩ := ih (10 * significand + (c.toNat - '0'.toNat))
      rw [Nat.ofDigitChars_cons]
      exact ⟨Nat.le_succ_of_le hlength, hle⟩
    · refine ⟨le_rfl, ?_⟩
      rw [Nat.ofDigitChars_eq_ofDigitChars_zero, Nat.mul_comm]
      exact Nat.le_add_right _ _

/-- What fits a word is taken whole. -/
theorem takeDigits_of_lt {significand : Nat} {digits : List Char}
    (h : Nat.ofDigitChars 10 digits significand < UInt64.size) :
    takeDigits significand digits = (Nat.ofDigitChars 10 digits significand, 0) := by
  induction digits generalizing significand with
  | nil => rw [takeDigits, Nat.ofDigitChars_nil]
  | cons c cs ih =>
    rw [Nat.ofDigitChars_cons] at h
    have hnext : 10 * significand + (c.toNat - '0'.toNat) < UInt64.size := by
      refine Nat.lt_of_le_of_lt ?_ h
      rw [Nat.ofDigitChars_eq_ofDigitChars_zero]
      exact (Nat.le_mul_of_pos_left _ (by positivity)).trans (Nat.le_add_right _ _)
    rw [takeDigits, Nat.ofDigitChars_cons, if_pos hnext, ih h]

theorem natOfDigits_lt {digits : List Char} (h : ∀ c ∈ digits, c.isDigit = true) :
    natOfDigits digits < 10 ^ digits.length := by
  induction digits with
  | nil => decide
  | cons c cs ih =>
    obtain ⟨hc, hcs⟩ := List.forall_mem_cons.mp h
    have hdigit : c.toNat - '0'.toNat ≤ 9 :=
      Nat.sub_le_sub_right (Char.isDigit_iff_toNat.mp hc).2 '0'.toNat
    have hrest : Nat.ofDigitChars 10 cs 0 < 10 ^ cs.length := ih hcs
    have hfirst := Nat.mul_le_mul_left (10 ^ cs.length) hdigit
    rw [natOfDigits, Nat.ofDigitChars_cons, Nat.ofDigitChars_eq_ofDigitChars_zero, List.length_cons,
      Nat.pow_succ, Nat.mul_zero, Nat.zero_add]
    omega

end Digits

theorem scientificOf_lt (n : Numeral) : (scientificOf n).1 < UInt64.size :=
  takeDigits_lt (takeDigits_lt (by decide) n.whole) n.fraction

theorem exponentText_toList (e : Int) : (Number.exponentText e).toList =
    'e' :: (if e < 0 then '-' else '+') :: e.natAbs.repr.toList := by
  unfold Number.exponentText
  split <;> simp

theorem isExponent_exponentText (e : Int) : IsExponent (Number.exponentText e).toList := by
  refine ⟨'e', [if e < 0 then '-' else '+'], e.natAbs.repr.toList, Or.inl rfl, ?_,
    Numeral.isDigits_repr _, exponentText_toList e⟩
  split <;> simp

theorem exponentValue_exponentText (e : Int) :
    exponentValue (Number.exponentText e).toList = e := by
  rw [exponentText_toList]
  split
  · change -(natOfDigits e.natAbs.repr.toList : Int) = e
    rw [Numeral.natOfDigits_repr]
    omega
  · change (natOfDigits e.natAbs.repr.toList : Int) = e
    rw [Numeral.natOfDigits_repr]
    omega

/-- A numeral that is no integer and stands for a decimal. In front of the point it is short enough
for a word. -/
structure Denotes (n : Numeral) (d : Decimal) : Prop where
  wellFormed : n.WellFormed
  whole : IsWhole n.whole
  short : n.whole.length ≤ 16
  pointed : n.fraction ≠ [] ∨ n.exponent ≠ []
  value : (natOfDigits (n.whole ++ n.fraction) *
    10 ^ (exponentValue n.exponent - n.fraction.length) : ℚ) = d.value

section Decimal
variable {d : Decimal} (hd : d.digits ≠ 0) (negative : Bool)

theorem isDigits_toDigits (n : Nat) : IsDigits (Nat.toDigits 10 n) :=
  Nat.toList_repr ▸ Numeral.isDigits_repr n

theorem natOfDigits_toDigits (n : Nat) : natOfDigits (Nat.toDigits 10 n) = n :=
  Nat.ofDigitChars_ten_toDigits

include hd in
/-- The point may stand behind any digit but the last, or an exponent behind them all. -/
theorem denotes_split {w : Nat} (hw : 0 < w) (hshort : w ≤ 16) {exponent : List Char}
    (hexponent : exponent = [] ∨ IsExponent exponent)
    (hpointed : w < (Nat.toDigits 10 d.digits).length ∨ exponent ≠ [])
    (hvalue : exponentValue exponent - ((Nat.toDigits 10 d.digits).length - w : Nat) = d.exponent) :
    Denotes {
      negative, exponent
      whole := (Nat.toDigits 10 d.digits).take w
      fraction := (Nat.toDigits 10 d.digits).drop w } d := by
  obtain ⟨hne, hall⟩ := isDigits_toDigits d.digits
  have hhead := head?_toDigits hd
  have htake : (Nat.toDigits 10 d.digits).take w ≠ [] := by
    simp [hw.ne', hne]
  refine ⟨⟨⟨htake, fun c hc => hall c (List.mem_of_mem_take hc)⟩, ?_, hexponent⟩, Or.inr ?_,
    (List.length_take_le w _).trans hshort, ?_, ?_⟩
  · by_cases hdrop : (Nat.toDigits 10 d.digits).drop w = []
    · exact Or.inl hdrop
    · exact Or.inr ⟨hdrop, fun c hc => hall c (List.mem_of_mem_drop hc)⟩
  · rwa [List.head?_take, if_neg hw.ne']
  · exact hpointed.imp (fun h => by simpa using h) id
  · dsimp only
    rw [List.take_append_drop, natOfDigits_toDigits, List.length_drop, hvalue]
    rfl

/-- Below one, zeros stand between the point and the digits. -/
theorem denotes_below {zeros : Nat}
    (hzeros : -((zeros + (Nat.toDigits 10 d.digits).length : Nat) : Int) = d.exponent) :
    Denotes {
      negative
      whole := ['0']
      fraction := List.replicate zeros '0' ++ Nat.toDigits 10 d.digits
      exponent := [] } d := by
  obtain ⟨hne, hall⟩ := isDigits_toDigits d.digits
  have hfraction : List.replicate zeros '0' ++ Nat.toDigits 10 d.digits ≠ [] := by simp [hne]
  refine ⟨⟨by simp [IsDigits], Or.inr ⟨hfraction, fun c hc => ?_⟩, Or.inl rfl⟩, Or.inl rfl,
    show 1 ≤ 16 by decide, Or.inl hfraction, ?_⟩
  · rcases List.mem_append.mp hc with hc | hc
    · rw [List.eq_of_mem_replicate hc]
      rfl
    · exact hall c hc
  · have hdigits : natOfDigits (['0'] ++ (List.replicate zeros '0' ++ Nat.toDigits 10 d.digits)) =
        d.digits := by
      rw [natOfDigits, Nat.ofDigitChars_append, Nat.ofDigitChars_append]
      change Nat.ofDigitChars 10 _ (Nat.ofDigitChars 10 (List.replicate zeros '0') 0) = _
      rw [Nat.ofDigitChars_replicate_zero, Nat.mul_zero]
      exact natOfDigits_toDigits d.digits
    dsimp only
    rw [hdigits, List.length_append, List.length_replicate, exponentValue, zero_sub, hzeros]
    rfl

include hd in
/-- An integer gets the zeros that its exponent stands for, and one behind the point. -/
theorem denotes_integer {zeros : Nat} (hzeros : (zeros : Int) = d.exponent)
    (hshort : (Nat.toDigits 10 d.digits).length + zeros ≤ 16) :
    Denotes {
      negative
      whole := Nat.toDigits 10 d.digits ++ List.replicate zeros '0'
      fraction := ['0']
      exponent := [] } d := by
  obtain ⟨hne, hall⟩ := isDigits_toDigits d.digits
  refine ⟨⟨⟨by simp [hne], fun c hc => ?_⟩, Or.inr (by simp [IsDigits]), Or.inl rfl⟩, Or.inr ?_,
    by simpa using hshort, Or.inl (by simp), ?_⟩
  · rcases List.mem_append.mp hc with hc | hc
    · exact hall c hc
    · rw [List.eq_of_mem_replicate hc]
      rfl
  · rw [List.head?_append_of_ne_nil _ hne]
    exact head?_toDigits hd
  · have hdigits : natOfDigits (Nat.toDigits 10 d.digits ++ List.replicate zeros '0' ++ ['0']) =
        d.digits * 10 ^ (zeros + 1) := by
      rw [natOfDigits, Nat.ofDigitChars_append, Nat.ofDigitChars_append,
        Nat.ofDigitChars_ten_toDigits, Nat.ofDigitChars_replicate_zero]
      change 10 * (10 ^ zeros * d.digits) + 0 = _
      ring
    dsimp only
    rw [hdigits, exponentValue, List.length_singleton, Decimal.value, ← hzeros, zpow_natCast]
    push_cast
    rw [pow_succ, zpow_neg_one]
    ring

/-- The text of a decimal, by where the point stands and whether there is an exponent. -/
theorem decimalText_cases (d : Decimal) :
    (∃ zeros : Nat, -((zeros + (Nat.toDigits 10 d.digits).length : Nat) : Int) = d.exponent ∧
      (Number.decimalText d).toList =
        '0' :: '.' :: (List.replicate zeros '0' ++ Nat.toDigits 10 d.digits)) ∨
    (∃ zeros : Nat, (zeros : Int) = d.exponent ∧ (Nat.toDigits 10 d.digits).length + zeros ≤ 16 ∧
      (Number.decimalText d).toList =
        Nat.toDigits 10 d.digits ++ List.replicate zeros '0' ++ ['.', '0']) ∨
    (∃ w, 0 < w ∧ w ≤ 16 ∧ w < (Nat.toDigits 10 d.digits).length ∧
      -((((Nat.toDigits 10 d.digits).length - w : Nat)) : Int) = d.exponent ∧
      (Number.decimalText d).toList =
        (Nat.toDigits 10 d.digits).take w ++ '.' :: (Nat.toDigits 10 d.digits).drop w) ∨
    ∃ e : Int, e - ((Nat.toDigits 10 d.digits).length - 1 : Nat) = d.exponent ∧
      (Number.decimalText d).toList =
        (Nat.toDigits 10 d.digits).take 1 ++
          (if ((Nat.toDigits 10 d.digits).drop 1).isEmpty then []
            else '.' :: (Nat.toDigits 10 d.digits).drop 1) ++ (Number.exponentText e).toList := by
  have hlength : 0 < (Nat.toDigits 10 d.digits).length := Nat.length_toDigits_pos
  unfold Number.decimalText
  dsimp only
  generalize Nat.toDigits 10 d.digits = ds at *
  generalize he : d.exponent + (ds.length : Int) - 1 = e
  split
  · next hplain =>
    have hsmall : e < 16 := by simpa using (Bool.and_eq_true_iff.mp hplain).2
    split
    · exact Or.inl ⟨(-e - 1).toNat, by omega, by simp⟩
    · next hone =>
      split
      · next hwhole =>
        exact Or.inr (Or.inl ⟨e.toNat + 1 - ds.length, by omega, by omega, by simp⟩)
      · next hwhole =>
        exact Or.inr (Or.inr (Or.inl ⟨e.toNat + 1, by omega, by omega, by omega, by omega, by simp⟩))
  · refine Or.inr (Or.inr (Or.inr ⟨e, by omega, ?_⟩))
    cases ds with
    | nil => cases hlength
    | cons first rest =>
      cases rest with
      | nil => simp
      | cons second rest => simp

include hd in
/-- The text of a positive decimal is that of a numeral which stands for it. -/
theorem exists_denotes : ∃ n : Numeral, n.negative = negative ∧ Denotes n d ∧
    n.chars = (if negative then ['-'] else []) ++ (Number.decimalText d).toList := by
  rcases decimalText_cases d with ⟨zeros, hzeros, htext⟩ | ⟨zeros, hzeros, hshort, htext⟩ |
    ⟨w, hw, hshort, hlt, hvalue, htext⟩ | ⟨e, hvalue, htext⟩
  · refine ⟨_, rfl, denotes_below negative hzeros, ?_⟩
    rw [htext]
    simp [Numeral.chars]
  · refine ⟨_, rfl, denotes_integer hd negative hzeros hshort, ?_⟩
    rw [htext]
    simp [Numeral.chars]
  · refine ⟨_, rfl, denotes_split hd negative hw hshort (Or.inl rfl) (Or.inl hlt) ?_, ?_⟩
    · rw [exponentValue, zero_sub, hvalue]
    · have hdrop : (Nat.toDigits 10 d.digits).drop w ≠ [] := by simpa using hlt
      rw [htext]
      simp [Numeral.chars, hdrop]
  · have hexponent := isExponent_exponentText e
    refine ⟨_, rfl, denotes_split hd negative one_pos (by decide) (Or.inr hexponent) (Or.inr ?_) ?_, ?_⟩
    · simp [exponentText_toList]
    · rw [exponentValue_exponentText, hvalue]
    · rw [htext]
      simp [Numeral.chars]

end Decimal

theorem numberOf?_denotes {n : Numeral} {d : Decimal} (h : Denotes n d) :
    numberOf? n =
      (doubleOf? n.negative (scientificOf n).1 (scientificOf n).2).map .double := by
  have hpointed : (n.fraction.isEmpty && n.exponent.isEmpty) = false :=
    Bool.and_eq_false_iff.mpr
      (h.pointed.imp List.isEmpty_eq_false_iff.mpr List.isEmpty_eq_false_iff.mpr)
  unfold numberOf?
  simp [hpointed]

/-- The significand that is taken of a numeral makes no more of it than it stands for. -/
theorem scientificOf_le {n : Numeral} {d : Decimal} (h : Denotes n d) :
    ((scientificOf n).1 * 10 ^ (scientificOf n).2 : ℚ) ≤ d.value := by
  have hwhole : natOfDigits n.whole < UInt64.size :=
    calc natOfDigits n.whole < 10 ^ n.whole.length := natOfDigits_lt h.wellFormed.whole.2
      _ ≤ 10 ^ 16 := Nat.pow_le_pow_right (by decide) h.short
      _ < UInt64.size := by decide
  have htake : takeDigits 0 n.whole = (natOfDigits n.whole, 0) := takeDigits_of_lt hwhole
  obtain ⟨hlength, hle⟩ := takeDigits_le (natOfDigits n.whole) n.fraction
  have hscientific : scientificOf n = ((takeDigits (natOfDigits n.whole) n.fraction).1,
      exponentValue n.exponent + (0 : Nat) -
        (n.fraction.length - (takeDigits (natOfDigits n.whole) n.fraction).2 : Nat)) := by
    unfold scientificOf
    rw [htake]
  have happend : Nat.ofDigitChars 10 n.fraction (natOfDigits n.whole) =
      natOfDigits (n.whole ++ n.fraction) := (Nat.ofDigitChars_append 0).symm
  rw [happend] at hle
  rw [hscientific]
  generalize takeDigits (natOfDigits n.whole) n.fraction = taken at *
  have hcast : (taken.1 * 10 ^ taken.2 : ℚ) ≤ natOfDigits (n.whole ++ n.fraction) := by
    exact_mod_cast hle
  have hexponent : exponentValue n.exponent + (0 : Nat) - (n.fraction.length - taken.2 : Nat) =
      taken.2 + (exponentValue n.exponent - n.fraction.length) := by omega
  dsimp only
  rw [hexponent, zpow_add₀ (by norm_num), zpow_natCast, ← mul_assoc, ← h.value]
  exact mul_le_mul_of_nonneg_right hcast (by positivity)

theorem doubleText_toList (bits : UInt64) : (Number.doubleText bits).toList =
    (if Nat.pow 2 63 ≤ bits.toNat then ['-'] else []) ++
      (if (ofBits bits).significand = 0 then "0.0" else
        Number.decimalText (ofBits bits).shortest).toList := by
  unfold Number.doubleText
  dsimp only
  split <;> simp

/-- A zero keeps its sign. -/
theorem isExact_zero {bits : UInt64} (h : (ofBits bits).significand = 0) :
    (Number.double bits).IsExact := by
  have hzero : bits.toNat % 2 ^ 63 = 0 := by
    by_cases hexponent : bits.toNat / 2 ^ 52 % 2 ^ 11 = 0
    · rw [Binary.ofBits_of_small hexponent] at h
      dsimp only at h
      omega
    · rw [Binary.ofBits_of_full hexponent] at h
      dsimp only at h
      omega
  have hdigits : IsDigits ['0'] := by simp [IsDigits]
  refine ⟨⟨Nat.pow 2 63 ≤ bits.toNat, ['0'], ['0'], []⟩, ⟨hdigits, Or.inr hdigits, Or.inl rfl⟩,
    Or.inl rfl, ?_, ?_⟩
  · change _ = (Number.doubleText bits).toList
    rw [doubleText_toList, if_pos h]
    simp [Numeral.chars]
  · have hread : ∀ negative, doubleOf? negative 0 (-1) =
        some (if negative then 0x8000000000000000 else 0) := by decide +kernel
    change (doubleOf? _ 0 (-1)).map Number.double = _
    rw [hread]
    refine congrArg (fun bits => some (Number.double bits)) (UInt64.toNat_inj.mp ?_)
    have hword := bits.toNat_lt
    simp only [Nat.pow_eq, decide_eq_true_eq]
    split
    · change 2 ^ 63 = bits.toNat
      omega
    · change 0 = bits.toNat
      omega

theorem shortest_ne_zero {x : Binary} (hx : x.Canonical) : x.shortest.digits ≠ 0 := by
  intro hzero
  have hlow := (Binary.near_shortest hx).low
  have hone : (1 : ℚ) ≤ x.significand := by exact_mod_cast hx.pos
  rw [Decimal.value, hzero, Nat.cast_zero, zero_mul, zero_div] at hlow
  linarith [x.reach_le]

/-- All numbers but the largest stay within the limit. -/
theorem shortest_le {x : Binary} (hx : x.Canonical)
    (hlast : x.significand + 1 < 2 ^ 53 ∨ x.exponent < 971) : x.shortest.value ≤ scaleLimit := by
  have hpower : ∀ k : Nat, (((2 ^ 54 - 3) * 2 ^ k : Nat) : ℚ) = (2 ^ 54 - 3) * 2 ^ (k : Int) := by
    intro k
    rw [zpow_natCast]
    push_cast
    norm_num
  have hlimit : (scaleLimit : ℚ) = (2 ^ 54 - 3) * 2 ^ (970 : Int) := hpower 970
  refine ((div_le_iff₀ (by positivity)).mp (Binary.near_shortest hx).high).trans ?_
  rw [hlimit]
  rcases hlast with hlast | hlast
  · have hcast : (x.significand : ℚ) + 2 ≤ 2 ^ 53 := by exact_mod_cast hlast
    calc (x.significand + 1 / 2 : ℚ) * 2 ^ x.exponent ≤ (2 ^ 53 - 3 / 2) * 2 ^ (970 + 1 : Int) :=
          mul_le_mul (by linarith) (zpow_le_zpow_right₀ (by norm_num) hx.high) (by positivity)
            (by norm_num)
      _ = (2 ^ 54 - 3) * 2 ^ (970 : Int) := by
        rw [zpow_add_one₀ (by norm_num)]
        ring
  · have hcast : (x.significand : ℚ) + 1 ≤ 2 ^ 53 := by exact_mod_cast hx.lt
    exact mul_le_mul (by linarith) (zpow_le_zpow_right₀ (by norm_num) (by omega)) (by positivity)
      (by norm_num)

theorem eq_largest {bits : UInt64} (hx : (ofBits bits).Canonical)
    (hfull : 2 ^ 53 ≤ (ofBits bits).significand + 1) (hhigh : 971 ≤ (ofBits bits).exponent) :
    bits = 0x7FEFFFFFFFFFFFFF ∨ bits = 0xFFEFFFFFFFFFFFFF := by
  have hlimit := hx.high
  have hword := bits.toNat_lt
  have hne : bits.toNat / 2 ^ 52 % 2 ^ 11 ≠ 0 := fun h => by
    rw [Binary.ofBits_of_small h] at hhigh
    dsimp only at hhigh
    omega
  rw [Binary.ofBits_of_full hne] at hfull hhigh hlimit
  dsimp only at hfull hhigh hlimit
  have hbits : bits.toNat = 0x7FEFFFFFFFFFFFFF ∨ bits.toNat = 0xFFEFFFFFFFFFFFFF := by omega
  exact hbits.imp UInt64.toNat_inj.mp UInt64.toNat_inj.mp

/-- The largest number, of either sign, is read exactly. -/
theorem isExact_largest {bits : UInt64}
    (h : bits = 0x7FEFFFFFFFFFFFFF ∨ bits = 0xFFEFFFFFFFFFFFFF) : (Number.double bits).IsExact := by
  have hwhole : IsDigits ['1'] := by simp [IsDigits]
  have hn : ∀ negative : Bool, Numeral.WellFormed ⟨negative, ['1'], Nat.toDigits 10 7976931348623157,
      (Number.exponentText 308).toList⟩ := fun negative =>
    ⟨hwhole, Or.inr (isDigits_toDigits 7976931348623157), Or.inr (isExponent_exponentText 308)⟩
  rcases h with rfl | rfl
  · exact ⟨_, hn false, Or.inr (by decide), by decide +kernel, by decide +kernel⟩
  · exact ⟨_, hn true, Or.inr (by decide), by decide +kernel, by decide +kernel⟩

/-- Every finite number is read from its shortest text as some number. -/
theorem isLegible_double {bits : UInt64} (hfinite : IsFinite bits) :
    (Number.double bits).IsLegible := by
  by_cases hzero : (ofBits bits).significand = 0
  · exact ⟨_, isExact_zero hzero⟩
  have hx := Binary.canonical_ofBits hfinite hzero
  by_cases hlast : (ofBits bits).significand + 1 < 2 ^ 53 ∨ (ofBits bits).exponent < 971
  · obtain ⟨n, hnegative, hn, hchars⟩ :=
      exists_denotes (shortest_ne_zero hx) (decide (Nat.pow 2 63 ≤ bits.toNat))
    obtain ⟨read, hread⟩ := exists_doubleOf? (scientificOf_lt n) n.negative
      ((scientificOf_le hn).trans (shortest_le hx hlast))
    refine ⟨.double read, n, hn.wellFormed, hn.whole, ?_, ?_⟩
    · change _ = (Number.doubleText bits).toList
      rw [hchars, doubleText_toList, if_neg hzero]
      simp
    · rw [numberOf?_denotes hn, hread]
      rfl
  · exact ⟨_, isExact_largest (eq_largest hx (by omega) (by omega))⟩

/-- What is read from a text can be read from its own again. -/
theorem isLegible_of_numberOf? {n : Numeral} {value : Number} (h : numberOf? n = some value) :
    value.IsLegible := by
  unfold numberOf? at h
  dsimp only at h
  generalize (if n.negative then -(natOfDigits n.whole : Int) else natOfDigits n.whole) = whole at h
  split at h
  · next hsmall =>
    obtain rfl := Option.some.inj h
    simp only [Bool.and_eq_true, decide_eq_true_eq] at hsmall
    exact ⟨_, isExact_int hsmall.1.2 hsmall.2⟩
  · obtain ⟨bits, hbits, rfl⟩ := Option.map_eq_some_iff.mp h
    exact isLegible_double (isFinite_of_doubleOf? (scientificOf_lt n) hbits)

end FeatureSql.Json
