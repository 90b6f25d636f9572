import FeatureSql.Json.Reader
import FeatureSql.Json.Writer
import FeatureSql.Proofs.Numeral

/-! Strings and numbers of JSON read back from their text. -/

set_option autoImplicit false

namespace FeatureSql.Json

open Numeral (IsDigits isNumeralChar)
open Reader (Breaks breaks_cons bind_of_some bind_of_none orElse_of_none orElse_of_some Steps Takes)

theorem hexValue?_hexDigit : ∀ n < 16, hexValue? (hexDigit n) = some n := by decide +kernel

theorem escape?_control {c : Char} (h : c.toNat < 32) (rest : List Char) :
    escape? ('u' :: '0' :: '0' :: hexDigit (c.toNat / 16) :: hexDigit (c.toNat % 16) :: rest) =
      some (c, rest) := by
  have hzero : hexValue? '0' = some 0 := rfl
  have hhigh := hexValue?_hexDigit (c.toNat / 16) (by omega)
  have hlow := hexValue?_hexDigit (c.toNat % 16) (by omega)
  have hvalue : ((0 * 16 + 0) * 16 + c.toNat / 16) * 16 + c.toNat % 16 = c.toNat := by omega
  have hunit : hexUnit? ('0' :: '0' :: hexDigit (c.toNat / 16) :: hexDigit (c.toNat % 16) :: rest) =
      some (c.toNat, rest) := by
    simp only [hexUnit?, hzero, hhigh, hlow, Option.bind_eq_bind, Option.bind_some, hvalue,
      Option.pure_def]
  have hsmall : c.toNat < 0xD800 := by omega
  change unicodeEscape? _ = _
  rw [unicodeEscape?, hunit, Option.bind_eq_bind, Option.bind_some]
  simp [hsmall, Char.ofNat_toNat]

/-- A character stands for itself, or a backslash and what follows it stand for the character. -/
theorem escape_cases (c : Char) :
    (escape c = [c] ∧ c ≠ '\\' ∧ c ≠ '\x22' ∧ ¬ c.toNat < 32) ∨
      ∃ escaped, escape c = '\\' :: escaped ∧ ∀ rest, escape? (escaped ++ rest) = some (c, rest) := by
  unfold escape
  split
  · next h => exact Or.inr ⟨['\x22'], rfl, fun rest => by rw [beq_iff_eq.mp h]; rfl⟩
  split
  · next h => exact Or.inr ⟨['\\'], rfl, fun rest => by rw [beq_iff_eq.mp h]; rfl⟩
  split
  · next h => exact Or.inr ⟨['b'], rfl, fun rest => by rw [beq_iff_eq.mp h]; rfl⟩
  split
  · next h => exact Or.inr ⟨['t'], rfl, fun rest => by rw [beq_iff_eq.mp h]; rfl⟩
  split
  · next h => exact Or.inr ⟨['n'], rfl, fun rest => by rw [beq_iff_eq.mp h]; rfl⟩
  split
  · next h => exact Or.inr ⟨['f'], rfl, fun rest => by rw [beq_iff_eq.mp h]; rfl⟩
  split
  · next h => exact Or.inr ⟨['r'], rfl, fun rest => by rw [beq_iff_eq.mp h]; rfl⟩
  split
  · next h => exact Or.inr ⟨_, rfl, escape?_control h⟩
  · next hquote hslash _ _ _ _ _ hcontrol =>
    exact Or.inl ⟨rfl, by simpa using hslash, by simpa using hquote, hcontrol⟩

theorem stringChar_escape (c : Char) (rest : List Char) :
    stringChar (escape c ++ rest) = some (c, rest) := by
  rcases escape_cases c with ⟨hself, hslash, hquote, hcontrol⟩ | ⟨escaped, hescape, hread⟩
  · rw [hself, List.singleton_append, stringChar, if_neg (by simpa using hslash),
      if_neg (by simp [hquote, hcontrol])]
  · rw [hescape, List.cons_append]
    exact hread rest

theorem escape_ne_nil (c : Char) : escape c ≠ [] := by
  rcases escape_cases c with ⟨hself, _⟩ | ⟨escaped, hescape, _⟩
  · simp [hself]
  · simp [hescape]

theorem steps_escape (cs rest : List Char) :
    Steps stringChar (cs.flatMap escape ++ rest) cs rest := by
  induction cs with
  | nil => exact .nil rest
  | cons c cs ih =>
    have hpos := List.length_pos_iff.mpr (escape_ne_nil c)
    rw [List.flatMap_cons, List.append_assoc]
    refine .cons (stringChar_escape c _) ?_ ih
    simp only [List.length_append]
    omega

theorem stringReader_append (s : String) (text : List Char) :
    stringReader ((stringText s).toList ++ text) = some (s, text) := by
  have hmany := (steps_escape s.toList ('\x22' :: text)).many_eq rfl
  rw [stringText, String.toList_ofList, List.cons_append, List.append_assoc, stringReader,
    bind_of_some (Numeral.char_self '\x22' _), List.singleton_append, bind_of_some hmany,
    bind_of_some (Numeral.char_self '\x22' text), String.ofList_toList]
  rfl

/-- No zero stands in front of other digits. -/
def IsWhole (digits : List Char) : Prop := digits = ['0'] ∨ digits.head? ≠ some '0'

theorem wholeDigits_append {ds text : List Char} (hd : IsDigits ds) (hwhole : IsWhole ds)
    (h : Breaks Char.isDigit text) : wholeDigits (ds ++ text) = some (ds, text) := by
  rcases hwhole with rfl | hzero
  · rfl
  · have hnone : Reader.char '0' (ds ++ text) = none := by
      cases ds with
      | nil => exact absurd rfl hd.1
      | cons d ds => exact Numeral.char_of_ne (by simpa using hzero) _
    exact (orElse_of_none (bind_of_none hnone)).trans (Numeral.digits_append hd h)

theorem digitChar_ne_zero : ∀ n < 10, n ≠ 0 → n.digitChar ≠ '0' := by decide

theorem head?_toDigits {n : Nat} (h : n ≠ 0) : (Nat.toDigits 10 n).head? ≠ some '0' := by
  induction n using Nat.strongRecOn with
  | ind n ih =>
    by_cases hn : n < 10
    · rw [Nat.toDigits_of_lt_base hn]
      simpa using digitChar_ne_zero n hn h
    · have hpos : n / 10 ≠ 0 := by omega
      have hfirst := ih (n / 10) (by omega) hpos
      rw [Nat.toDigits_of_base_le (by decide) (by omega)]
      cases hds : Nat.toDigits 10 (n / 10) with
      | nil => exact absurd hds Nat.toDigits_ne_nil
      | cons d ds =>
        rw [hds] at hfirst
        exact hfirst

theorem isWhole_repr (n : Nat) : IsWhole n.repr.toList := by
  rw [Nat.toList_repr]
  by_cases hn : n = 0
  · exact Or.inl (by rw [hn, Nat.toDigits_zero])
  · exact Or.inr (head?_toDigits hn)

/-- The number's text is a numeral that is read as `read`. -/
def Number.ReadsAs (number read : Number) : Prop :=
  ∃ n : Numeral, n.WellFormed ∧ IsWhole n.whole ∧ n.chars = number.text.toList ∧
    numberOf? n = some read

/-- The number stands for a value that its text has in full. -/
def Number.IsExact (number : Number) : Prop := number.ReadsAs number

/-- The number's text is read as some number, which may be another one. -/
def Number.IsLegible (number : Number) : Prop := ∃ read, number.ReadsAs read

theorem Number.IsExact.isLegible {number : Number} (h : number.IsExact) : number.IsLegible := ⟨_, h⟩

theorem numberReader_append {number read : Number} (h : number.ReadsAs read) {text : List Char}
    (ht : Breaks Numeral.mayContinue text) :
    numberReader (number.text.toList ++ text) = some (read, text) := by
  obtain ⟨n, hn, hwhole, hchars, hvalue⟩ := h
  have hread : Numeral.read wholeDigits (n.chars ++ text) = some (n, text) :=
    Numeral.read_append hn (fun rest hrest => wholeDigits_append hn.whole hwhole hrest) ht
  rw [← hchars, numberReader, bind_of_some hread, hvalue]
  rfl

/-- What a number's text is read as. -/
def Number.reread (number : Number) : Number :=
  ((numberReader number.text.toList).map Prod.fst).getD number

theorem Number.ReadsAs.reread_eq {number read : Number} (h : number.ReadsAs read) :
    number.reread = read := by
  rw [Number.reread, ← List.append_nil number.text.toList, numberReader_append h (Breaks.nil _),
    Option.map_some, Option.getD_some]

theorem Number.IsLegible.readsAs {number : Number} (h : number.IsLegible) :
    number.ReadsAs number.reread := by
  obtain ⟨read, hread⟩ := h
  rwa [hread.reread_eq]

/-- Integers that a 64-bit word can hold, with a sign or without. -/
theorem isExact_int {value : Int} (hlow : Int64.minValue.toInt ≤ value)
    (hhigh : value < UInt64.size) : (Number.int value).IsExact := by
  refine ⟨Numeral.ofInt value, Numeral.wellFormed_ofInt value, isWhole_repr _,
    Numeral.chars_ofInt value, ?_⟩
  have hvalue : (if decide (value < 0) = true then -(value.natAbs : Int) else value.natAbs) =
      value := by
    by_cases hneg : value < 0
    · rw [if_pos (by simpa using hneg)]
      omega
    · rw [if_neg (by simpa using hneg)]
      omega
  have hzero : (!(decide (value < 0) && decide ((value.natAbs : Int) = 0))) = true := by
    simp only [Bool.not_eq_true', Bool.and_eq_false_iff, decide_eq_false_iff_not]
    omega
  unfold numberOf? Numeral.ofInt
  dsimp only
  rw [Numeral.natOfDigits_repr, hvalue, hzero, List.isEmpty_nil, decide_eq_true hlow,
    decide_eq_true hhigh]
  rfl

def IsNumeralText (text : String) : Prop := ∀ c ∈ text.toList, isNumeralChar c = true

theorem IsNumeralText.append {first second : String} (hf : IsNumeralText first)
    (hs : IsNumeralText second) : IsNumeralText (first ++ second) := by
  intro c hc
  rw [String.toList_append, List.mem_append] at hc
  exact hc.elim (hf c) (hs c)

theorem IsNumeralText.of_all {text : String} (h : text.toList.all isNumeralChar = true) :
    IsNumeralText text := List.all_eq_true.mp h

theorem isNumeralText_digits {ds : List Char} (h : ∀ d ∈ ds, d.isDigit = true) :
    IsNumeralText (String.ofList ds) := by
  intro c hc
  rw [String.toList_ofList] at hc
  simp [isNumeralChar, h c hc]

theorem isDigit_toDigits (n : Nat) : ∀ d ∈ Nat.toDigits 10 n, d.isDigit = true :=
  fun _ hd => Nat.isDigit_of_mem_toDigits (by decide) (by decide) hd

theorem isNumeralText_repr (n : Nat) : IsNumeralText n.repr :=
  isNumeralText_digits (isDigit_toDigits n)

theorem isNumeralText_exponent (e : Int) : IsNumeralText (Number.exponentText e) := by
  have hsign : IsNumeralText (if e < 0 then "-" else "+") := by split <;> exact .of_all rfl
  exact ((IsNumeralText.of_all rfl).append hsign).append (isNumeralText_repr _)

theorem isNumeralText_decimal (d : Decimal) : IsNumeralText (Number.decimalText d) := by
  have hdigits := isDigit_toDigits d.digits
  have hzeros : ∀ n, ∀ c ∈ List.replicate n '0', c.isDigit = true :=
    fun n c hc => List.eq_of_mem_replicate hc ▸ rfl
  have hpoint : IsNumeralText "." := .of_all rfl
  have htake : ∀ n, IsNumeralText (String.ofList ((Nat.toDigits 10 d.digits).take n)) :=
    fun n => isNumeralText_digits fun c hc => hdigits c (List.mem_of_mem_take hc)
  have hdrop : ∀ n, IsNumeralText (String.ofList ((Nat.toDigits 10 d.digits).drop n)) :=
    fun n => isNumeralText_digits fun c hc => hdigits c (List.mem_of_mem_drop hc)
  unfold Number.decimalText
  dsimp only
  split
  · split
    · refine (IsNumeralText.of_all rfl).append (isNumeralText_digits fun c hc => ?_)
      exact (List.mem_append.mp hc).elim (hzeros _ c) (hdigits c)
    · split
      · refine (isNumeralText_digits fun c hc => ?_).append (.of_all rfl)
        exact (List.mem_append.mp hc).elim (hdigits c) (hzeros _ c)
      · exact ((htake _).append hpoint).append (hdrop _)
  · split
    · next first hcs =>
      have hfirst := htake 1
      rw [hcs] at hfirst
      exact hfirst.append (isNumeralText_exponent _)
    · exact (((htake 1).append hpoint).append (hdrop 1)).append (isNumeralText_exponent _)

theorem isNumeralText_number (number : Number) : IsNumeralText number.text := by
  cases number with
  | int value =>
    have hall := Numeral.all_chars (Numeral.wellFormed_ofInt value)
    rw [Numeral.chars_ofInt] at hall
    exact .of_all hall
  | double bits =>
    have hsign : IsNumeralText (if Nat.pow 2 63 ≤ bits.toNat then "-" else "") := by
      split <;> exact .of_all rfl
    apply hsign.append
    split
    · exact .of_all rfl
    · exact isNumeralText_decimal _

theorem ne_nil_decimal (d : Decimal) : (Number.decimalText d).toList ≠ [] := by
  unfold Number.decimalText
  dsimp only
  split
  · split
    · simp
    · split <;> simp
  · split <;> simp

theorem ne_nil_number (number : Number) : number.text.toList ≠ [] := by
  cases number with
  | int value =>
    have hne := (Numeral.wellFormed_ofInt value).whole.1
    rw [Number.text, ← Numeral.chars_ofInt]
    simp [Numeral.chars, hne]
  | double bits =>
    rw [Number.text, Number.doubleText, String.toList_append]
    apply List.append_ne_nil_of_right_ne_nil
    split
    · simp
    · exact ne_nil_decimal _

theorem wholeDigits_takes :
    Takes (fun ds taken => ds = taken ∧ IsDigits ds ∧ IsWhole ds) wholeDigits := by
  intro text ds left h
  rw [wholeDigits, Reader.orElse_apply, Option.or_eq_some_iff] at h
  rcases h with h | ⟨hzero, h⟩
  · have hread : Takes (fun ds taken => ds = taken ∧ ds = ['0']) (do Reader.char '0'; pure ['0']) :=
      (Takes.char '0').bind fun _ _ h => Takes.of_pure (by rw [h]; exact ⟨rfl, rfl⟩)
    obtain ⟨taken, htext, rfl, rfl⟩ := hread text ds left h
    exact ⟨_, htext, rfl, ⟨by simp, by simp⟩, Or.inl rfl⟩
  · have hdigits := Numeral.digits_yields text ds left h
    obtain ⟨_, rfl, rfl⟩ := Numeral.digits_takes text ds left h
    refine ⟨ds, rfl, rfl, hdigits, Or.inr fun hhead => ?_⟩
    obtain ⟨ds, rfl⟩ := List.head?_eq_some_iff.mp hhead
    rw [List.cons_append, bind_of_some (Numeral.char_self '0' _)] at hzero
    exact absurd hzero (by simp [Reader.pure_apply])

/-- A number is read off a numeral that stands for it. -/
theorem numberReader_takes : Takes (fun number taken => ∃ n : Numeral, n.WellFormed ∧
    IsWhole n.whole ∧ n.chars = taken ∧ numberOf? n = some number) numberReader := by
  have hyields : Reader.Yields IsDigits wholeDigits := fun text ds left h => by
    obtain ⟨_, _, _, hds, _⟩ := wholeDigits_takes text ds left h
    exact hds
  intro text number left h
  rw [numberReader, Reader.bind_apply, Option.bind_eq_some_iff] at h
  obtain ⟨⟨n, mid⟩, hread, h⟩ := h
  dsimp only at h
  have hn := Numeral.read_yields hyields text n mid hread
  obtain ⟨taken, htext, hchars, _, hwhole⟩ := Numeral.read_takes wholeDigits_takes text n mid hread
  cases hvalue : numberOf? n with
  | none =>
    rw [hvalue] at h
    exact absurd h (by simp [Reader.failure_apply])
  | some value =>
    rw [hvalue] at h
    have h : some (value, mid) = some (number, left) := h
    rw [Option.some.injEq] at h
    cases h
    exact ⟨taken, htext, n, hn, hwhole, hchars, hvalue⟩

end FeatureSql.Json
