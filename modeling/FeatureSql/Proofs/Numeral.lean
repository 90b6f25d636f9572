import FeatureSql.Proofs.Reader
import FeatureSql.Text.Numeral

/-! Numerals that are well formed read back, and only such numerals are read. -/

set_option autoImplicit false

namespace FeatureSql.Numeral

open Reader (Breaks breaks_cons bind_of_some bind_of_none orElse_of_none orElse_of_some Yields Takes)

def IsDigits (cs : List Char) : Prop := cs ≠ [] ∧ ∀ c ∈ cs, c.isDigit = true

/-- An exponent's mark, at most one sign, and digits. -/
def IsExponent (cs : List Char) : Prop :=
  ∃ mark sign digits, (mark = 'e' ∨ mark = 'E') ∧ (sign = [] ∨ sign = ['+'] ∨ sign = ['-']) ∧
    IsDigits digits ∧ cs = mark :: (sign ++ digits)

structure WellFormed (n : Numeral) : Prop where
  whole : IsDigits n.whole
  fraction : n.fraction = [] ∨ IsDigits n.fraction
  exponent : n.exponent = [] ∨ IsExponent n.exponent

/-- What cannot go on a number. -/
def mayContinue (c : Char) : Bool := c.isDigit || c == '.' || c == 'e' || c == 'E'

theorem breaks_isDigit {text : List Char} (h : Breaks mayContinue text) :
    Breaks Char.isDigit text := h.mono fun c hc => by simp [mayContinue, hc]

theorem digits_append {ds text : List Char} (hd : IsDigits ds) (h : Breaks Char.isDigit text) :
    digits (ds ++ text) = some (ds, text) := Reader.run1_append hd.2 hd.1 h

theorem char_of_ne {c d : Char} (hc : d ≠ c) (text : List Char) : Reader.char c (d :: text) = none := by
  have hs : Reader.satisfy (· == c) (d :: text) = none := by simp [Reader.satisfy, hc]
  exact bind_of_none hs

theorem char_self (c : Char) (text : List Char) : Reader.char c (c :: text) = some ((), text) := by
  have hs : Reader.satisfy (· == c) (c :: text) = some (c, text) := by simp [Reader.satisfy]
  rw [Reader.char, bind_of_some hs]
  rfl

theorem exponentSign_append {sign digits : List Char}
    (hs : sign = [] ∨ sign = ['+'] ∨ sign = ['-']) (hd : IsDigits digits) (text : List Char) :
    exponentSign (sign ++ (digits ++ text)) = some (sign, digits ++ text) := by
  rcases hs with rfl | rfl | rfl
  · obtain ⟨hne, hall⟩ := hd
    cases digits with
    | nil => exact absurd rfl hne
    | cons d ds =>
      have hdigit := hall d List.mem_cons_self
      have hplus : d ≠ '+' := by rintro rfl; exact absurd hdigit (by decide)
      have hminus : d ≠ '-' := by rintro rfl; exact absurd hdigit (by decide)
      have hnone : Reader.satisfy (fun c => c == '+' || c == '-') (d :: (ds ++ text)) = none := by
        simp [Reader.satisfy, hplus, hminus]
      exact orElse_of_none (bind_of_none hnone)
  · rfl
  · rfl

theorem exponentPart_append {exponent text : List Char} (he : IsExponent exponent)
    (h : Breaks Char.isDigit text) : exponentPart (exponent ++ text) = some (exponent, text) := by
  obtain ⟨mark, sign, ds, hm, hs, hd, rfl⟩ := he
  have hmark : Reader.satisfy (fun c => c == 'e' || c == 'E') (mark :: (sign ++ ds ++ text)) =
      some (mark, sign ++ (ds ++ text)) := by
    rcases hm with rfl | rfl <;> simp [Reader.satisfy]
  apply orElse_of_some
  rw [List.cons_append, bind_of_some hmark, bind_of_some (exponentSign_append hs hd text),
    bind_of_some (digits_append hd h)]
  rfl

theorem exponentPart_of_breaks {text : List Char} (h : Breaks mayContinue text) :
    exponentPart text = some ([], text) := by
  have hnone : Reader.satisfy (fun c => c == 'e' || c == 'E') text = none := by
    cases text with
    | nil => rfl
    | cons c text =>
      have hc := breaks_cons.mp h
      simp only [mayContinue, Bool.or_eq_false_iff] at hc
      simp [Reader.satisfy, hc.2, hc.1.2]
  exact orElse_of_none (bind_of_none hnone)

theorem exponentPart_eq {exponent text : List Char} (he : exponent = [] ∨ IsExponent exponent)
    (h : Breaks mayContinue text) : exponentPart (exponent ++ text) = some (exponent, text) := by
  rcases he with rfl | he
  · exact exponentPart_of_breaks h
  · exact exponentPart_append he (breaks_isDigit h)

/-- What follows the digits before the point, or after it. -/
theorem breaks_exponent {exponent text : List Char} (he : exponent = [] ∨ IsExponent exponent)
    (h : Breaks mayContinue text) :
    Breaks (fun c => c.isDigit || c == '.') (exponent ++ text) := by
  rcases he with rfl | ⟨mark, sign, ds, hm, _, _, rfl⟩
  · apply h.mono
    intro c hc
    simp only [Bool.or_eq_true] at hc
    rcases hc with hc | hc <;> simp [mayContinue, hc]
  · rcases hm with rfl | rfl <;> exact breaks_cons.mpr rfl

theorem fractionDigits_append {fraction text : List Char} (hf : IsDigits fraction)
    (h : Breaks Char.isDigit text) :
    fractionDigits ('.' :: (fraction ++ text)) = some (fraction, text) := by
  apply orElse_of_some
  rw [bind_of_some (char_self '.' _), digits_append hf h]

theorem fractionDigits_of_breaks {text : List Char}
    (h : Breaks (fun c => c.isDigit || c == '.') text) : fractionDigits text = some ([], text) := by
  cases text with
  | nil => rfl
  | cons c text =>
    have hc := breaks_cons.mp h
    have hne : c ≠ '.' := by rintro rfl; exact absurd hc (by decide)
    exact orElse_of_none (bind_of_none (char_of_ne hne text))

theorem sign_append (n : Numeral) (hn : IsDigits n.whole) (text : List Char) :
    sign ((if n.negative then ['-'] else []) ++ (n.whole ++ text)) =
      some (n.negative, n.whole ++ text) := by
  cases hneg : n.negative with
  | true => rfl
  | false =>
    obtain ⟨hne, hall⟩ := hn
    cases hw : n.whole with
    | nil => exact absurd hw hne
    | cons d ds =>
      have hdigit := hall d (hw ▸ List.mem_cons_self)
      have hminus : d ≠ '-' := by rintro rfl; exact absurd hdigit (by decide)
      exact orElse_of_none (bind_of_none (char_of_ne hminus _))

/-- The digits before the point are those that `whole` reads. -/
theorem read_append {whole : Reader (List Char)} {n : Numeral} (hn : n.WellFormed)
    (hwhole : ∀ rest, Breaks Char.isDigit rest → whole (n.whole ++ rest) = some (n.whole, rest))
    {text : List Char} (h : Breaks mayContinue text) :
    read whole (n.chars ++ text) = some (n, text) := by
  have hexp := breaks_exponent hn.exponent h
  have hdigit : Breaks Char.isDigit (n.exponent ++ text) := hexp.mono fun c hc => by simp [hc]
  have hchars : n.chars ++ text = (if n.negative then ['-'] else []) ++ (n.whole ++
      ((if n.fraction.isEmpty then [] else '.' :: n.fraction) ++ (n.exponent ++ text))) := by
    simp only [chars, List.append_assoc]
  rw [hchars, read, bind_of_some (sign_append n hn.whole _)]
  rcases hn.fraction with hf | hf
  · rw [hf, List.isEmpty_nil, if_pos rfl, List.nil_append, bind_of_some (hwhole _ hdigit),
      bind_of_some (fractionDigits_of_breaks hexp), bind_of_some (exponentPart_eq hn.exponent h), ← hf]
    rfl
  · have hne : n.fraction.isEmpty = false := by simpa using hf.1
    have hpoint : Breaks Char.isDigit ('.' :: n.fraction ++ (n.exponent ++ text)) :=
      breaks_cons.mpr rfl
    rw [hne, if_neg (by decide), bind_of_some (hwhole _ hpoint), List.cons_append,
      bind_of_some (fractionDigits_append hf hdigit), bind_of_some (exponentPart_eq hn.exponent h)]
    rfl

/-- What a numeral may be written with. -/
def isNumeralChar (c : Char) : Bool := c.isDigit || "+-.eE".toList.contains c

theorem isNumeralChar_cases {c : Char} (h : isNumeralChar c = true) :
    c.isDigit = true ∨ c ∈ "+-.eE".toList := by
  rw [isNumeralChar, Bool.or_eq_true] at h
  exact h.imp id List.contains_iff_mem.mp

theorem all_chars {n : Numeral} (hn : n.WellFormed) : n.chars.all isNumeralChar = true := by
  have hdigits : ∀ {ds : List Char}, IsDigits ds → ds.all isNumeralChar = true := fun hds =>
    List.all_eq_true.mpr fun c hc => by simp [isNumeralChar, hds.2 c hc]
  have hsign : (if n.negative then ['-'] else []).all isNumeralChar = true := by
    split <;> rfl
  have hfraction : (if n.fraction.isEmpty then [] else '.' :: n.fraction).all isNumeralChar =
      true := by
    rcases hn.fraction with hnil | hds
    · rw [hnil]
      rfl
    · split
      · rfl
      · rw [List.all_cons, hdigits hds]
        rfl
  have hexponent : n.exponent.all isNumeralChar = true := by
    rcases hn.exponent with hnil | ⟨mark, sign, ds, hmark, hsign, hds, hcs⟩
    · rw [hnil]
      rfl
    · rw [hcs, List.all_cons, List.all_append, hdigits hds]
      rcases hmark with rfl | rfl <;> rcases hsign with rfl | rfl | rfl <;> rfl
  rw [chars, List.all_append, List.all_append, List.all_append, hsign, hdigits hn.whole, hfraction,
    hexponent]
  rfl

theorem isDigits_repr (n : Nat) : IsDigits n.repr.toList := by
  rw [Nat.toList_repr]
  exact ⟨Nat.toDigits_ne_nil, fun c hc => Nat.isDigit_of_mem_toDigits (by decide) (by decide) hc⟩

theorem natOfDigits_repr (n : Nat) : natOfDigits n.repr.toList = n := by
  rw [Nat.toList_repr, natOfDigits, Nat.ofDigitChars_ten_toDigits]

/-- The numeral that an integer is written as. -/
def ofInt (n : Int) : Numeral where
  negative := n < 0
  whole := n.natAbs.repr.toList
  fraction := []
  exponent := []

theorem wellFormed_ofInt (n : Int) : (ofInt n).WellFormed :=
  ⟨isDigits_repr n.natAbs, Or.inl rfl, Or.inl rfl⟩

theorem chars_ofInt (n : Int) : (ofInt n).chars = n.repr.toList := by
  cases n with
  | ofNat n =>
    have hneg : ¬ Int.ofNat n < 0 := Int.not_lt.mpr (Int.natCast_nonneg n)
    simp only [ofInt, chars, decide_eq_false hneg, List.isEmpty_nil, if_true, List.append_nil]
    rfl
  | negSucc n =>
    have hneg : Int.negSucc n < 0 := Int.negSucc_lt_zero n
    simp only [ofInt, chars, decide_eq_true hneg, List.isEmpty_nil, if_true, List.append_nil]
    rw [Int.repr, String.toList_append]
    rfl

theorem digits_yields : Yields IsDigits digits := Yields.run1 Char.isDigit

theorem fractionDigits_yields : Yields (fun ds => ds = [] ∨ IsDigits ds) fractionDigits :=
  (Yields.andThen fun _ => digits_yields.weaken fun _ h => Or.inr h).orElse
    (Yields.of_pure (Or.inl rfl))

theorem exponentSign_yields :
    Yields (fun cs => cs = [] ∨ cs = ['+'] ∨ cs = ['-']) exponentSign := by
  refine Yields.orElse ((Yields.satisfy _).bind fun c hc => Yields.of_pure ?_)
    (Yields.of_pure (Or.inl rfl))
  simp only [Bool.or_eq_true, beq_iff_eq] at hc
  rcases hc with rfl | rfl <;> simp

theorem exponentPart_yields : Yields (fun cs => cs = [] ∨ IsExponent cs) exponentPart := by
  refine Yields.orElse ((Yields.satisfy _).bind fun mark hm => exponentSign_yields.bind fun sign hs =>
    digits_yields.bind fun ds hd => Yields.of_pure (Or.inr ⟨mark, sign, ds, ?_, hs, hd, rfl⟩))
    (Yields.of_pure (Or.inl rfl))
  simpa using hm

theorem read_yields {whole : Reader (List Char)} (hw : Yields IsDigits whole) :
    Yields WellFormed (read whole) :=
  Yields.andThen fun _ => hw.bind fun _ hwhole => fractionDigits_yields.bind fun _ hf =>
    exponentPart_yields.bind fun _ he => Yields.of_pure ⟨hwhole, hf, he⟩

theorem sign_takes :
    Takes (fun negative taken => (if negative then ['-'] else []) = taken) sign :=
  Takes.orElse ((Takes.char '-').bind fun _ _ h => Takes.of_pure (by rw [h]; rfl))
    (Takes.of_pure rfl)

theorem digits_takes : Takes (fun ds taken => ds = taken) digits := Takes.run1 Char.isDigit

theorem fractionDigits_takes : Takes (fun ds taken =>
    (if ds.isEmpty then [] else '.' :: ds) = taken) fractionDigits := by
  refine Takes.orElse ((Takes.char '.').bind fun _ taken h => ?_) (Takes.of_pure rfl)
  intro text ds left hread
  obtain ⟨more, htext, rfl⟩ := digits_takes text ds left hread
  obtain ⟨hne, _⟩ := digits_yields text ds left hread
  have hempty : ¬ ds.isEmpty = true := by simpa using hne
  refine ⟨ds, htext, ?_⟩
  dsimp only
  rw [h, if_neg hempty]
  rfl

theorem exponentSign_takes : Takes (fun cs taken => cs = taken) exponentSign :=
  Takes.orElse ((Takes.satisfy _).bind fun _ _ h => Takes.of_pure (by rw [h.1]; rfl))
    (Takes.of_pure rfl)

theorem exponentPart_takes : Takes (fun cs taken => cs = taken) exponentPart :=
  Takes.orElse ((Takes.satisfy _).bind fun _ _ hm => exponentSign_takes.bind fun _ _ hs =>
    digits_takes.bind fun _ _ hd => Takes.of_pure (by simp [hm.1, hs, hd])) (Takes.of_pure rfl)

theorem read_takes {whole : Reader (List Char)} {P : List Char → Prop}
    (h : Takes (fun ds taken => ds = taken ∧ P ds) whole) :
    Takes (fun n taken => n.chars = taken ∧ P n.whole) (read whole) :=
  sign_takes.bind fun _ _ hs => h.bind fun _ _ hw => fractionDigits_takes.bind fun _ _ hf =>
    exponentPart_takes.bind fun _ _ he => Takes.of_pure (by
      rw [chars, hs, hw.1, hf, he, List.append_nil, List.append_assoc, List.append_assoc]
      exact ⟨rfl, hw.1 ▸ hw.2⟩)

end FeatureSql.Numeral
