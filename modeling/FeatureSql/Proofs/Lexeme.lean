import FeatureSql.Proofs.Character
import FeatureSql.Proofs.Numeral

/-! Lexemes that were written read back, whatever follows them as long as it does not go on
with them. -/

set_option autoImplicit false

namespace FeatureSql.Sql

open Reader (Breaks breaks_cons bind_of_some bind_of_none orElse_of_none orElse_of_some Yields)

/-- What may stand in front of a lexeme. -/
def Gap (gap : List Char) : Prop := ∀ c ∈ gap, isGap c = true

theorem Gap.nil : Gap [] := by simp [Gap]

theorem Gap.blank : Gap [' '] := by simp [Gap, isGap]

section Gaps
variable {α : Type} {reader : Reader α} {gap text : List Char}

theorem lexeme_gap (hg : Gap gap) (text : List Char) :
    lexeme reader (gap ++ text) = lexeme reader text := by
  simp only [lexeme, Reader.after, List.dropWhile_append_of_pos hg]

theorem lexeme_of_breaks (h : Breaks isGap text) : lexeme reader text = reader text := by
  simp only [lexeme, Reader.after, Reader.dropWhile_of_breaks h]

theorem lexeme_cons {c : Char} (hc : isGap c = false) :
    lexeme reader (c :: text) = reader (c :: text) :=
  lexeme_of_breaks (breaks_cons.mpr hc)

end Gaps

/-- The word a text goes on with, if any. -/
def nextWord (text : List Char) : List Char := (text.dropWhile isGap).takeWhile isWordChar

theorem nextWord_gap {gap : List Char} (hg : Gap gap) (text : List Char) :
    nextWord (gap ++ text) = nextWord text := by
  simp only [nextWord, List.dropWhile_append_of_pos hg]

theorem breaks_isGap_word {word : List Char} (hw : ∀ c ∈ word, isWordChar c = true)
    (hne : word ≠ []) (text : List Char) : Breaks isGap (word ++ text) := by
  cases word with
  | nil => exact absurd rfl hne
  | cons c word => exact breaks_cons.mpr (isGap_of_isWordChar (hw c List.mem_cons_self))

theorem nextWord_append {word text : List Char} (hw : ∀ c ∈ word, isWordChar c = true)
    (hne : word ≠ []) (h : Breaks isWordChar text) : nextWord (word ++ text) = word := by
  rw [nextWord, Reader.dropWhile_of_breaks (breaks_isGap_word hw hne text),
    Reader.takeWhile_append_of_breaks hw h]

theorem keyword_apply (word : String) (text : List Char) :
    keyword word text = if lower (nextWord text) = word.toList then
      some ((), (text.dropWhile isGap).dropWhile isWordChar) else none := by
  have hrun : Reader.run isWordChar (text.dropWhile isGap) =
      some (nextWord text, (text.dropWhile isGap).dropWhile isWordChar) := rfl
  have hkeyword : keyword word text = (guard (lower (nextWord text) = word.toList) : Reader Unit)
      ((text.dropWhile isGap).dropWhile isWordChar) := bind_of_some hrun
  rw [hkeyword]
  by_cases h : lower (nextWord text) = word.toList
  · have hguard : (guard (lower (nextWord text) = word.toList) : Reader Unit) = pure () := if_pos h
    rw [hguard, if_pos h]
    rfl
  · have hguard : (guard (lower (nextWord text) = word.toList) : Reader Unit) = failure := if_neg h
    rw [hguard, if_neg h]
    rfl

theorem keyword_of_ne {word : String} {text : List Char}
    (h : lower (nextWord text) ≠ word.toList) : keyword word text = none := by
  rw [keyword_apply, if_neg h]

theorem keyword_append {word : String} {spelling gap text : List Char}
    (hs : ∀ c ∈ spelling, isWordChar c = true) (hne : spelling ≠ [])
    (hw : lower spelling = word.toList) (hg : Gap gap) (h : Breaks isWordChar text) :
    keyword word (gap ++ (spelling ++ text)) = some ((), text) := by
  rw [keyword_apply, nextWord_gap hg, nextWord_append hs hne h, if_pos hw,
    List.dropWhile_append_of_pos hg, Reader.dropWhile_of_breaks (breaks_isGap_word hs hne text),
    Reader.dropWhile_append_of_breaks hs h]

theorem keyword_gap {gap : List Char} (hg : Gap gap) (word : String) (text : List Char) :
    keyword word (gap ++ text) = keyword word text := lexeme_gap hg text

theorem symbol_gap {gap : List Char} (hg : Gap gap) (mark : String) (text : List Char) :
    symbol mark (gap ++ text) = symbol mark text := lexeme_gap hg text

theorem sign_gap {gap : List Char} (hg : Gap gap) (signs : List String) (text : List Char) :
    sign signs (gap ++ text) = sign signs text := lexeme_gap hg text

theorem segments_eq (isSeparator : Char → Bool) (cs : List Char) :
    ∃ words, segments isSeparator cs = cs.takeWhile (fun c => !isSeparator c) :: words := by
  induction cs with
  | nil => exact ⟨[], rfl⟩
  | cons c cs ih =>
    obtain ⟨words, hw⟩ := ih
    by_cases hc : isSeparator c = true
    · exact ⟨segments isSeparator cs, by simp [segments, hc]⟩
    · exact ⟨words, by simp [segments, hc, hw]⟩

theorem isReserved_first {isSeparator : Char → Bool} {name : List Char}
    (h : hasReservedSegment isSeparator name = false) :
    isReserved (name.takeWhile fun c => !isSeparator c) = false := by
  obtain ⟨words, hw⟩ := segments_eq isSeparator name
  rw [hasReservedSegment, hw, List.any_cons, Bool.or_eq_false_iff] at h
  exact h.1

/-- Where a separator is no word character, a name's first segment is the word it starts with. -/
theorem takeWhile_isWordChar (isSeparator : Char → Bool) {name : List Char}
    (hn : ∀ c ∈ name, isWordChar c = true ∨ isSeparator c = true)
    (hs : ∀ c, isSeparator c = true → isWordChar c = false) :
    name.takeWhile (fun c => !isSeparator c) = name.takeWhile isWordChar := by
  induction name with
  | nil => rfl
  | cons c name ih =>
    have ih := ih fun d hd => hn d (List.mem_cons_of_mem c hd)
    have hiff : (!isSeparator c) = isWordChar c := by
      rcases hn c List.mem_cons_self with hw | hsep
      · cases hsep : isSeparator c with
        | false => rw [hw]; rfl
        | true => rw [hs c hsep] at hw; exact absurd hw (by decide)
      · rw [hsep, hs c hsep]; rfl
    simp only [List.takeWhile_cons, hiff, ih]

/-- A name that reads back when it is written bare. -/
structure IsBare (name : List Char) : Prop where
  start : ∃ c cs, name = c :: cs ∧ isWordStart c = true ∧ ∀ d ∈ cs, isNameChar d = true
  free : isReserved (name.takeWhile isWordChar) = false

theorem IsBare.all {name : List Char} (h : IsBare name) : ∀ c ∈ name, isNameChar c = true := by
  obtain ⟨c, cs, rfl, hc, hcs⟩ := h.start
  intro d hd
  rcases List.mem_cons.mp hd with rfl | hd
  · exact isNameChar_of_isWordChar (isWordChar_of_isWordStart hc)
  · exact hcs d hd

theorem isBare_of_isBareName {name : List Char} (h : isBareName name = true) : IsBare name := by
  cases name with
  | nil => exact absurd h (by decide)
  | cons c cs =>
    simp only [isBareName, Bool.and_eq_true, Bool.not_eq_true', List.all_eq_true] at h
    obtain ⟨⟨⟨hc, hcs⟩, hr⟩, _⟩ := h
    have hstart : ∃ d ds, c :: cs = d :: ds ∧ isWordStart d = true ∧ ∀ x ∈ ds, isNameChar x = true :=
      ⟨c, cs, rfl, hc, hcs⟩
    refine ⟨hstart, ?_⟩
    rw [← takeWhile_isWordChar isDot]
    · exact isReserved_first hr
    · intro d hd
      rcases List.mem_cons.mp hd with rfl | hd
      · exact Or.inl (isWordChar_of_isWordStart hc)
      · simpa [isNameChar] using hcs d hd
    · intro d hd
      simp only [isDot, beq_iff_eq] at hd
      subst hd
      rfl

theorem notReserved_of_free {text : List Char} (h : isReserved (text.takeWhile isWordChar) = false) :
    notReserved text = some ((), text) := by
  simp [notReserved, h]

theorem notReserved_of_reserved {text : List Char}
    (h : isReserved (text.takeWhile isWordChar) = true) : notReserved text = none := by
  simp [notReserved, h]

theorem breaks_isWordChar {text : List Char} (h : Breaks isNameChar text) :
    Breaks isWordChar text := h.mono fun _ => isNameChar_of_isWordChar

theorem satisfy_cons {p : Char → Bool} {c : Char} (hc : p c = true) (text : List Char) :
    Reader.satisfy p (c :: text) = some (c, text) := by
  simp [Reader.satisfy, hc]

theorem satisfy_of_breaks {p : Char → Bool} {text : List Char} (h : Breaks p text) :
    Reader.satisfy p text = none := by
  cases text with
  | nil => rfl
  | cons c text => simp [Reader.satisfy, breaks_cons.mp h]

theorem bareName_append {name : List Char} (hn : IsBare name) {text : List Char}
    (h : Breaks isNameChar text) : bareName (name ++ text) = some (String.ofList name, text) := by
  have hfree := hn.free
  obtain ⟨c, cs, rfl, hc, hcs⟩ := hn.start
  rw [List.cons_append] at *
  rw [bareName, lexeme_cons (isGap_of_isWordChar (isWordChar_of_isWordStart hc))]
  rw [← Reader.takeWhile_append (breaks_isWordChar h), List.cons_append] at hfree
  rw [bind_of_some (notReserved_of_free hfree), bind_of_some (satisfy_cons hc _)]
  exact bind_of_some (Reader.run_append hcs h)

/-- A call's function is read as far as the first word of a name goes. -/
theorem functionName_append {name : List Char} (hn : IsBare name) {text : List Char}
    (h : Breaks isWordChar text) : functionName (name ++ text) =
      some (String.ofList (name.takeWhile isWordChar), name.dropWhile isWordChar ++ text) := by
  have hfree := hn.free
  obtain ⟨c, cs, rfl, hc, hcs⟩ := hn.start
  have hw := isWordChar_of_isWordStart hc
  rw [functionName, List.cons_append, lexeme_cons (isGap_of_isWordChar hw)]
  rw [← Reader.takeWhile_append h, List.cons_append] at hfree
  have hrun : Reader.run isWordChar (cs ++ text) =
      some (cs.takeWhile isWordChar, cs.dropWhile isWordChar ++ text) := by
    rw [← Reader.takeWhile_append h, ← Reader.dropWhile_append h]
    rfl
  rw [bind_of_some (notReserved_of_free hfree), bind_of_some (satisfy_cons hc _), bind_of_some hrun]
  simp only [List.takeWhile_cons, List.dropWhile_cons, hw, if_true]
  rfl

/-- No name starts with a reserved word. -/
theorem bareName_of_reserved {text : List Char} (h : isReserved (nextWord text) = true) :
    bareName text = none := bind_of_none (notReserved_of_reserved h)

theorem functionName_of_reserved {text : List Char} (h : isReserved (nextWord text) = true) :
    functionName text = none := bind_of_none (notReserved_of_reserved h)

theorem bareName_of_breaks {text : List Char} (h : Breaks isWordStart text)
    (hg : Breaks isGap text) : bareName text = none := by
  rw [bareName, lexeme_of_breaks hg, Reader.bind_apply]
  by_cases hr : isReserved (text.takeWhile isWordChar) = true
  · rw [notReserved_of_reserved hr, Option.bind_none]
  · rw [notReserved_of_free (by simpa using hr), Option.bind_some]
    exact bind_of_none (satisfy_of_breaks h)

theorem functionName_of_breaks {text : List Char} (h : Breaks isWordStart text)
    (hg : Breaks isGap text) : functionName text = none := by
  rw [functionName, lexeme_of_breaks hg, Reader.bind_apply]
  by_cases hr : isReserved (text.takeWhile isWordChar) = true
  · rw [notReserved_of_reserved hr, Option.bind_none]
  · rw [notReserved_of_free (by simpa using hr), Option.bind_some]
    exact bind_of_none (satisfy_of_breaks h)

theorem close_cons_of_ne {mark c : Char} (hc : c ≠ mark) (text : List Char) :
    Quoted.close mark (c :: text) = (Quoted.close mark text).map fun p => (c :: p.1, p.2) := by
  cases text <;> simp [Quoted.close, hc]

theorem close_append {mark : Char} (cs : List Char) {text : List Char}
    (h : Breaks (· == mark) text) :
    Quoted.close mark (Quoted.double mark cs ++ mark :: text) = some (cs, text) := by
  induction cs with
  | nil =>
    cases text with
    | nil => simp [Quoted.double, Quoted.close]
    | cons d text =>
      have hd : d ≠ mark := by simpa using breaks_cons.mp h
      simp [Quoted.double, Quoted.close, hd]
  | cons c cs ih =>
    by_cases hc : c = mark
    · subst hc
      simp [Quoted.double, Quoted.close, ih]
    · simp [Quoted.double, close_cons_of_ne, hc, ih]

theorem toList_write (mark : Char) (value : String) :
    (Quoted.write mark value).toList = mark :: (Quoted.double mark value.toList ++ [mark]) :=
  String.toList_ofList

theorem read_write {mark : Char} (value : String) {text : List Char}
    (h : Breaks (· == mark) text) :
    Quoted.read mark ((Quoted.write mark value).toList ++ text) = some (value, text) := by
  rw [toList_write, List.cons_append, List.append_assoc, List.singleton_append, Quoted.read,
    bind_of_some (Numeral.char_self mark _), bind_of_some (close_append value.toList h),
    String.ofList_toList]
  rfl

theorem textLiteral_append (value : String) {text : List Char} (h : Breaks (· == '\x27') text) :
    textLiteral ((Quoted.write '\x27' value).toList ++ text) = some (value, text) := by
  have hread := read_write value h
  rw [toList_write] at hread ⊢
  exact hread

theorem quotedName_append (value : String) {text : List Char} (h : Breaks (· == '\x22') text) :
    quotedName ((quoteName value).toList ++ text) = some (value, text) := by
  have hread := read_write value h
  rw [quoteName, toList_write] at *
  exact hread

/-- The text of a number of SQL. -/
def IsNumber (value : String) : Prop := ∃ n : Numeral, n.WellFormed ∧ value.toList = n.chars

theorem isNumber_start {value : String} (h : IsNumber value) :
    ∃ c cs, value.toList = c :: cs ∧ (c = '-' ∨ c.isDigit = true) := by
  obtain ⟨n, hn, hv⟩ := h
  rw [hv, Numeral.chars]
  cases hneg : n.negative with
  | true => exact ⟨'-', _, rfl, Or.inl rfl⟩
  | false =>
    obtain ⟨hne, hall⟩ := hn.whole
    cases hw : n.whole with
    | nil => exact absurd hw hne
    | cons d ds => exact ⟨d, _, rfl, Or.inr (hall d (hw ▸ List.mem_cons_self))⟩

theorem isNumeralChar_of_isNumber {value : String} (h : IsNumber value) :
    ∀ c ∈ value.toList, Numeral.isNumeralChar c = true := by
  obtain ⟨n, hn, hv⟩ := h
  rw [hv]
  exact List.all_eq_true.mp (Numeral.all_chars hn)

theorem mayContinue_name {c : Char} (h : Numeral.mayContinue c = true) : isNameChar c = true := by
  simp only [Numeral.mayContinue, Bool.or_eq_true, beq_iff_eq] at h
  rcases h with ((h | rfl) | rfl) | rfl
  · exact isNameChar_of_isWordChar (isWordChar_of_isDigit h)
  all_goals rfl

theorem isGap_of_number {c : Char} (h : c = '-' ∨ c.isDigit = true) : isGap c = false := by
  rcases h with rfl | h
  · rfl
  · exact isGap_of_isWordChar (isWordChar_of_isDigit h)

theorem numberLiteral_append {value : String} (hv : IsNumber value) {text : List Char}
    (h : Breaks isNameChar text) : numberLiteral (value.toList ++ text) = some (value, text) := by
  obtain ⟨c, cs, hcs, hc⟩ := isNumber_start hv
  obtain ⟨n, hn, hchars⟩ := hv
  have hread : Numeral.read Numeral.digits (n.chars ++ text) = some (n, text) :=
    Numeral.read_append hn (fun rest => Numeral.digits_append hn.whole)
      (h.mono fun _ => mayContinue_name)
  rw [← hchars, hcs] at hread
  rw [hcs, numberLiteral, List.cons_append, lexeme_cons (isGap_of_number hc)]
  rw [List.cons_append] at hread
  rw [bind_of_some hread, ← hchars, String.ofList_toList]
  rfl

theorem numberLiteral_of_breaks {text : List Char} (h : Breaks (fun c => c.isDigit || c == '-') text)
    (hg : Breaks isGap text) : numberLiteral text = none := by
  have hdigits : Numeral.digits text = none :=
    Reader.run1_of_breaks (h.mono fun c hc => by simp [hc])
  have hsign : Numeral.sign text = some (false, text) := by
    cases text with
    | nil => rfl
    | cons c text =>
      have hc := breaks_cons.mp h
      have hne : c ≠ '-' := by rintro rfl; exact absurd hc (by decide)
      exact orElse_of_none (bind_of_none (Numeral.char_of_ne hne text))
  rw [numberLiteral, lexeme_of_breaks hg, Numeral.read]
  apply bind_of_none
  rw [bind_of_some hsign, bind_of_none hdigits]

theorem numberLiteral_yields : Yields IsNumber numberLiteral :=
  Yields.after ((Numeral.read_yields Numeral.digits_yields).bind fun n hn =>
    Yields.of_pure ⟨n, hn, String.toList_ofList⟩)

end FeatureSql.Sql
