import FeatureSql.Proofs.Expr.Shape

/-! Names, literals, calls and parenthesized expressions read back from what was written, and what
a text that starts otherwise is refused as. -/

set_option autoImplicit false

namespace FeatureSql.Sql

open Reader (Breaks breaks_cons bind_of_some bind_of_none orElse_of_none orElse_of_some)

section Refusals
variable {c : Char} {text : List Char}

theorem exactly_of_ne {m : Char} (hne : c ≠ m) (ms : List Char) :
    Reader.exactly (m :: ms) (c :: text) = none := bind_of_none (Numeral.char_of_ne hne text)

theorem symbol_of_ne {mark : String} {m : Char} {ms : List Char} (hm : mark.toList = m :: ms)
    (hg : isGap c = false) (hne : c ≠ m) : symbol mark (c :: text) = none := by
  rw [symbol, lexeme_cons hg, hm, exactly_of_ne hne]

theorem quoted_of_ne {mark : Char} (hg : isGap c = false) (hne : c ≠ mark) :
    lexeme (Quoted.read mark) (c :: text) = none := by
  rw [lexeme_cons hg, Quoted.read]
  exact bind_of_none (Numeral.char_of_ne hne text)

theorem textLiteral_of_ne (hg : isGap c = false) (hne : c ≠ '\x27') :
    textLiteral (c :: text) = none := quoted_of_ne hg hne

theorem quotedName_of_ne (hg : isGap c = false) (hne : c ≠ '\x22') :
    quotedName (c :: text) = none := quoted_of_ne hg hne

theorem backtickName_of_ne (hg : isGap c = false) (hne : c ≠ backtick) :
    backtickName (c :: text) = none := by
  rw [backtickName, lexeme_cons hg]
  exact bind_of_none (Numeral.char_of_ne hne text)

theorem numberLiteral_of_ne (hg : isGap c = false) (hd : c.isDigit = false) (hne : c ≠ '-') :
    numberLiteral (c :: text) = none :=
  numberLiteral_of_breaks (breaks_cons.mpr (by simp [hd, hne])) (breaks_cons.mpr hg)

end Refusals

namespace Expr

/-- The characters an expression is written with. -/
def chars (e : Expr) : List Char := (e.render .standard).toList

/-- What may follow a name, a literal or a call without going on with it. -/
structure Boundary (text : List Char) : Prop where
  name : Breaks isNameChar text
  quote : Breaks (fun c => c == '\x22' || c == '\x27') text
  call : symbol "(" text = none

section Readers
variable {inner : Reader Expr} {c : Char} {text : List Char}

theorem callReader_of_none (h : functionName text = none) : callReader inner text = none :=
  bind_of_none h

theorem callReader_of_ne (hg : isGap c = false) (hc : isWordStart c = false) :
    callReader inner (c :: text) = none :=
  callReader_of_none (functionName_of_breaks (breaks_cons.mpr hc) (breaks_cons.mpr hg))

theorem parenthesized_of_ne (hg : isGap c = false) (hne : c ≠ '(') :
    parenthesized inner (c :: text) = none := bind_of_none (symbol_of_ne rfl hg hne)

theorem map_of_none {α β : Type} {f : α → β} {reader : Reader α} (h : reader text = none) :
    (f <$> reader) text = none := by
  rw [Reader.map_apply, h, Option.map_none]

theorem map_of_some {α β : Type} {f : α → β} {reader : Reader α} {a : α} {left : List Char}
    (h : reader text = some (a, left)) : (f <$> reader) text = some (f a, left) := by
  rw [Reader.map_apply, h, Option.map_some]

theorem primary_gap {gap : List Char} (hg : Gap gap) (text : List Char) :
    primary inner (gap ++ text) = primary inner text := by
  have hcall : callReader inner (gap ++ text) = callReader inner text := by
    simp only [callReader, functionName, Reader.bind_apply, lexeme_gap hg]
  have hparen : parenthesized inner (gap ++ text) = parenthesized inner text := by
    simp only [parenthesized, Reader.bind_apply, symbol_gap hg]
  have hname : nameReader (gap ++ text) = nameReader text := by
    simp only [nameReader, quotedName, backtickName, bareName, Reader.orElse_apply,
      Reader.map_apply, lexeme_gap hg]
  simp only [primary, Reader.orElse_apply, Reader.map_apply, hcall, hparen, hname, numberLiteral,
    textLiteral, lexeme_gap hg]

theorem primary_text (value : String) (h : Boundary text) :
    primary inner ((Expr.text value).chars ++ text) = some (.text value, text) := by
  have hread : textLiteral ((Expr.text value).chars ++ text) = some (value, text) :=
    textLiteral_append value (h.quote.mono fun c hc => by simp [hc])
  have hchars : (Expr.text value).chars ++ text =
      '\x27' :: (Quoted.double '\x27' value.toList ++ ['\x27'] ++ text) := by
    rw [chars, render, Dialect.standard, toList_write, List.cons_append]
  rw [hchars] at hread ⊢
  rw [primary, orElse_of_none (callReader_of_ne rfl rfl),
    orElse_of_none (parenthesized_of_ne rfl (by decide)),
    orElse_of_none (map_of_none (numberLiteral_of_ne rfl rfl (by decide)))]
  exact orElse_of_some (map_of_some hread)

theorem primary_number {value : String} (hv : IsNumber value) (h : Boundary text) :
    primary inner ((Expr.number value).chars ++ text) = some (.number value, text) := by
  have hread : numberLiteral ((Expr.number value).chars ++ text) = some (value, text) :=
    numberLiteral_append hv h.name
  obtain ⟨c, cs, hcs, hc⟩ := isNumber_start hv
  have hg : isGap c = false := isGap_of_number hc
  have hstart : isWordStart c = false := by
    rcases hc with rfl | hc
    · rfl
    · exact isWordStart_of_isDigit hc
  have hparen : c ≠ '(' := by
    rintro rfl
    rcases hc with hc | hc <;> exact absurd hc (by decide)
  have hchars : (Expr.number value).chars ++ text = c :: (cs ++ text) := by
    rw [chars, render, hcs, List.cons_append]
  rw [hchars] at hread ⊢
  rw [primary, orElse_of_none (callReader_of_ne hg hstart),
    orElse_of_none (parenthesized_of_ne hg hparen)]
  exact orElse_of_some (map_of_some hread)

theorem nameReader_quoted (value : String) (h : Boundary text) :
    nameReader ((quoteName value).toList ++ text) = some (.name value, text) :=
  orElse_of_some (map_of_some (quotedName_append value (h.quote.mono fun c hc => by simp [hc])))

theorem primary_quoted (value : String) (h : Boundary text) :
    primary inner ((quoteName value).toList ++ text) = some (.name value, text) := by
  have hread := nameReader_quoted value h
  rw [quoteName, toList_write, List.cons_append] at hread ⊢
  rw [primary, orElse_of_none (callReader_of_ne rfl rfl),
    orElse_of_none (parenthesized_of_ne rfl (by decide)),
    orElse_of_none (map_of_none (numberLiteral_of_ne rfl rfl (by decide))),
    orElse_of_none (map_of_none (textLiteral_of_ne rfl (by decide)))]
  exact hread

theorem ne_of_isWordStart {d : Char} (hc : isWordStart c = true) (hd : isWordStart d = false) :
    c ≠ d := by
  rintro rfl
  rw [hc] at hd
  exact absurd hd (by decide)

theorem nameReader_bare {value : String} (hn : IsBare value.toList) (h : Boundary text) :
    nameReader (value.toList ++ text) = some (.name (normalizeConstant value), text) := by
  have hread := bareName_append hn h.name
  rw [String.ofList_toList] at hread
  obtain ⟨c, cs, hcs, hc, _⟩ := hn.start
  have hg := isGap_of_isWordChar (isWordChar_of_isWordStart hc)
  rw [hcs, List.cons_append] at hread ⊢
  rw [nameReader, orElse_of_none (map_of_none (quotedName_of_ne hg (ne_of_isWordStart hc rfl))),
    orElse_of_none (map_of_none (backtickName_of_ne hg (ne_of_isWordStart hc rfl)))]
  exact map_of_some hread

/-- Behind the first word of a name no call begins. -/
theorem callReader_bare {name : List Char} (hn : IsBare name) (h : Boundary text) :
    callReader inner (name ++ text) = none := by
  rw [callReader, bind_of_some (functionName_append hn (breaks_isWordChar h.name))]
  apply bind_of_none
  cases hd : name.dropWhile isWordChar with
  | nil => exact h.call
  | cons d ds =>
    have hmem : d ∈ name := (List.dropWhile_sublist isWordChar).subset (hd ▸ List.mem_cons_self)
    have hname := hn.all d hmem
    have hne : d ≠ '(' := by rintro rfl; exact absurd hname (by decide)
    exact symbol_of_ne rfl (isGap_of_isBlank_false (isBlank_of_isNameChar hname)) hne

theorem primary_bare {value : String} (hn : IsBare value.toList) (h : Boundary text) :
    primary inner (value.toList ++ text) = some (.name (normalizeConstant value), text) := by
  have hread := nameReader_bare hn h
  have hcall : callReader inner (value.toList ++ text) = none := callReader_bare hn h
  obtain ⟨c, cs, hcs, hc, _⟩ := hn.start
  have hg := isGap_of_isWordChar (isWordChar_of_isWordStart hc)
  rw [hcs, List.cons_append] at hread hcall ⊢
  rw [primary, orElse_of_none hcall,
    orElse_of_none (parenthesized_of_ne hg (ne_of_isWordStart hc rfl)),
    orElse_of_none (map_of_none (numberLiteral_of_ne hg (isDigit_of_isWordStart hc)
      (ne_of_isWordStart hc rfl))),
    orElse_of_none (map_of_none (textLiteral_of_ne hg (ne_of_isWordStart hc rfl)))]
  exact hread

theorem isBare_constant {value : String} (hv : value ∈ ["NULL", "TRUE", "FALSE"]) :
    IsBare value.toList ∧ normalizeConstant value = value := by
  simp only [List.mem_cons, List.not_mem_nil, or_false] at hv
  rcases hv with rfl | rfl | rfl
  · exact ⟨⟨⟨'N', ['U', 'L', 'L'], rfl, rfl, List.all_eq_true.mp rfl⟩, rfl⟩, rfl⟩
  · exact ⟨⟨⟨'T', ['R', 'U', 'E'], rfl, rfl, List.all_eq_true.mp rfl⟩, rfl⟩, rfl⟩
  · exact ⟨⟨⟨'F', ['A', 'L', 'S', 'E'], rfl, rfl, List.all_eq_true.mp rfl⟩, rfl⟩, rfl⟩

theorem isConstant_of_isBareName {name : List Char} (h : isBareName name = true) :
    isConstant name = false := by
  cases name with
  | nil => exact absurd h (by decide)
  | cons c cs =>
    simp only [isBareName, Bool.and_eq_true, Bool.not_eq_true'] at h
    exact h.2

/-- What a name is written as: bare words as they are, and everything else in quotes. -/
theorem writeName_cases (value : String) :
    (IsBare value.toList ∧ normalizeConstant value = value ∧ writeName value = value) ∨
      writeName value = quoteName value := by
  by_cases hb : isBareName value.toList = true
  · have hnormal : normalizeConstant value = value := by
      rw [normalizeConstant, isConstant_of_isBareName hb, if_neg (by decide)]
    exact Or.inl ⟨isBare_of_isBareName hb, hnormal, by rw [writeName, if_pos hb]⟩
  · exact Or.inr (by rw [writeName, if_neg hb])

theorem primary_writeName (value : String) (h : Boundary text) :
    primary inner ((writeName value).toList ++ text) = some (.name value, text) := by
  rcases writeName_cases value with ⟨hbare, hnormal, hwrite⟩ | hwrite
  · rw [hwrite, primary_bare hbare h, hnormal]
  · rw [hwrite, primary_quoted value h]

/-- An expression's name that is written without quotes: a constant, or a bare name. -/
def standsBare (value : String) : Bool :=
  value ∈ ["NULL", "TRUE", "FALSE"] || isBareName value.toList

theorem chars_of_standsBare {value : String} (h : standsBare value = true) :
    IsBare value.toList ∧ normalizeConstant value = value ∧
      (Expr.name value).chars = value.toList := by
  by_cases hv : value ∈ ["NULL", "TRUE", "FALSE"]
  · obtain ⟨hbare, hnormal⟩ := isBare_constant hv
    exact ⟨hbare, hnormal, by rw [chars, render, if_pos hv]⟩
  · have hbare : isBareName value.toList = true := by
      simpa [standsBare, hv] using h
    have hnormal : normalizeConstant value = value := by
      rw [normalizeConstant, isConstant_of_isBareName hbare, if_neg (by decide)]
    exact ⟨isBare_of_isBareName hbare, hnormal, by
      rw [chars, render, if_neg hv, writeName, if_pos hbare]⟩

theorem chars_of_not_standsBare {value : String} (h : standsBare value = false) :
    (Expr.name value).chars = (quoteName value).toList := by
  simp only [standsBare, Bool.or_eq_false_iff, decide_eq_false_iff_not] at h
  rw [chars, render, if_neg h.1, writeName, if_neg (by simp [h.2])]

theorem chars_name (value : String) :
    (IsBare value.toList ∧ normalizeConstant value = value ∧
      (Expr.name value).chars = value.toList) ∨
    (Expr.name value).chars = (quoteName value).toList := by
  cases h : standsBare value with
  | true => exact Or.inl (chars_of_standsBare h)
  | false => exact Or.inr (chars_of_not_standsBare h)

theorem primary_name (value : String) (h : Boundary text) :
    primary inner ((Expr.name value).chars ++ text) = some (.name value, text) := by
  rcases chars_name value with ⟨hbare, hnormal, hchars⟩ | hchars
  · rw [hchars, primary_bare hbare h, hnormal]
  · rw [hchars, primary_quoted value h]

theorem isBare_of_isFunctionName {function : String} (hf : IsFunctionName function) :
    IsBare function.toList ∧ function.toList.takeWhile isWordChar = function.toList ∧
      function.toList.dropWhile isWordChar = [] := by
  have hall : ∀ d ∈ function.toList, isWordChar d = true := by
    obtain ⟨c, cs, hcs, hc, hword⟩ := hf.start
    intro d hd
    rw [hcs] at hd
    rcases List.mem_cons.mp hd with rfl | hd
    · exact isWordChar_of_isWordStart hc
    · exact hword d hd
  have htake := Reader.takeWhile_append_of_breaks hall (Breaks.nil _)
  have hdrop := Reader.dropWhile_append_of_breaks hall (Breaks.nil _)
  rw [List.append_nil] at htake hdrop
  obtain ⟨c, cs, hcs, hc, hword⟩ := hf.start
  have hfree : isReserved (function.toList.takeWhile isWordChar) = false := by
    rw [htake]
    exact hf.free
  exact ⟨⟨⟨c, cs, hcs, hc, fun d hd => isNameChar_of_isWordChar (hword d hd)⟩, hfree⟩,
    htake, hdrop⟩

theorem functionName_call {function : String} (hf : IsFunctionName function) :
    functionName (function.toList ++ '(' :: text) = some (function, '(' :: text) := by
  obtain ⟨hbare, htake, hdrop⟩ := isBare_of_isFunctionName hf
  have hread := functionName_append hbare (breaks_cons.mpr rfl : Breaks isWordChar ('(' :: text))
  rw [htake, hdrop, String.ofList_toList] at hread
  exact hread

theorem primary_call {function : String} {sql : List Char} {as : List Expr}
    (hf : IsFunctionName function)
    (h : arguments inner (sql ++ ')' :: text) = some (as, ')' :: text)) :
    primary inner (function.toList ++ '(' :: (sql ++ ')' :: text)) = some (.call function as, text) := by
  apply orElse_of_some
  have hopen : symbol "(" ('(' :: (sql ++ ')' :: text)) = some ((), sql ++ ')' :: text) := rfl
  rw [callReader, bind_of_some (functionName_call hf), bind_of_some hopen, bind_of_some h]
  rfl

theorem primary_parens {sql : List Char} {e : Expr}
    (h : inner (sql ++ ')' :: text) = some (e, ')' :: text)) :
    primary inner ('(' :: (sql ++ ')' :: text)) = some (e, text) := by
  have hopen : symbol "(" ('(' :: (sql ++ ')' :: text)) = some ((), sql ++ ')' :: text) := rfl
  rw [primary, orElse_of_none (callReader_of_ne rfl rfl)]
  apply orElse_of_some
  rw [parenthesized, bind_of_some hopen, bind_of_some h]
  rfl

theorem isReserved_start {word : List Char} (h : isReserved word = true) :
    ∃ c cs, word = c :: cs ∧ isWordStart c = true := by
  have hlist : reservedWords.all (fun w => w.head?.any Char.isAlpha) = true := by decide
  simp only [isReserved, List.contains_eq_mem, decide_eq_true_eq] at h
  have hw := List.all_eq_true.mp hlist _ h
  cases word with
  | nil => exact absurd hw (by decide)
  | cons c cs =>
    refine ⟨c, cs, rfl, (isWordStart_iff c).mpr (Or.inl ?_)⟩
    simp only [lower, List.map_cons, List.head?_cons, Option.any_some] at hw
    rcases toLower_cases c with hlow | halpha
    · rwa [hlow] at hw
    · exact halpha

/-- A text that goes on with a reserved word, cut where the word starts. -/
theorem reserved_start (h : isReserved (nextWord text) = true) : ∃ gap c cs,
    text = gap ++ c :: cs ∧ Gap gap ∧ isWordStart c = true := by
  obtain ⟨c, cs, hcs, hc⟩ := isReserved_start h
  unfold nextWord at hcs
  cases hd : text.dropWhile isGap with
  | nil => exact absurd (hd ▸ hcs) (by simp)
  | cons d ds =>
    rw [hd, List.takeWhile_cons] at hcs
    split at hcs
    · have hdc := (List.cons.inj hcs).1
      refine ⟨text.takeWhile isGap, d, ds, ?_, List.all_eq_true.mp List.all_takeWhile, hdc ▸ hc⟩
      rw [← hd, List.takeWhile_append_dropWhile]
    · cases hcs

/-- No value starts with a reserved word. -/
theorem primary_of_reserved (h : isReserved (nextWord text) = true) : primary inner text = none := by
  obtain ⟨gap, c, cs, rfl, hgap, hc⟩ := reserved_start h
  rw [nextWord_gap hgap] at h
  have hg := isGap_of_isWordChar (isWordChar_of_isWordStart hc)
  rw [primary_gap hgap, primary, orElse_of_none (callReader_of_none (functionName_of_reserved h)),
    orElse_of_none (parenthesized_of_ne hg (ne_of_isWordStart hc rfl)),
    orElse_of_none (map_of_none (numberLiteral_of_ne hg (isDigit_of_isWordStart hc)
      (ne_of_isWordStart hc rfl))),
    orElse_of_none (map_of_none (textLiteral_of_ne hg (ne_of_isWordStart hc rfl))),
    nameReader, orElse_of_none (map_of_none (quotedName_of_ne hg (ne_of_isWordStart hc rfl))),
    orElse_of_none (map_of_none (backtickName_of_ne hg (ne_of_isWordStart hc rfl)))]
  exact map_of_none (bareName_of_reserved h)

end Readers
end Expr
end FeatureSql.Sql
