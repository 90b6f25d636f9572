import FeatureSql.Proofs.Expr.Label
import FeatureSql.Proofs.Trim

/-! Texts of expressions: no blank stands at their ends, and blanks aside only `1=1` itself is
written as `1=1`. -/

set_option autoImplicit false

namespace FeatureSql.Sql

theorem isBlank_of_isNumeralChar {c : Char} (h : Numeral.isNumeralChar c = true) :
    isBlank c = false := by
  have hmarks : "+-.eE".toList.all (fun c => !isBlank c) = true := rfl
  rcases Numeral.isNumeralChar_cases h with hdigit | hmark
  · exact isBlank_of_isWordChar (isWordChar_of_isDigit hdigit)
  · simpa using List.all_eq_true.mp hmarks c hmark

theorem solid_write {mark : Char} (hm : isBlank mark = false) (value : String) :
    Solid (Quoted.write mark value).toList := by
  rw [toList_write]
  exact Solid.ends hm hm _

theorem solid_bare {name : List Char} (h : IsBare name) : Solid name := by
  refine Solid.of_forall ?_ fun c hc => isBlank_of_isNameChar (h.all c hc)
  obtain ⟨c, cs, rfl, _⟩ := h.start
  simp

theorem solid_writeName (value : String) : Solid (writeName value).toList := by
  rcases Expr.writeName_cases value with ⟨hbare, _, hwrite⟩ | hwrite
  · rw [hwrite]
    exact solid_bare hbare
  · rw [hwrite]
    exact solid_write rfl value

theorem solid_number {value : String} (h : IsNumber value) : Solid value.toList := by
  refine Solid.of_forall ?_ fun c hc => isBlank_of_isNumeralChar (isNumeralChar_of_isNumber h c hc)
  obtain ⟨c, cs, hcs, _⟩ := isNumber_start h
  simp [hcs]

namespace Expr

theorem solid_operand {e : Expr} (h : Solid e.chars) (needed : Bool) :
    Solid (operandChars needed e) := by
  cases needed with
  | true =>
    rw [operandChars_true]
    exact Solid.ends rfl rfl e.chars
  | false => exact h

theorem solid_comparison (operator : String) {left right : Expr} (hl : Solid left.chars)
    (hr : Solid right.chars) : Solid (Expr.comparison operator left right).chars := by
  rw [chars_comparison, ← List.append_assoc operator.toList, ← List.append_assoc (operatorGap _).toList]
  exact (solid_operand hl _).append (solid_operand hr _) _

theorem solid_word : Solid "NOT".toList :=
  ⟨⟨'N', ['O', 'T'], rfl, rfl⟩, ⟨['N', 'O'], 'T', rfl, rfl⟩⟩

theorem WellFormedAt.solid {place : Place} {e : Expr} (h : WellFormedAt place e) :
    Solid e.chars := by
  induction h with
  | name value =>
    rcases chars_name value with ⟨hbare, _, hchars⟩ | hchars
    · rw [hchars]
      exact solid_bare hbare
    · rw [hchars]
      exact solid_write rfl value
  | text value => exact solid_write rfl value
  | number hv => exact solid_number hv
  | @call function as hf _ _ =>
    have hrest : Solid (callRest as) := Solid.ends rfl rfl _
    have hfunction := solid_bare (isBare_of_isFunctionName hf).1
    rw [chars_call]
    exact hfunction.append hrest []
  | not _ ih =>
    rw [chars_not]
    exact solid_word.append (solid_operand ih _) [' ']
  | @logical operator left right _ _ ihl ihr =>
    have hmid : ∀ rest, ' ' :: operator.word.toList ++ ' ' :: rest =
        (' ' :: operator.word.toList ++ [' ']) ++ rest := by simp
    rw [chars_logical, hmid]
    exact (solid_operand ihl _).append (solid_operand ihr _) _
  | comparison _ _ _ ihl ihr => exact solid_comparison _ ihl ihr
  | membership _ _ _ ihl ihr => exact solid_comparison _ ihl ihr
  | @list items _ _ _ =>
    have hsolid : Solid ('(' :: ((commas (renderAll .standard items)).toList ++ [')'])) :=
      Solid.ends rfl rfl _
    have hchars : (Expr.list items).chars =
        '(' :: ((commas (renderAll .standard items)).toList ++ [')']) := by
      rw [chars, render]
      simp
    rw [hchars]
    exact hsolid
  | star => exact ⟨⟨'*', [], rfl, rfl⟩, ⟨[], '*', rfl, rfl⟩⟩
  | @named label value _ ih =>
    have hlabel : Solid (Quoted.write '\x27' label).toList := solid_write rfl label
    have hchars : (Expr.named label value).chars =
        (Quoted.write '\x27' label).toList ++ (['='] ++ value.chars) := by
      rw [chars, render]
      simp [chars, Dialect.standard]
    rw [hchars]
    exact hlabel.append ih ['=']
  | positional _ ih => exact ih

/-- The characters of a text that are no blanks. -/
def ink (cs : List Char) : List Char := cs.filter fun c => !isBlank c

theorem toList_squeeze (text : String) : (squeeze text).toList = ink text.toList :=
  String.toList_ofList

/-- What only blanks, ones and equals signs are written with. -/
def isSparse (c : Char) : Bool := isBlank c || c == '1' || c == '='

theorem isSparse_operator : ∀ operator ∈ binaryOperators ++ listOperators,
    operator.toList.all isSparse = true → operator = "=" := by decide +kernel

theorem isSparse_of_ink {cs : List Char} (h : (ink cs).all isSparse = true) :
    cs.all isSparse = true := by
  apply List.all_eq_true.mpr
  intro c hc
  cases hb : isBlank c with
  | true => simp [isSparse, hb]
  | false => exact List.all_eq_true.mp h c (List.mem_filter.mpr ⟨hc, by simp [hb]⟩)

theorem operandChars_of_sparse {e : Expr} {needed : Bool}
    (h : (operandChars needed e).all isSparse = true) : operandChars needed e = e.chars := by
  cases needed with
  | true =>
    have hopen : isSparse '(' = false := rfl
    rw [operandChars_true, List.all_cons, hopen] at h
    cases h
  | false => rfl

theorem isSparse_of_isWordStart {c : Char} (h : isWordStart c = true) : isSparse c = false := by
  have hone : c ≠ '1' := by rintro rfl; exact absurd h (by decide)
  have hequals : c ≠ '=' := by rintro rfl; exact absurd h (by decide)
  simp [isSparse, isBlank_of_isWordChar (isWordChar_of_isWordStart h), hone, hequals]

theorem not_sparse_cons {c : Char} {rest : List Char} (hc : isSparse c = false) :
    ¬ (c :: rest).all isSparse = true := by simp [hc]

theorem not_sparse_bare {name : List Char} (h : IsBare name) (rest : List Char) :
    ¬ (name ++ rest).all isSparse = true := by
  obtain ⟨c, cs, rfl, hc, _⟩ := h.start
  exact not_sparse_cons (isSparse_of_isWordStart hc)

/-- An expression written with so few characters is a number, or a test for equality. -/
theorem sparse_cases {e : Expr} (h : e.WellFormed) (hs : e.chars.all isSparse = true) :
    (∃ value, e = .number value ∧ IsNumber value) ∨
      ∃ left right, e = .comparison "=" left right ∧ left.WellFormed ∧ right.WellFormed ∧
        e.chars = left.chars ++ '=' :: right.chars := by
  cases h with
  | name value =>
    rcases chars_name value with ⟨hbare, _, hchars⟩ | hchars
    · rw [hchars, ← List.append_nil value.toList] at hs
      exact absurd hs (not_sparse_bare hbare [])
    · rw [hchars, quoteName, toList_write] at hs
      exact absurd hs (not_sparse_cons rfl)
  | text value =>
    rw [chars, render, Dialect.standard, toList_write] at hs
    exact absurd hs (not_sparse_cons rfl)
  | number hv => exact Or.inl ⟨_, rfl, hv⟩
  | call hf _ =>
    rw [chars_call] at hs
    exact absurd hs (not_sparse_bare (isBare_of_isFunctionName hf).1 _)
  | not _ =>
    rw [chars_not] at hs
    exact absurd hs (not_sparse_cons rfl)
  | logical operator =>
    rw [chars_logical] at hs
    simp only [List.all_append, Bool.and_eq_true] at hs
    have hword : ¬ (' ' :: operator.word.toList).all isSparse = true := by cases operator <;> decide
    exact absurd hs.2.1 hword
  | @comparison operator left right hop hl hr =>
    have hparts := hs
    rw [chars_comparison] at hparts
    simp only [List.all_append, Bool.and_eq_true] at hparts
    obtain rfl := isSparse_operator operator (List.mem_append_left _ hop) hparts.2.2.1
    have hchars := chars_sign left right (show "=" ∈ comparisonSigns by decide)
    rw [hchars] at hs
    simp only [List.all_append, Bool.and_eq_true] at hs
    rw [operandChars_of_sparse hs.1, operandChars_of_sparse hs.2.2] at hchars
    exact Or.inr ⟨left, right, rfl, hl, hr, hchars⟩
  | @membership operator left right hop _ _ =>
    rw [chars_comparison] at hs
    simp only [List.all_append, Bool.and_eq_true] at hs
    obtain rfl := isSparse_operator operator (List.mem_append_right _ hop) hs.2.2.1
    exact absurd hop (by decide)

theorem ink_append (first second : List Char) : ink (first ++ second) = ink first ++ ink second :=
  List.filter_append first second

theorem ink_number {value : String} (h : IsNumber value) : ink value.toList = value.toList :=
  List.filter_eq_self.mpr fun c hc => by
    simp [isBlank_of_isNumeralChar (isNumeralChar_of_isNumber h c hc)]

theorem ink_equals (first second : List Char) :
    ink (first ++ '=' :: second) = ink first ++ '=' :: ink second := by
  rw [ink_append]
  rfl

theorem not_mem_number {value : String} (h : IsNumber value) : '=' ∉ value.toList := by
  intro hmem
  exact absurd (isNumeralChar_of_isNumber h '=' hmem) (by decide)

theorem eq_one_of_ink {e : Expr} (h : e.WellFormed) (hink : ink e.chars = ['1']) :
    e = .number "1" := by
  rcases sparse_cases h (isSparse_of_ink (by rw [hink]; rfl)) with ⟨value, rfl, hv⟩ |
    ⟨left, right, rfl, _, _, hchars⟩
  · have hvalue : ink value.toList = ['1'] := hink
    rw [ink_number hv] at hvalue
    rw [← String.ofList_toList (s := value), hvalue]
  · rw [hchars, ink_equals] at hink
    have hmem : '=' ∈ (['1'] : List Char) := hink ▸ by simp
    exact absurd hmem (by decide)

theorem eq_one_of_append {first second : List Char}
    (h : first ++ '=' :: second = "1=1".toList) : first = ['1'] ∧ second = ['1'] := by
  have h : first ++ '=' :: second = ['1', '=', '1'] := h
  match first, h with
  | [], h => exact absurd (List.cons.inj h).1 (by decide)
  | [c], h => exact ⟨congrArg (fun c => [c]) (List.cons.inj h).1,
      (List.cons.inj (List.cons.inj h).2).2⟩
  | c :: d :: first, h =>
    have hrest : first ++ '=' :: second = ['1'] := (List.cons.inj (List.cons.inj h).2).2
    have hmem : '=' ∈ (['1'] : List Char) := hrest ▸ by simp
    exact absurd hmem (by decide)

/-- The condition that every row meets, as it is written where none is asked for. -/
def always : Expr := .comparison "=" (.number "1") (.number "1")

theorem eq_always_of_ink {e : Expr} (h : e.WellFormed) (hink : ink e.chars = "1=1".toList) :
    e = always := by
  rcases sparse_cases h (isSparse_of_ink (by rw [hink]; rfl)) with ⟨value, rfl, hv⟩ |
    ⟨left, right, rfl, hl, hr, hchars⟩
  · have hvalue : ink value.toList = "1=1".toList := hink
    rw [ink_number hv] at hvalue
    exact absurd (hvalue ▸ by decide) (not_mem_number hv)
  · rw [hchars, ink_equals] at hink
    obtain ⟨hleft, hright⟩ := eq_one_of_append hink
    rw [eq_one_of_ink hl hleft, eq_one_of_ink hr hright]
    rfl

end Expr
end FeatureSql.Sql
