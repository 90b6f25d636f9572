import FeatureSql.Proofs.Expr.Compound

/-! What an argument of a call starts with: by place it must not look as if a label stood in
front of it. -/

set_option autoImplicit false

namespace FeatureSql.Sql.Expr

open Reader (breaks_cons bind_of_some bind_of_none orElse_of_none orElse_of_some)

/-- Behind a label no blank stands in front of an equals sign. -/
inductive Tight : List Char → Prop where
  | nil : Tight []
  | mark {c : Char} {rest : List Char} : isGap c = false → Tight (c :: rest)
  | apart {c : Char} {rest : List Char} : isGap c = false → c ≠ '=' → Tight (' ' :: c :: rest)

theorem Tight.append {first second : List Char} (hf : Tight first) (hs : Tight second) :
    Tight (first ++ second) := by
  cases hf with
  | nil => exact hs
  | mark hc => exact .mark hc
  | apart hc hne => exact .apart hc hne

/-- How a text that stands for a value is read as a label: not at all, or up to some point in it. -/
inductive Opening (sql : List Char) : Prop where
  | plain : (∀ text, argumentLabel (sql ++ text) = none) → Opening sql
  | label {name : String} {rest : List Char} : Tight rest →
      (∀ text, Boundary text → argumentLabel (sql ++ text) = some (name, rest ++ text)) → Opening sql

theorem Opening.append {first second : List Char} (h : Opening first) (hs : Tight second)
    (hb : ∀ text, Boundary (second ++ text)) : Opening (first ++ second) := by
  cases h with
  | plain h => exact .plain fun text => by rw [List.append_assoc, h]
  | @label name rest hrest h =>
    have hread : ∀ text, Boundary text →
        argumentLabel (first ++ second ++ text) = some (name, (rest ++ second) ++ text) := by
      intro text _
      rw [List.append_assoc, h _ (hb text), List.append_assoc]
    exact .label (hrest.append hs) hread

theorem argumentLabel_cons_of_ne {c : Char} {text : List Char} (hg : isGap c = false)
    (hquote : c ≠ '\x27') (hstart : isWordStart c = false) : argumentLabel (c :: text) = none := by
  rw [argumentLabel, orElse_of_none (textLiteral_of_ne hg hquote)]
  exact bareName_of_breaks (breaks_cons.mpr hstart) (breaks_cons.mpr hg)

theorem argumentLabel_bare {name : List Char} (hn : IsBare name) {text : List Char}
    (h : Reader.Breaks isNameChar text) :
    argumentLabel (name ++ text) = some (String.ofList name, text) := by
  have hread := bareName_append hn h
  obtain ⟨c, cs, rfl, hc, _⟩ := hn.start
  have hg := isGap_of_isWordChar (isWordChar_of_isWordStart hc)
  rw [argumentLabel, List.cons_append, orElse_of_none (textLiteral_of_ne hg (ne_of_isWordStart hc rfl))]
  exact hread

theorem opening_name (value : String) : Opening (Expr.name value).chars := by
  rcases chars_name value with ⟨hbare, _, hchars⟩ | hchars
  · exact .label .nil fun text h => by rw [hchars, argumentLabel_bare hbare h.name, List.nil_append]
  · refine .plain fun text => ?_
    rw [hchars, quoteName, toList_write]
    exact argumentLabel_cons_of_ne rfl (by decide) rfl

theorem opening_text (value : String) : Opening (Expr.text value).chars :=
  .label .nil fun text h => orElse_of_some (textLiteral_append value (h.quote.mono fun c hc => by
    simp [hc]))

theorem argumentLabel_number {value : String} (hv : IsNumber value) (text : List Char) :
    argumentLabel ((Expr.number value).chars ++ text) = none := by
  obtain ⟨c, cs, hcs, hc⟩ := isNumber_start hv
  have hstart : isWordStart c = false := by
    rcases hc with rfl | hc
    · rfl
    · exact isWordStart_of_isDigit hc
  have hquote : c ≠ '\x27' := by
    rintro rfl
    rcases hc with hc | hc <;> exact absurd hc (by decide)
  rw [chars, render, hcs]
  exact argumentLabel_cons_of_ne (isGap_of_number hc) hquote hstart

theorem opening_number {value : String} (hv : IsNumber value) : Opening (Expr.number value).chars :=
  .plain (argumentLabel_number hv)

/-- What stands behind the name of a call's function. -/
def callRest (as : List Expr) : List Char :=
  '(' :: ((commas (as.map (render .standard))).toList ++ [')'])

theorem chars_call (function : String) (as : List Expr) :
    (Expr.call function as).chars = function.toList ++ callRest as := by
  rw [chars, render, renderAll_eq_map, callRest]
  simp

theorem argumentLabel_call {function : String} (hf : IsFunctionName function) (as : List Expr)
    (text : List Char) : argumentLabel ((Expr.call function as).chars ++ text) =
      some (String.ofList function.toList, callRest as ++ text) := by
  rw [chars_call, List.append_assoc]
  exact argumentLabel_bare (isBare_of_isFunctionName hf).1 (breaks_cons.mpr rfl)

theorem opening_call {function : String} (hf : IsFunctionName function) (as : List Expr) :
    Opening (Expr.call function as).chars :=
  .label (.mark rfl) fun text _ => argumentLabel_call hf as text

theorem opening_not (operand : Expr) : Opening (Expr.not operand).chars := by
  refine .plain fun text => ?_
  rw [chars_not]
  exact orElse_of_none rfl

theorem opening_operand {e : Expr} (h : Opening e.chars) (needed : Bool) :
    Opening (operandChars needed e) := by
  cases needed with
  | true =>
    rw [operandChars_true]
    exact .plain fun text => argumentLabel_cons_of_ne rfl (by decide) rfl
  | false => exact h

theorem opening_logical (operator : Logical) {left : Expr} (right : Expr) (h : Opening left.chars) :
    Opening (Expr.logical operator left right).chars := by
  rw [chars_logical]
  refine (opening_operand h _).append ?_ fun text => ?_
  · cases operator <;> exact .apart rfl (by decide)
  · cases operator <;> exact boundary_cons rfl rfl rfl

/-- Operators that stand between blanks. -/
def spacedOperators : List String :=
  wordOperators ++ listOperators ++ additiveSigns ++ multiplicativeSigns

theorem gap_spaced : ∀ operator ∈ spacedOperators, operatorGap operator = " " := by decide +kernel

section Comparisons
variable {operator : String} {left : Expr}

theorem mark_spaced (hop : operator ∈ spacedOperators) (rest : List Char) :
    Tight (' ' :: operator.toList ++ rest) ∧ Boundary (' ' :: operator.toList ++ rest) := by
  simp only [spacedOperators, wordOperators, listOperators, additiveSigns, multiplicativeSigns,
    List.cons_append, List.nil_append, List.mem_cons, List.not_mem_nil, or_false] at hop
  rcases hop with rfl | rfl | rfl | rfl | rfl | rfl | rfl | rfl | rfl | rfl | rfl | rfl | rfl | rfl <;>
    exact ⟨.apart rfl (by decide), boundary_cons rfl rfl rfl⟩

theorem mark_sign (hop : operator ∈ comparisonSigns) (rest : List Char) :
    Tight (operator.toList ++ rest) ∧ Boundary (operator.toList ++ rest) := by
  simp only [comparisonSigns, List.mem_cons, List.not_mem_nil, or_false] at hop
  rcases hop with rfl | rfl | rfl | rfl | rfl | rfl | rfl | rfl | rfl | rfl | rfl <;>
    exact ⟨.mark rfl, boundary_cons rfl rfl rfl⟩

theorem opening_spaced (right : Expr) (hop : operator ∈ spacedOperators) (h : Opening left.chars) :
    Opening (Expr.comparison operator left right).chars := by
  rw [chars_spaced left right (gap_spaced operator hop)]
  refine (opening_operand h _).append (mark_spaced hop _).1 fun text => ?_
  rw [List.append_assoc]
  exact (mark_spaced hop _).2

theorem opening_sign (right : Expr) (hop : operator ∈ comparisonSigns) (h : Opening left.chars) :
    Opening (Expr.comparison operator left right).chars := by
  rw [chars_sign left right hop]
  refine (opening_operand h _).append (mark_sign hop _).1 fun text => ?_
  rw [List.append_assoc]
  exact (mark_sign hop _).2

theorem spaced_of_not_sign (hop : operator ∈ binaryOperators ++ listOperators)
    (hsign : operator ∉ comparisonSigns) : operator ∈ spacedOperators := by
  simp only [binaryOperators, spacedOperators, List.mem_append, hsign, or_false] at hop ⊢
  rcases hop with ((hop | hop) | hop) | hop <;> simp [hop]

theorem opening_comparison (right : Expr) (hop : operator ∈ binaryOperators ++ listOperators)
    (h : Opening left.chars) : Opening (Expr.comparison operator left right).chars := by
  by_cases hsign : operator ∈ comparisonSigns
  · exact opening_sign right hsign h
  · exact opening_spaced right (spaced_of_not_sign hop hsign) h

end Comparisons

theorem WellFormedAt.opening {place : Place} {e : Expr} (h : WellFormedAt place e)
    (hp : place = .operand) : Opening e.chars := by
  induction h with
  | name value => exact opening_name value
  | text value => exact opening_text value
  | number hv => exact opening_number hv
  | call hf _ _ => exact opening_call hf _
  | not _ _ => exact opening_not _
  | logical operator _ _ ihl _ => exact opening_logical operator _ (ihl rfl)
  | comparison hop _ _ ihl _ => exact opening_comparison _ (List.mem_append_left _ hop) (ihl rfl)
  | membership hop _ _ ihl _ => exact opening_comparison _ (List.mem_append_right _ hop) (ihl rfl)
  | list | star | named | positional => exact Place.noConfusion hp

/-- What stands behind the label that the text of an expression opens with. -/
def valueChars : Expr → List Char
  | .comparison _ _ right => operandChars (needsParensRight 4 right) right
  | .logical operator left right => valueChars left ++ (' ' :: operator.word.toList ++
      ' ' :: operandChars (needsParens (logicalRank operator) right) right)
  | _ => []

theorem argumentLabel_equals {e : Expr} {label : String} (h : label? e = some label)
    (text : List Char) : argumentLabel (e.chars ++ '=' :: text) = some (label, '=' :: text) := by
  cases e with
  | name value =>
    rw [label?] at h
    split at h
    case isTrue hbare =>
      obtain rfl := Option.some.inj h
      obtain ⟨hbare, _, hchars⟩ := chars_of_standsBare hbare
      rw [hchars, argumentLabel_bare hbare (breaks_cons.mpr rfl), String.ofList_toList]
    case isFalse => cases h
  | text value =>
    obtain rfl := Option.some.inj h
    exact orElse_of_some (textLiteral_append value (breaks_cons.mpr rfl))
  | _ => cases h

theorem rank_of_label? {e : Expr} {label : String} (h : label? e = some label) : e.rank = 10 := by
  cases e with
  | name | text => rfl
  | _ => cases h

/-- Where a label can be split off, the text opens with it. -/
theorem chars_of_splitLabel {e value : Expr} {label : String}
    (h : splitLabel e = some (label, value)) : ∃ front, e.chars = front ++ '=' :: valueChars e ∧
      ∀ text, argumentLabel (front ++ '=' :: text) = some (label, '=' :: text) := by
  refine splitLabel_cases (motive := fun e label _ => ∃ front, e.chars = front ++ '=' :: valueChars e ∧
    ∀ text, argumentLabel (front ++ '=' :: text) = some (label, '=' :: text)) ?_ ?_ h
  · intro left right label hlabel
    refine ⟨left.chars, ?_, argumentLabel_equals hlabel⟩
    have hparens : needsParens 4 left = false := by
      rw [needsParens, rank_of_label? hlabel]
      rfl
    rw [chars_sign left right (by decide), hparens]
    rfl
  · rintro operator left right label value hparens _ ⟨front, hchars, hlabel⟩
    refine ⟨front, ?_, hlabel⟩
    have hleft : operandChars false left = left.chars := rfl
    rw [chars_logical, hparens, hleft, hchars, valueChars]
    simp

theorem opensWithLabel_of_splitLabel {e value : Expr} {label : String}
    (h : splitLabel e = some (label, value)) : OpensWithLabel (e.render .standard) := by
  obtain ⟨front, hchars, hlabel⟩ := chars_of_splitLabel h
  exact ⟨label, valueChars e, (congrArg argumentLabel hchars).trans (hlabel _)⟩

/-- A label that ends where an operand does, or before. -/
theorem argumentLabel_append {first second tail : List Char} {label : String} (h : Opening first)
    (hb : Boundary second) (hread : argumentLabel (first ++ second) = some (label, '=' :: tail)) :
    (∃ rest, argumentLabel first = some (label, '=' :: rest)) ∨
      (argumentLabel first = some (label, []) ∧ second = '=' :: tail) := by
  cases h with
  | plain h =>
    rw [h] at hread
    cases hread
  | @label name rest _ h =>
    have hfirst := h [] boundary_nil
    rw [List.append_nil, List.append_nil] at hfirst
    rw [h second hb, Option.some.injEq, Prod.mk.injEq] at hread
    obtain ⟨rfl, hrest⟩ := hread
    cases rest with
    | nil => exact Or.inr ⟨hfirst, hrest⟩
    | cons c rest =>
      obtain ⟨rfl, _⟩ := List.cons.inj hrest
      exact Or.inl ⟨rest, hfirst⟩

theorem argumentLabel_operand {e : Expr} {needed : Bool} {second tail : List Char} {label : String}
    (h : Opening e.chars) (hb : Boundary second)
    (hread : argumentLabel (operandChars needed e ++ second) = some (label, '=' :: tail)) :
    needed = false ∧ (OpensWithLabel (e.render .standard) ∨
      (argumentLabel e.chars = some (label, []) ∧ second = '=' :: tail)) := by
  cases needed with
  | true =>
    rw [operandChars_true, List.cons_append,
      argumentLabel_cons_of_ne rfl (by decide) rfl] at hread
    cases hread
  | false =>
    refine ⟨rfl, ?_⟩
    rcases argumentLabel_append h hb hread with ⟨rest, hfirst⟩ | hwhole
    · exact Or.inl ⟨label, rest, hfirst⟩
    · exact Or.inr hwhole

theorem boundary_logical (operator : Logical) (rest : List Char) :
    Boundary (' ' :: operator.word.toList ++ ' ' :: rest) := by
  cases operator <;> exact boundary_cons rfl rfl rfl

/-- What follows an argument of a call. -/
def EndsArgument (text : List Char) : Prop := ∃ c rest, text = c :: rest ∧ (c = ',' ∨ c = ')')

theorem EndsArgument.closes {text : List Char} (h : EndsArgument text) : Closes 1 text := by
  obtain ⟨c, rest, rfl, rfl | rfl⟩ := h
  · exact closes_comma rest
  · exact closes_parenthesis rest

theorem symbol_equals_of_tight {rest text : List Char} (hr : Tight rest)
    (hne : ∀ tail, rest ≠ '=' :: tail) (ht : EndsArgument text) :
    symbol "=" (rest ++ text) = none := by
  cases hr with
  | nil =>
    obtain ⟨c, rest, rfl, rfl | rfl⟩ := ht <;> rfl
  | @mark c rest hc =>
    have hc' : c ≠ '=' := by
      rintro rfl
      exact hne rest rfl
    exact symbol_of_ne rfl hc hc'
  | @apart c rest hc hc' =>
    exact (symbol_gap Gap.blank "=" (c :: rest ++ text)).trans (symbol_of_ne rfl hc hc')

/-- An argument given by name. -/
def byLabel (inner : Reader Expr) : Reader Expr := do
  let label ← argumentLabel
  symbol "="
  let value ← inner
  pure (.named label value)

theorem argument_eq (inner : Reader Expr) :
    argument inner = ((do symbol "*"; pure .star) <|> byLabel inner <|> inner) := rfl

theorem byLabel_gap {inner : Reader Expr} {gap : List Char} (hg : Gap gap) (text : List Char) :
    byLabel inner (gap ++ text) = byLabel inner text := by
  have hlabel : argumentLabel (gap ++ text) = argumentLabel text := by
    simp only [argumentLabel, textLiteral, bareName, Reader.orElse_apply, lexeme_gap hg]
  simp only [byLabel, Reader.bind_apply, hlabel]

theorem byLabel_of_not_opensWithLabel {inner : Reader Expr} {e : Expr} (h : Opening e.chars)
    (hfree : ¬ OpensWithLabel (e.render .standard)) {text : List Char} (ht : EndsArgument text) :
    byLabel inner (e.chars ++ text) = none := by
  cases h with
  | plain h => exact bind_of_none (h text)
  | @label name rest hrest h =>
    have hnil := h [] boundary_nil
    rw [List.append_nil, List.append_nil] at hnil
    have hne : ∀ tail, rest ≠ '=' :: tail := by
      rintro tail rfl
      exact hfree ⟨name, tail, hnil⟩
    rw [byLabel, bind_of_some (h text ht.closes.boundary)]
    exact bind_of_none (symbol_equals_of_tight hrest hne ht)

theorem not_opensWithLabel {sql name : String} {rest : List Char}
    (h : argumentLabel sql.toList = some (name, rest)) (hne : rest.head? ≠ some '=') :
    ¬ OpensWithLabel sql := by
  rintro ⟨label, tail, hread⟩
  rw [h, Option.some.injEq, Prod.mk.injEq] at hread
  exact hne (by rw [hread.2, List.head?_cons])

theorem not_opensWithLabel_of_none {sql : String} (h : argumentLabel sql.toList = none) :
    ¬ OpensWithLabel sql := by
  rintro ⟨label, tail, hread⟩
  rw [h] at hread
  cases hread

theorem not_opensWithLabel_name (value : String) :
    ¬ OpensWithLabel ((Expr.name value).render .standard) := by
  rcases chars_name value with ⟨hbare, _, hchars⟩ | hchars
  · have hread := argumentLabel_bare hbare (Reader.Breaks.nil isNameChar)
    rw [List.append_nil, ← hchars] at hread
    exact not_opensWithLabel hread (by simp)
  · apply not_opensWithLabel_of_none
    change argumentLabel (Expr.name value).chars = none
    rw [hchars, quoteName, toList_write]
    exact argumentLabel_cons_of_ne rfl (by decide) rfl

theorem not_opensWithLabel_text (value : String) :
    ¬ OpensWithLabel ((Expr.text value).render .standard) := by
  have htext := textLiteral_append value (Reader.Breaks.nil (· == '\x27'))
  rw [List.append_nil] at htext
  have hread : (textLiteral <|> bareName) _ = some _ := orElse_of_some htext
  exact not_opensWithLabel hread (by simp)

theorem not_opensWithLabel_number {value : String} (hv : IsNumber value) :
    ¬ OpensWithLabel ((Expr.number value).render .standard) := by
  have hread := argumentLabel_number hv []
  rw [List.append_nil] at hread
  exact not_opensWithLabel_of_none hread

theorem not_opensWithLabel_call {function : String} (hf : IsFunctionName function) (as : List Expr) :
    ¬ OpensWithLabel ((Expr.call function as).render .standard) := by
  have hread := argumentLabel_call hf as []
  rw [List.append_nil, List.append_nil] at hread
  exact not_opensWithLabel hread (by simp [callRest])

theorem five_le_rank {operator : String} {e : Expr}
    (h : needsParens (operatorRank operator) e = false) : 5 ≤ e.rank := by
  simp only [needsParens, comparisonRank, Bool.or_eq_false_iff, decide_eq_false_iff_not,
    Bool.and_eq_false_iff, beq_eq_false_iff_ne] at h
  have := operatorRank_cases operator
  omega

theorem argumentLabel_ne_nil {first second : List Char} {label : String} (h : Opening first)
    (hb : Boundary second) (hne : second ≠ []) :
    argumentLabel (first ++ second) ≠ some (label, []) := by
  cases h with
  | plain h => simp [h]
  | label _ h => simp [h second hb, hne]

section WellFormed
variable {e : Expr} {label : String}

/-- The text of an operation: its left operand, and a mark behind that. -/
theorem chars_operation {operator : String} (left right : Expr)
    (hop : operator ∈ binaryOperators ++ listOperators) : ∃ second,
      (Expr.comparison operator left right).chars =
        operandChars (needsParens (operatorRank operator) left) left ++ second ∧
      Boundary second ∧ second ≠ [] ∧ (∀ tail, second = '=' :: tail → operator = "=") := by
  by_cases hsign : operator ∈ comparisonSigns
  · refine ⟨_, by rw [chars_sign left right hsign, (rank_sign operator hsign).1],
      (mark_sign hsign _).2, ?_⟩
    simp only [comparisonSigns, List.mem_cons, List.not_mem_nil, or_false] at hsign
    rcases hsign with rfl | rfl | rfl | rfl | rfl | rfl | rfl | rfl | rfl | rfl | rfl <;> simp
  · have hspaced := spaced_of_not_sign hop hsign
    refine ⟨_, chars_spaced left right (gap_spaced operator hspaced), (mark_spaced hspaced _).2, ?_⟩
    simp

theorem isSome_label? (h : WellFormed e) (hread : argumentLabel e.chars = some (label, [])) :
    (label? e).isSome = true := by
  cases h with
  | name value =>
    cases hbare : standsBare value with
    | true => simp [label?, hbare]
    | false =>
      rw [chars_of_not_standsBare hbare, quoteName, toList_write,
        argumentLabel_cons_of_ne rfl (by decide) rfl] at hread
      cases hread
  | text value => rfl
  | number hv =>
    have hnone := argumentLabel_number hv []
    rw [List.append_nil, hread] at hnone
    cases hnone
  | @call function as hf _ =>
    have hcall := argumentLabel_call hf as []
    rw [List.append_nil, hread] at hcall
    simp [callRest] at hcall
  | not _ =>
    rw [chars_not] at hread
    cases hread
  | logical operator hl _ =>
    rw [chars_logical] at hread
    exact absurd hread (argumentLabel_ne_nil (opening_operand (hl.opening rfl) _)
      (boundary_logical operator _) (by simp))
  | comparison hop hl _ =>
    obtain ⟨second, hchars, hbound, hne, _⟩ := chars_operation _ _ (List.mem_append_left _ hop)
    rw [hchars] at hread
    exact absurd hread (argumentLabel_ne_nil (opening_operand (hl.opening rfl) _) hbound hne)
  | membership hop hl _ =>
    obtain ⟨second, hchars, hbound, hne, _⟩ := chars_operation _ _ (List.mem_append_right _ hop)
    rw [hchars] at hread
    exact absurd hread (argumentLabel_ne_nil (opening_operand (hl.opening rfl) _) hbound hne)

end WellFormed

theorem isSome_splitLabel_operation {operator : String} {left right : Expr}
    (hop : operator ∈ binaryOperators ++ listOperators) (hl : WellFormed left)
    (ih : OpensWithLabel (left.render .standard) → (splitLabel left).isSome = true)
    (h : OpensWithLabel ((Expr.comparison operator left right).render .standard)) :
    (splitLabel (.comparison operator left right)).isSome = true := by
  obtain ⟨second, hchars, hbound, _, hequals⟩ := chars_operation left right hop
  obtain ⟨label, tail, hread⟩ := h
  change argumentLabel (Expr.comparison operator left right).chars = _ at hread
  rw [hchars] at hread
  obtain ⟨hparens, hopens | ⟨hwhole, hsecond⟩⟩ := argumentLabel_operand (hl.opening rfl) hbound hread
  · have hsome := ih hopens
    rw [splitLabel_eq_none_of_rank (five_le_rank hparens)] at hsome
    cases hsome
  · rw [splitLabel, if_pos (hequals tail hsecond), Option.isSome_map]
    exact isSome_label? hl hwhole

/-- The text opens with a label only where one can be split off. -/
theorem WellFormedAt.isSome_splitLabel {place : Place} {e : Expr} (h : WellFormedAt place e)
    (hp : place = .operand) (hopens : OpensWithLabel (e.render .standard)) :
    (splitLabel e).isSome = true := by
  induction h with
  | name value => exact absurd hopens (not_opensWithLabel_name value)
  | text value => exact absurd hopens (not_opensWithLabel_text value)
  | number hv => exact absurd hopens (not_opensWithLabel_number hv)
  | call hf _ _ => exact absurd hopens (not_opensWithLabel_call hf _)
  | @not operand _ _ =>
    obtain ⟨label, tail, hread⟩ := hopens
    change argumentLabel (Expr.not operand).chars = _ at hread
    rw [chars_not] at hread
    cases hread
  | @logical operator left right hl _ ihl _ =>
    obtain ⟨label, tail, hread⟩ := hopens
    change argumentLabel (Expr.logical operator left right).chars = _ at hread
    rw [chars_logical] at hread
    obtain ⟨hparens, hopens | ⟨_, hsecond⟩⟩ :=
      argumentLabel_operand (hl.opening rfl) (boundary_logical operator _) hread
    · rw [splitLabel, hparens, if_neg (by decide), Option.isSome_map]
      exact ihl rfl hopens
    · cases hsecond
  | comparison hop hl _ ihl _ =>
    exact isSome_splitLabel_operation (List.mem_append_left _ hop) hl (ihl rfl) hopens
  | membership hop hl _ ihl _ =>
    exact isSome_splitLabel_operation (List.mem_append_right _ hop) hl (ihl rfl) hopens
  | list | star | named | positional => exact Place.noConfusion hp

theorem splitLabel_of_labelFree {a : Expr}
    (h : a.isNamed = false → ¬ OpensWithLabel (a.render .standard)) : splitLabel a = none := by
  cases hsplit : splitLabel a with
  | none => rfl
  | some split =>
    refine absurd (opensWithLabel_of_splitLabel hsplit) (h ?_)
    cases a with
    | named => cases hsplit
    | _ => rfl

theorem labelled_of_labelFree {e : Expr} (h : LabelFree e) : e.labelled = e := by
  induction e with
  | name | text | number | star => rfl
  | call function arguments ih =>
    rw [LabelFree, labelFreeArguments_iff] at h
    have hsame : ∀ a ∈ arguments, byPlace a.labelled = a := fun a ha => by
      rw [ih a ha (h a ha).2, byPlace_of_none (splitLabel_of_labelFree (h a ha).1)]
    rw [labelled, labelledArguments_eq_map, List.map_congr_left hsame, List.map_id']
  | named label value ih => rw [labelled, ih h]
  | list items ih =>
    rw [LabelFree, labelFreeAll_iff] at h
    rw [labelled, labelledAll_eq_map, List.map_congr_left fun e he => ih e he (h e he),
      List.map_id']
  | not operand ih => rw [labelled, ih h]
  | logical operator left right ihl ihr => rw [labelled, ihl h.1, ihr h.2]
  | comparison operator left right ihl ihr => rw [labelled, ihl h.1, ihr h.2]

theorem reread_of_labelFree {e : Expr} (h : LabelFree e) : e.reread = e.leftGrouped := by
  rw [reread, labelled_of_labelFree h]

theorem labelFree_byPlace {a : Expr} (h : WellFormedAt .argument a) (hfree : LabelFree a) :
    ((byPlace a).isNamed = false → ¬ OpensWithLabel ((byPlace a).render .standard)) ∧
      LabelFree (byPlace a) := by
  cases hsplit : splitLabel a with
  | some split =>
    have hnamed : byPlace a = .named split.1 split.2 := by rw [byPlace, hsplit]
    rw [hnamed]
    have hvalue : LabelFree split.2 := labelFree_splitLabel hfree hsplit
    exact ⟨fun h => Bool.noConfusion h, hvalue⟩
  | none =>
    rw [byPlace_of_none hsplit]
    refine ⟨fun hnamed hopens => ?_, hfree⟩
    cases h with
    | star => exact absurd hopens (not_opensWithLabel_of_none rfl)
    | named => cases hnamed
    | positional h =>
      have hsome := h.isSome_splitLabel rfl hopens
      rw [hsplit] at hsome
      cases hsome

/-- What was read no longer holds an argument that could be taken for another one. -/
theorem WellFormedAt.labelFree_labelled {place : Place} {e : Expr} (h : WellFormedAt place e) :
    LabelFree e.labelled := by
  induction h with
  | name | text | number | star => exact True.intro
  | call _ has ih =>
    rw [Expr.labelled, LabelFree, labelFreeArguments_iff, labelledArguments_eq_map]
    exact List.forall_mem_map.mpr fun a ha => labelFree_byPlace (has a ha).labelled (ih a ha)
  | not _ ih => exact ih
  | logical _ _ _ ihl ihr => exact ⟨ihl, ihr⟩
  | comparison _ _ _ ihl ihr => exact ⟨ihl, ihr⟩
  | membership _ _ _ ihl ihr => exact ⟨ihl, ihr⟩
  | list _ _ ih =>
    rw [Expr.labelled, LabelFree, labelFreeAll_iff, labelledAll_eq_map]
    exact List.forall_mem_map.mpr ih
  | named _ _ ih => exact ih
  | positional _ ih => exact ih

end FeatureSql.Sql.Expr
