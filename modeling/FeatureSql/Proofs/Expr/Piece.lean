import FeatureSql.Proofs.Expr.Primary

/-! The pieces an expression is written from. What stands outside of quotes is a mark of the syntax
or one lexeme, so that no value can carry syntax into the text. -/

set_option autoImplicit false

namespace FeatureSql.Sql

inductive Piece where
  /-- Text of the syntax itself, the same whatever the values are. -/
  | mark (text : String)
  | quoted (text : String)
  | word (value : String)
  | number (value : String)
  | function (name : String)
  | operator (text : String)

namespace Piece

def text : Piece → String
  | .mark text | .quoted text | .word text | .number text | .function text | .operator text => text

/-- A value that is written without quotes reads as one lexeme of its kind. -/
def IsLexeme : Piece → Prop
  | .mark _ | .quoted _ => True
  | .word value => bareName value.toList = some (value, [])
  | .number value => numberLiteral value.toList = some (value, [])
  | .function name => functionName name.toList = some (name, [])
  | .operator text => text ∈ binaryOperators ∨ text ∈ listOperators

def parenthesize (needed : Bool) (pieces : List Piece) : List Piece :=
  if needed then .mark "(" :: pieces ++ [.mark ")"] else pieces

/-- Parts of a list, each after the first with a mark in front of it. -/
def commas : List (List Piece) → List Piece
  | [] => []
  | part :: parts => part ++ parts.flatMap (.mark ", " :: ·)

def chars (pieces : List Piece) : List Char := pieces.flatMap fun piece => piece.text.toList

@[simp]
theorem chars_nil : chars [] = [] := rfl

@[simp]
theorem chars_cons (piece : Piece) (pieces : List Piece) :
    chars (piece :: pieces) = piece.text.toList ++ chars pieces := List.flatMap_cons

@[simp]
theorem chars_append (first second : List Piece) :
    chars (first ++ second) = chars first ++ chars second := List.flatMap_append

theorem chars_parenthesize (needed : Bool) {pieces : List Piece} {sql : String}
    (h : chars pieces = sql.toList) :
    chars (parenthesize needed pieces) = (Sql.parenthesize needed sql).toList := by
  cases needed with
  | false => exact h
  | true => simp [parenthesize, Sql.parenthesize, h, text]

theorem chars_commas {parts : List (List Piece)} {sqls : List String}
    (h : parts.map chars = sqls.map String.toList) :
    chars (commas parts) = (Sql.commas sqls).toList := by
  have htail : ∀ (parts : List (List Piece)) (sqls : List String),
      parts.map chars = sqls.map String.toList →
        chars (parts.flatMap (.mark ", " :: ·)) = Reader.markedTail ", " sqls := by
    intro parts
    induction parts with
    | nil =>
      intro sqls h
      rw [List.map_eq_nil_iff.mp h.symm]
      rfl
    | cons part parts ih =>
      intro sqls h
      obtain ⟨sql, rest, rfl, hsql, hrest⟩ := List.map_eq_cons_iff.mp h.symm
      rw [Reader.markedTail_cons, ← ih rest hrest.symm, List.flatMap_cons, chars_append, chars_cons,
        ← hsql]
      simp [text]
  cases parts with
  | nil =>
    rw [List.map_eq_nil_iff.mp h.symm]
    rfl
  | cons part parts =>
    obtain ⟨sql, rest, rfl, hsql, hrest⟩ := List.map_eq_cons_iff.mp h.symm
    rw [commas, chars_append, htail parts rest hrest.symm, Sql.commas, Reader.intercalate_cons, hsql]

section All
variable {P : Piece → Prop} (hmark : ∀ text, P (.mark text))
include hmark

theorem forall_parenthesize (needed : Bool) {pieces : List Piece} (h : ∀ piece ∈ pieces, P piece) :
    ∀ piece ∈ parenthesize needed pieces, P piece := by
  cases needed with
  | false => exact h
  | true => simpa [parenthesize, or_imp, forall_and, hmark] using h

theorem forall_commas {parts : List (List Piece)}
    (h : ∀ part ∈ parts, ∀ piece ∈ part, P piece) : ∀ piece ∈ commas parts, P piece := by
  cases parts with
  | nil => simp [commas]
  | cons part parts =>
    rw [List.forall_mem_cons] at h
    intro piece hpiece
    rcases List.mem_append.mp hpiece with hpiece | hpiece
    · exact h.1 piece hpiece
    · obtain ⟨other, hother, hpiece⟩ := List.mem_flatMap.mp hpiece
      rcases List.mem_cons.mp hpiece with rfl | hpiece
      · exact hmark ", "
      · exact h.2 other hother piece hpiece

end All

end Piece

namespace Expr

def namePiece (value : String) : Piece :=
  if standsBare value then .word value else .quoted (quoteName value)

mutual

def pieces (dialect : Dialect) : Expr → List Piece
  | .name value => [namePiece value]
  | .text value => [.quoted (dialect.literal value)]
  | .number value => [.number value]
  | .call function arguments =>
    .function function :: .mark "(" :: Piece.commas (piecesAll dialect arguments) ++ [.mark ")"]
  | .named label value => .quoted (dialect.literal label) :: .mark "=" :: pieces dialect value
  | .star => [.mark "*"]
  | .list items => .mark "(" :: Piece.commas (piecesAll dialect items) ++ [.mark ")"]
  | .not operand =>
    .mark "NOT " :: Piece.parenthesize (needsParens 3 operand) (pieces dialect operand)
  | .logical operator left right =>
    let around := rank (.logical operator left right)
    Piece.parenthesize (needsParens around left) (pieces dialect left) ++
      .mark (" " ++ operator.word ++ " ") ::
        Piece.parenthesize (needsParens around right) (pieces dialect right)
  | .comparison operator left right =>
    let around := operatorRank operator
    let gap := Piece.mark (operatorGap operator)
    Piece.parenthesize (needsParens around left) (pieces dialect left) ++
      gap :: .operator operator :: gap ::
        Piece.parenthesize (needsParensRight around right) (pieces dialect right)

def piecesAll (dialect : Dialect) : List Expr → List (List Piece)
  | [] => []
  | e :: es => pieces dialect e :: piecesAll dialect es

end

theorem piecesAll_eq_map (dialect : Dialect) (es : List Expr) :
    piecesAll dialect es = es.map (pieces dialect) := by
  induction es with
  | nil => rfl
  | cons e es ih => rw [piecesAll, ih, List.map_cons]

theorem text_namePiece (value : String) (dialect : Dialect) :
    (namePiece value).text.toList = ((Expr.name value).render dialect).toList := by
  change _ = (Expr.name value).chars
  unfold namePiece
  split
  case isTrue h => exact (chars_of_standsBare h).2.2.symm
  case isFalse h => exact (chars_of_not_standsBare (by simpa using h)).symm

/-- The pieces, one after the other, are the text. -/
theorem chars_pieces (dialect : Dialect) (e : Expr) :
    Piece.chars (e.pieces dialect) = (e.render dialect).toList := by
  induction e with
  | name value => simp [pieces, text_namePiece value dialect]
  | text value => simp [pieces, Piece.text, render]
  | number value => simp [pieces, Piece.text, render]
  | star => simp [pieces, Piece.text, render]
  | named label value ih => simp [pieces, Piece.text, render, ih]
  | call function arguments ih =>
    have harguments := @Piece.chars_commas (arguments.map (pieces dialect)) (arguments.map (render dialect))
      (by simpa using ih)
    rw [pieces, piecesAll_eq_map, render, renderAll_eq_map]
    simp [Piece.text, harguments]
  | list items ih =>
    have hitems := @Piece.chars_commas (items.map (pieces dialect)) (items.map (render dialect))
      (by simpa using ih)
    rw [pieces, piecesAll_eq_map, render, renderAll_eq_map]
    simp [Piece.text, hitems]
  | not operand ih => simp [pieces, Piece.text, render, Piece.chars_parenthesize _ ih]
  | logical operator left right ihl ihr =>
    simp [pieces, Piece.text, render, Piece.chars_parenthesize _ ihl, Piece.chars_parenthesize _ ihr]
  | comparison operator left right ihl ihr =>
    simp [pieces, Piece.text, render, Piece.chars_parenthesize _ ihl, Piece.chars_parenthesize _ ihr]

theorem isLexeme_namePiece (value : String) : (namePiece value).IsLexeme := by
  unfold namePiece
  split
  case isTrue h =>
    have hread := bareName_append (chars_of_standsBare h).1 (Reader.Breaks.nil _)
    rwa [List.append_nil, String.ofList_toList] at hread
  case isFalse => exact True.intro

theorem isLexeme_number {value : String} (h : IsNumber value) : (Piece.number value).IsLexeme := by
  have hread := numberLiteral_append h (Reader.Breaks.nil _)
  rwa [List.append_nil] at hread

theorem isLexeme_function {function : String} (h : IsFunctionName function) :
    (Piece.function function).IsLexeme := by
  obtain ⟨hbare, htake, hdrop⟩ := isBare_of_isFunctionName h
  have hread := functionName_append hbare (Reader.Breaks.nil _)
  rwa [htake, hdrop, List.append_nil, String.ofList_toList] at hread

/-- Wherever a well-formed expression stands, its pieces outside of quotes are marks and lexemes. -/
theorem WellFormedAt.isLexeme {place : Place} {e : Expr} (h : WellFormedAt place e)
    (dialect : Dialect) : ∀ piece ∈ e.pieces dialect, piece.IsLexeme := by
  have hmark : ∀ text, (Piece.mark text).IsLexeme := fun _ => True.intro
  have hcommas : ∀ {es : List Expr}, (∀ e ∈ es, ∀ piece ∈ e.pieces dialect, piece.IsLexeme) →
      ∀ piece ∈ Piece.commas (piecesAll dialect es), piece.IsLexeme := fun hes =>
    Piece.forall_commas hmark (piecesAll_eq_map dialect _ ▸ List.forall_mem_map.mpr hes)
  have hbinary : ∀ {operator : String} {left right : Expr}, (Piece.operator operator).IsLexeme →
      (∀ piece ∈ left.pieces dialect, piece.IsLexeme) →
        (∀ piece ∈ right.pieces dialect, piece.IsLexeme) →
          ∀ piece ∈ (Expr.comparison operator left right).pieces dialect, piece.IsLexeme := by
    intro operator left right hop hl hr
    have hl := Piece.forall_parenthesize hmark (needsParens (operatorRank operator) left) hl
    have hr := Piece.forall_parenthesize hmark (needsParensRight (operatorRank operator) right) hr
    rw [pieces, List.forall_mem_append]
    simp only [List.forall_mem_cons]
    exact ⟨hl, hmark _, hop, hmark _, hr⟩
  induction h with
  | name value => exact List.forall_mem_singleton.mpr (isLexeme_namePiece value)
  | text value => exact List.forall_mem_singleton.mpr True.intro
  | number hv => exact List.forall_mem_singleton.mpr (isLexeme_number hv)
  | star => exact List.forall_mem_singleton.mpr True.intro
  | positional _ ih => exact ih
  | named label _ ih =>
    rw [pieces]
    simp only [List.forall_mem_cons]
    exact ⟨True.intro, hmark _, ih⟩
  | call hf _ ih =>
    rw [pieces]
    simp only [List.cons_append, List.forall_mem_cons, List.forall_mem_append]
    exact ⟨isLexeme_function hf, hmark _, hcommas ih, hmark _, by simp⟩
  | list _ _ ih =>
    rw [pieces]
    simp only [List.cons_append, List.forall_mem_cons, List.forall_mem_append]
    exact ⟨hmark _, hcommas ih, hmark _, by simp⟩
  | not _ ih =>
    rw [pieces, List.forall_mem_cons]
    exact ⟨hmark _, Piece.forall_parenthesize hmark _ ih⟩
  | logical operator _ _ ihl ihr =>
    rw [pieces, List.forall_mem_append, List.forall_mem_cons]
    exact ⟨Piece.forall_parenthesize hmark _ ihl, hmark _, Piece.forall_parenthesize hmark _ ihr⟩
  | comparison hop _ _ ihl ihr => exact hbinary (Or.inl hop) ihl ihr
  | membership hop _ _ ihl ihr => exact hbinary (Or.inr hop) ihl ihr

end Expr
end FeatureSql.Sql
