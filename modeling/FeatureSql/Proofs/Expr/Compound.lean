import FeatureSql.Proofs.Commas
import FeatureSql.Proofs.Expr.Comparison
import FeatureSql.Proofs.Expr.Labelled

/-! Expressions put together from operands. Each reads back at its own level when its operands do,
in parentheses or without them. -/

set_option autoImplicit false

namespace FeatureSql.Sql

open Reader (breaks_cons bind_of_some)

theorem rank_sign : ∀ operator ∈ comparisonSigns,
    operatorRank operator = 4 ∧ operatorGap operator = "" := by decide +kernel

theorem rank_word : ∀ operator ∈ wordOperators ++ listOperators,
    operatorRank operator = 4 ∧ operatorGap operator = " " := by decide

theorem rank_additive : ∀ operator ∈ additiveSigns,
    operatorRank operator = 5 ∧ operatorGap operator = " " := by decide

theorem rank_multiplicative : ∀ operator ∈ multiplicativeSigns,
    operatorRank operator = 6 ∧ operatorGap operator = " " := by decide

theorem binaryOperators_cases {operator : String} (h : operator ∈ binaryOperators) :
    operator ∈ wordOperators ∨ operator ∈ comparisonSigns ∨ operator ∈ additiveSigns ∨
      operator ∈ multiplicativeSigns := by
  simp only [binaryOperators, List.mem_append, or_assoc] at h
  exact h

namespace Expr

/-- The characters of an operand, in parentheses where they are needed. -/
def operandChars (needed : Bool) (e : Expr) : List Char :=
  (parenthesize needed (e.render .standard)).toList

theorem operandChars_true (e : Expr) : operandChars true e = '(' :: (e.chars ++ [')']) := by
  rw [operandChars, parenthesize, if_pos rfl]
  simp [chars]

theorem chars_not (operand : Expr) : (Expr.not operand).chars =
    "NOT ".toList ++ operandChars (needsParens 3 operand) operand := by
  rw [chars, render, String.toList_append]
  rfl

theorem chars_logical (operator : Logical) (left right : Expr) :
    (Expr.logical operator left right).chars =
      operandChars (needsParens (logicalRank operator) left) left ++
        (' ' :: operator.word.toList ++
          ' ' :: operandChars (needsParens (logicalRank operator) right) right) := by
  rw [chars, render]
  simp [operandChars, rank_logical]

section Comparisons
variable {operator : String} (left right : Expr)

theorem chars_comparison : (Expr.comparison operator left right).chars =
    operandChars (needsParens (operatorRank operator) left) left ++
      ((operatorGap operator).toList ++ (operator.toList ++ ((operatorGap operator).toList ++
        operandChars (needsParensRight (operatorRank operator) right) right))) := by
  rw [chars, render]
  simp [operandChars]

theorem chars_sign (h : operator ∈ comparisonSigns) :
    (Expr.comparison operator left right).chars = operandChars (needsParens 4 left) left ++
      (operator.toList ++ operandChars (needsParensRight 4 right) right) := by
  rw [chars_comparison, (rank_sign operator h).1, (rank_sign operator h).2]
  rfl

theorem chars_spaced (h : operatorGap operator = " ") :
    (Expr.comparison operator left right).chars =
      operandChars (needsParens (operatorRank operator) left) left ++
        ((' ' :: operator.toList) ++
          ' ' :: operandChars (needsParensRight (operatorRank operator) right) right) := by
  rw [chars_comparison, h]
  rfl

end Comparisons

theorem closes_words {operator : String} {text : List Char}
    (hop : operator ∈ wordOperators ++ listOperators) :
    Closes 5 (' ' :: (operator.toList ++ ' ' :: text)) := by
  have hbound : Boundary (' ' :: (operator.toList ++ ' ' :: text)) ∧
      sign multiplicativeSigns (' ' :: (operator.toList ++ ' ' :: text)) = none ∧
      sign additiveSigns (' ' :: (operator.toList ++ ' ' :: text)) = none := by
    simp only [wordOperators, listOperators, List.cons_append, List.nil_append, List.mem_cons,
      List.not_mem_nil, or_false] at hop
    rcases hop with rfl | rfl | rfl | rfl | rfl | rfl | rfl | rfl <;>
      exact ⟨boundary_cons rfl rfl rfl, rfl, rfl⟩
  exact ⟨hbound.1, fun _ => hbound.2.1, fun _ => hbound.2.2, by omega, by omega, by omega⟩

/-- The text reads back as what it stands for wherever the depth will do. -/
def ReadsBack (e : Expr) : Prop :=
  ∀ depth, e.chars.length ≤ depth → Reading (readerAt depth) e.rank e.chars e.reread

theorem one_le_rank (e : Expr) : 1 ≤ e.rank := by
  cases e with
  | logical operator left right => cases operator <;> simp [rank]
  | comparison operator left right =>
    have := operatorRank_cases operator
    change 1 ≤ operatorRank operator
    omega
  | _ => simp [rank]

section Operands
variable {e left right : Expr} {depth : Nat}

theorem ReadsBack.at_level (h : ReadsBack e) (hd : e.chars.length ≤ depth) {level : Nat}
    (hle : level ≤ e.rank) (hpos : 1 ≤ level) :
    Reading (readerAt depth) level e.chars e.reread := by
  have hreading := h depth hd
  rw [← rank_reread] at hreading
  exact hreading.le_rank (by rwa [rank_reread]) hpos

/-- A whole expression inside something else is read with one level of depth less. -/
theorem ReadsBack.inside (h : ReadsBack e) (hd : e.chars.length < depth) :
    ReadsAs (readerAt depth) (Closes 1) (e.render .standard) e.reread := by
  intro gap text hg ht
  cases depth with
  | zero => exact absurd hd (Nat.not_lt_zero _)
  | succ depth =>
    have hwhole := (h.at_level (by omega) (one_le_rank e) (Nat.le_refl 1) :
      Reading (readerAt depth) 1 _ _).whole
    exact hwhole gap text hg ht

theorem whole_parens (h : ReadsBack e) (hd : (operandChars true e).length ≤ depth) :
    Whole (readerAt depth) 7 (operandChars true e) e.reread := by
  intro gap text hg _
  rw [operandChars_true] at hd ⊢
  have hlt : e.chars.length < depth := by
    simp at hd
    omega
  have hread := h.inside hlt [] (')' :: text) Gap.nil (closes_parenthesis text)
  apply (primary_gap hg _).trans
  simp only [List.cons_append, List.append_assoc, List.nil_append]
  exact primary_parens hread

theorem ReadsBack.operand (h : ReadsBack e) {needed : Bool} {level : Nat}
    (hneeded : needed = true ↔ e.rank < level) (hpos : 1 ≤ level)
    (hd : (operandChars needed e).length ≤ depth) :
    Reading (readerAt depth) level (operandChars needed e) e.reread := by
  cases needed with
  | true =>
    refine Reading.of_primary (whole_parens h hd) (Or.inl ?_)
    rw [rank_reread]
    exact hneeded.mp rfl
  | false =>
    have hle : level ≤ e.rank := by
      have := mt hneeded.mpr (by decide)
      omega
    exact h.at_level hd hle hpos

theorem needsParens_iff {around : Nat} (hne : around ≠ 4) (e : Expr) :
    needsParens around e = true ↔ e.rank < around := by
  simp only [needsParens, comparisonRank, Bool.or_eq_true, decide_eq_true_eq, Bool.and_eq_true,
    Nat.beq_eq_true_eq]
  omega

theorem needsParens_comparison (e : Expr) : needsParens 4 e = true ↔ e.rank < 5 := by
  simp only [needsParens, comparisonRank, Bool.or_eq_true, decide_eq_true_eq, Bool.and_eq_true,
    Nat.beq_eq_true_eq]
  omega

theorem needsParensRight_iff (around : Nat) (e : Expr) :
    needsParensRight around e = true ↔ e.rank < around + 1 := by
  simp only [needsParensRight, decide_eq_true_eq]
  omega

theorem ReadsBack.not (h : ReadsBack e) : ReadsBack (.not e) := by
  intro depth hd
  have hchars := chars_not e
  have hoperand : Negations (readerAt depth) (operandChars (needsParens 3 e) e) e.reread := by
    have hlen : (operandChars (needsParens 3 e) e).length ≤ depth := by
      rw [hchars, List.length_append] at hd
      omega
    exact h.operand (needsParens_iff (by decide : 3 ≠ 4) e) (by decide : 1 ≤ 3) hlen
  have hneg : Negations (readerAt depth) (Expr.not e).chars (.not e.reread) := by
    intro gap text hg hc
    obtain ⟨a, mid, nots, hsteps, ha, hfold⟩ := hoperand [' '] text Gap.blank hc
    have hword : keyword "not" (gap ++ ("NOT".toList ++ ([' '] ++
        (operandChars (needsParens 3 e) e ++ text)))) =
        some ((), [' '] ++ (operandChars (needsParens 3 e) e ++ text)) :=
      keyword_append (List.all_eq_true.mp rfl) (by decide) rfl hg (breaks_cons.mpr rfl)
    refine ⟨a, mid, () :: nots, ?_, ha, ?_⟩
    · rw [hchars]
      exact .cons hword (by simp; omega) hsteps
    · rw [List.foldr_cons, hfold]
  rw [reread_not]
  exact hneg

theorem one_le_logicalRank (operator : Logical) : 1 ≤ logicalRank operator := by
  cases operator <;> decide

/-- A logical operator and its right operand behind a chain of that operator. -/
theorem ReadingFrom.logical {P : Nat → Expr → Prop} (operator : Logical) {first : List Char}
    (hl : ReadingFrom P (readerAt depth) (logicalRank operator) first left) (hr : ReadsBack right)
    (hd : (operandChars (needsParens (logicalRank operator) right) right).length ≤ depth) :
    ReadingFrom P (readerAt depth) (logicalRank operator) (first ++ (' ' :: operator.word.toList ++
      ' ' :: operandChars (needsParens (logicalRank operator) right) right))
      (attach operator left right.reread) := by
  have hright := hr.operand (needsParens_iff (logicalRank_ne operator) right)
    (one_le_logicalRank operator) hd
  cases operator with
  | and =>
    have hclose : ∀ rest, Closes 3 (' ' :: "AND".toList ++ ' ' :: rest) := fun rest =>
      closes_word (List.all_eq_true.mp rfl) (by decide) (breaks_cons.mpr rfl) (by decide) (by decide)
        (by decide)
    exact Spine.attach rfl hl hright (fun rest => rfl) hclose
  | or =>
    have hclose : ∀ rest, Closes 2 (' ' :: "OR".toList ++ ' ' :: rest) := fun rest =>
      closes_word (List.all_eq_true.mp rfl) (by decide) (breaks_cons.mpr rfl) (by decide) (by decide)
        (by decide)
    exact Spine.attach rfl hl hright (fun rest => rfl) hclose

theorem ReadsBack.logical (operator : Logical) (hl : ReadsBack left) (hr : ReadsBack right) :
    ReadsBack (.logical operator left right) := by
  intro depth hd
  rw [chars_logical] at hd ⊢
  rw [rank_logical, reread_logical]
  simp only [List.length_append, List.length_cons] at hd
  have hleft := hl.operand (needsParens_iff (logicalRank_ne operator) left)
    (one_le_logicalRank operator) (Nat.le_trans (by omega) hd)
  exact hleft.logical operator hr (Nat.le_trans (by omega) hd)

section Comparisons
variable {operator : String}

theorem sign_multiplicative (hop : operator ∈ multiplicativeSigns) (rest : List Char) :
    sign multiplicativeSigns (' ' :: operator.toList ++ ' ' :: rest) =
      some (operator, ' ' :: rest) := by
  simp only [multiplicativeSigns, List.mem_cons, List.not_mem_nil, or_false] at hop
  rcases hop with rfl | rfl | rfl <;> rfl

theorem sign_additive (hop : operator ∈ additiveSigns) (rest : List Char) :
    sign additiveSigns (' ' :: operator.toList ++ ' ' :: rest) = some (operator, ' ' :: rest) := by
  simp only [additiveSigns, List.mem_cons, List.not_mem_nil, or_false] at hop
  rcases hop with rfl | rfl | rfl <;> rfl

theorem ReadsBack.product (hop : operator ∈ multiplicativeSigns) (hl : ReadsBack left)
    (hr : ReadsBack right) : ReadsBack (.comparison operator left right) := by
  intro depth hd
  obtain ⟨hrank, hgap⟩ := rank_multiplicative operator hop
  rw [chars_spaced left right hgap, hrank] at hd ⊢
  simp only [List.length_append, List.length_cons] at hd
  have hleft := hl.operand (needsParens_iff (by decide) left) (by decide)
    (Nat.le_trans (by omega) hd : (operandChars (needsParens 6 left) left).length ≤ depth)
  have hright := hr.operand (needsParensRight_iff 6 right) (by decide)
    (Nat.le_trans (by omega) hd : (operandChars (needsParensRight 6 right) right).length ≤ depth)
  rw [rank, hrank, reread_comparison]
  exact Spine.snoc hleft hright.whole (sign_multiplicative hop) fun rest => closes_multiplicative hop

theorem ReadsBack.sum (hop : operator ∈ additiveSigns) (hl : ReadsBack left)
    (hr : ReadsBack right) : ReadsBack (.comparison operator left right) := by
  intro depth hd
  obtain ⟨hrank, hgap⟩ := rank_additive operator hop
  rw [chars_spaced left right hgap, hrank] at hd ⊢
  simp only [List.length_append, List.length_cons] at hd
  have hleft := hl.operand (needsParens_iff (by decide) left) (by decide)
    (Nat.le_trans (by omega) hd : (operandChars (needsParens 5 left) left).length ≤ depth)
  have hright := hr.operand (needsParensRight_iff 5 right) (by decide)
    (Nat.le_trans (by omega) hd : (operandChars (needsParensRight 5 right) right).length ≤ depth)
  rw [rank, hrank, reread_comparison]
  exact Spine.snoc hleft hright.whole (sign_additive hop) fun rest => closes_additive hop

/-- A comparison reads back when its left operand does and the rest reads as its tail. -/
theorem whole_comparison {inner : Reader Expr} {first second : List Char}
    (hl : Whole inner 5 first left) (hclose : ∀ text, Closes 5 (second ++ text))
    (htail : ∀ text, Closes 4 text →
      tail inner (second ++ text) = some ((operator, right), text)) :
    Whole inner 4 (first ++ second) (.comparison operator left right) := by
  intro gap text hg hc
  have hread := hl gap (second ++ text) hg (hclose text)
  have hopt := Reader.optional_of_some (htail text hc)
  rw [List.append_assoc]
  exact (bind_of_some hread).trans (bind_of_some hopt)

theorem ReadsBack.comparisonSign (hop : operator ∈ comparisonSigns) (hl : ReadsBack left)
    (hr : ReadsBack right) : ReadsBack (.comparison operator left right) := by
  intro depth hd
  rw [chars_sign left right hop] at hd ⊢
  simp only [List.length_append] at hd
  have hleft := (hl.operand (needsParens_comparison left) (by decide)
    (Nat.le_trans (by omega) hd : (operandChars (needsParens 4 left) left).length ≤ depth)).whole
  have hright := (hr.operand (needsParensRight_iff 4 right) (by decide) (Nat.le_trans (by omega) hd :
    (operandChars (needsParensRight 4 right) right).length ≤ depth)).whole
  rw [rank, (rank_sign operator hop).1, reread_comparison]
  refine whole_comparison hleft (fun text => ?_) fun text hc => ?_
  · rw [List.append_assoc]
    exact closes_comparison hop
  · rw [List.append_assoc]
    exact tail_sign hop (hright [] text Gap.nil (hc.mono (by decide)))

theorem ReadsBack.comparisonWord (hop : operator ∈ wordOperators) (hl : ReadsBack left)
    (hr : ReadsBack right) : ReadsBack (.comparison operator left right) := by
  intro depth hd
  obtain ⟨hrank, hgap⟩ := rank_word operator (List.mem_append_left _ hop)
  rw [chars_spaced left right hgap, hrank] at hd ⊢
  simp only [List.length_append, List.length_cons] at hd
  have hleft := (hl.operand (needsParens_comparison left) (by decide)
    (Nat.le_trans (by omega) hd : (operandChars (needsParens 4 left) left).length ≤ depth)).whole
  have hright := (hr.operand (needsParensRight_iff 4 right) (by decide) (Nat.le_trans (by omega) hd :
    (operandChars (needsParensRight 4 right) right).length ≤ depth)).whole
  rw [rank, hrank, reread_comparison]
  refine whole_comparison hleft (fun text => ?_) fun text hc => ?_
  · simp only [List.append_assoc, List.cons_append]
    exact closes_words (List.mem_append_left _ hop)
  · simp only [List.append_assoc, List.cons_append]
    exact tail_word hop (hright [' '] text Gap.blank (hc.mono (by decide)))

theorem ReadsBack.membership {items : List Expr} (hop : operator ∈ listOperators)
    (hl : ReadsBack left) (hne : items ≠ []) (hitems : ∀ e ∈ items, ReadsBack e) :
    ReadsBack (.comparison operator left (.list items)) := by
  intro depth hd
  obtain ⟨hrank, hgap⟩ := rank_word operator (List.mem_append_right _ hop)
  have hlist : operandChars (needsParensRight (operatorRank operator) (.list items)) (.list items) =
      '(' :: ((commas (items.map (render .standard))).toList ++ [')']) := by
    rw [hrank, operandChars, render, renderAll_eq_map]
    simp [parenthesize, needsParensRight, rank]
  rw [chars_spaced left _ hgap, hlist, hrank] at hd ⊢
  simp only [List.length_append, List.length_cons] at hd
  have hleft := (hl.operand (needsParens_comparison left) (by decide)
    (Nat.le_trans (by omega) hd : (operandChars (needsParens 4 left) left).length ≤ depth)).whole
  have hread : ∀ e ∈ items,
      ReadsAs (readerAt depth) (Closes 1) (e.render .standard) e.reread := by
    intro e he
    have hlen := length_le_commas (List.mem_map_of_mem (f := render .standard) he)
    exact (hitems e he).inside (Nat.lt_of_le_of_lt hlen (by omega))
  rw [rank, hrank, reread_comparison, reread_list]
  refine whole_comparison hleft (fun text => ?_) fun text _ => ?_
  · simp only [List.append_assoc, List.cons_append]
    exact closes_words (List.mem_append_right _ hop)
  · have hsep := separated_commas closes_comma hne hread (closes_parenthesis text) rfl Gap.nil
    simp only [List.append_assoc, List.cons_append, List.nil_append] at hsep ⊢
    exact tail_list hop hsep

end Comparisons
end Operands
end Expr
end FeatureSql.Sql
