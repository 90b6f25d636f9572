import FeatureSql.Proofs.Expr.Shape

/-! Chains of `AND` and of `OR`. However such a chain is grouped its text is the same, and when it
is read it is grouped from the left. -/

set_option autoImplicit false

namespace FeatureSql.Sql.Expr

/-- Puts an operand in front of a chain of the operator that is grouped from the left. -/
def attach (operator : Logical) (first : Expr) : Expr → Expr
  | .logical other left right =>
    if other = operator then .logical operator (attach operator first left) right
    else .logical operator first (.logical other left right)
  | e => .logical operator first e

mutual

/-- The same expression with every chain of one logical operator grouped from the left. -/
def leftGrouped : Expr → Expr
  | .name value => .name value
  | .text value => .text value
  | .number value => .number value
  | .call function arguments => .call function (leftGroupedAll arguments)
  | .named label value => .named label (leftGrouped value)
  | .star => .star
  | .list items => .list (leftGroupedAll items)
  | .not operand => .not (leftGrouped operand)
  | .logical operator left right => attach operator (leftGrouped left) (leftGrouped right)
  | .comparison operator left right =>
    .comparison operator (leftGrouped left) (leftGrouped right)

def leftGroupedAll : List Expr → List Expr
  | [] => []
  | e :: es => leftGrouped e :: leftGroupedAll es

end

attribute [local simp] attach leftGrouped leftGroupedAll

theorem leftGroupedAll_eq_map (es : List Expr) : leftGroupedAll es = es.map leftGrouped := by
  induction es with
  | nil => rfl
  | cons e es ih => simp [ih]

theorem attach_logical (operator : Logical) (first left right : Expr) :
    attach operator first (.logical operator left right) =
      .logical operator (attach operator first left) right := by
  rw [attach, if_pos rfl]

/-- How tightly a logical operator holds its operands together. -/
def logicalRank (operator : Logical) : Nat := (Expr.logical operator .star .star).rank

theorem rank_logical (operator : Logical) (left right : Expr) :
    (Expr.logical operator left right).rank = logicalRank operator := by
  cases operator <;> rfl

theorem operatorRank_cases (operator : String) :
    operatorRank operator = 4 ∨ operatorRank operator = 5 ∨ operatorRank operator = 6 := by
  unfold operatorRank comparisonRank
  split
  · exact Or.inr (Or.inl rfl)
  · split
    · exact Or.inr (Or.inr rfl)
    · exact Or.inl rfl

theorem attach_of_ne {operator : Logical} {e : Expr} (first : Expr)
    (h : e.rank ≠ logicalRank operator) : attach operator first e = .logical operator first e := by
  cases e with
  | logical other left right =>
    rw [rank_logical] at h
    have hne : other ≠ operator := by rintro rfl; exact h rfl
    rw [attach, if_neg hne]
  | _ => rfl

theorem attach_eq_logical (operator : Logical) (first e : Expr) :
    ∃ left right, attach operator first e = .logical operator left right := by
  cases e with
  | logical other left right =>
    rw [attach]
    split
    · exact ⟨_, _, rfl⟩
    · exact ⟨_, _, rfl⟩
  | _ => exact ⟨_, _, rfl⟩

theorem rank_attach (operator : Logical) (first e : Expr) :
    (attach operator first e).rank = logicalRank operator := by
  obtain ⟨left, right, h⟩ := attach_eq_logical operator first e
  rw [h, rank_logical]

theorem rank_leftGrouped (e : Expr) : e.leftGrouped.rank = e.rank := by
  cases e with
  | logical operator left right => rw [leftGrouped, rank_attach, rank_logical]
  | _ => rfl

theorem attach_assoc (operator : Logical) (first second third : Expr) :
    attach operator (attach operator first second) third =
      attach operator first (attach operator second third) := by
  induction third with
  | logical other left right ihl _ =>
    by_cases h : other = operator
    · subst h
      rw [attach_logical, attach_logical, attach_logical, ihl]
    · have hapart : ∀ e, attach operator e (.logical other left right) =
          .logical operator e (.logical other left right) := fun e => by rw [attach, if_neg h]
      rw [hapart, hapart, attach_logical]
  | _ => exact (attach_logical operator first second _).symm

theorem leftGrouped_attach (operator : Logical) (first second : Expr) :
    (attach operator first second).leftGrouped =
      attach operator first.leftGrouped second.leftGrouped := by
  induction second with
  | logical other left right ihl _ =>
    by_cases h : other = operator
    · subst h
      rw [attach_logical, leftGrouped, ihl, attach_assoc, ← leftGrouped]
    · rw [attach, if_neg h, leftGrouped]
  | _ => rfl

theorem leftGrouped_leftGrouped (e : Expr) : e.leftGrouped.leftGrouped = e.leftGrouped := by
  induction e with
  | name | text | number | star => rfl
  | call function arguments ih =>
    simp only [leftGrouped, leftGroupedAll_eq_map, List.map_map]
    exact congrArg _ (List.map_congr_left ih)
  | named label value ih => rw [leftGrouped, leftGrouped, ih]
  | list items ih =>
    simp only [leftGrouped, leftGroupedAll_eq_map, List.map_map]
    exact congrArg _ (List.map_congr_left ih)
  | not operand ih => rw [leftGrouped, leftGrouped, ih]
  | logical operator left right ihl ihr => rw [leftGrouped, leftGrouped_attach, ihl, ihr]
  | comparison operator left right ihl ihr => rw [leftGrouped, leftGrouped, ihl, ihr]

section Text
variable (dialect : Dialect)

theorem render_logical (operator : Logical) (left right : Expr) :
    (Expr.logical operator left right).render dialect =
      parenthesize (needsParens (logicalRank operator) left) (left.render dialect) ++ " " ++
        operator.word ++ " " ++
        parenthesize (needsParens (logicalRank operator) right) (right.render dialect) := by
  rw [render, rank_logical]

theorem needsParens_of_rank {around : Nat} {e : Expr} (h : e.rank = around) (hne : around ≠ 4) :
    needsParens around e = false := by
  simp [needsParens, comparisonRank, h, hne]

theorem logicalRank_ne (operator : Logical) : logicalRank operator ≠ 4 := by
  cases operator <;> decide

theorem render_attach (operator : Logical) (first second : Expr) :
    (attach operator first second).render dialect =
      (Expr.logical operator first second).render dialect := by
  induction second with
  | logical other left right ihl _ =>
    by_cases h : other = operator
    · subst h
      have hchain := needsParens_of_rank (rank_attach other first left) (logicalRank_ne other)
      have hright := needsParens_of_rank (rank_logical other left right) (logicalRank_ne other)
      rw [attach_logical, render_logical, hchain, ihl, render_logical,
        render_logical dialect other first, hright, render_logical dialect other left]
      simp [parenthesize, String.append_assoc]
    · rw [attach, if_neg h]
  | _ => rfl

theorem needsParens_leftGrouped (around : Nat) (e : Expr) :
    needsParens around e.leftGrouped = needsParens around e := by
  simp only [needsParens, rank_leftGrouped]

theorem render_leftGrouped (e : Expr) : e.leftGrouped.render dialect = e.render dialect := by
  induction e with
  | name | text | number | star => rfl
  | call function arguments ih =>
    simp only [leftGrouped, render, leftGroupedAll_eq_map, renderAll_eq_map, List.map_map]
    exact congrArg (fun sqls => function ++ "(" ++ commas sqls ++ ")") (List.map_congr_left ih)
  | named label value ih => rw [leftGrouped, render, ih, render]
  | list items ih =>
    simp only [leftGrouped, render, leftGroupedAll_eq_map, renderAll_eq_map, List.map_map]
    exact congrArg (fun sqls => "(" ++ commas sqls ++ ")") (List.map_congr_left ih)
  | not operand ih => rw [leftGrouped, render, ih, needsParens_leftGrouped, render]
  | logical operator left right ihl ihr =>
    rw [leftGrouped, render_attach, render_logical, needsParens_leftGrouped,
      needsParens_leftGrouped, ihl, ihr, render_logical]
  | comparison operator left right ihl ihr =>
    simp only [leftGrouped, render, ihl, ihr, needsParens_leftGrouped, needsParensRight,
      rank_leftGrouped]

end Text

theorem isNamed_leftGrouped (e : Expr) : e.leftGrouped.isNamed = e.isNamed := by
  cases e with
  | logical operator left right =>
    obtain ⟨left', right', h⟩ := attach_eq_logical operator left.leftGrouped right.leftGrouped
    rw [leftGrouped, h]
    rfl
  | _ => rfl

theorem labelFree_attach (operator : Logical) (first second : Expr) :
    LabelFree (attach operator first second) ↔ LabelFree first ∧ LabelFree second := by
  induction second with
  | logical other left right ihl _ =>
    by_cases h : other = operator
    · subst h
      rw [attach_logical, LabelFree, ihl, LabelFree, and_assoc]
    · rw [attach, if_neg h, LabelFree]
  | _ => exact Iff.rfl

theorem labelFree_leftGrouped (e : Expr) : LabelFree e.leftGrouped ↔ LabelFree e := by
  induction e with
  | name | text | number | star => rfl
  | call function arguments ih =>
    rw [leftGrouped, LabelFree, LabelFree, leftGroupedAll_eq_map, labelFreeArguments_iff,
      labelFreeArguments_iff, List.forall_mem_map]
    apply forall₂_congr
    intro a ha
    rw [isNamed_leftGrouped, render_leftGrouped, ih a ha]
  | named label value ih => rw [leftGrouped, LabelFree, LabelFree, ih]
  | list items ih =>
    rw [leftGrouped, LabelFree, LabelFree, leftGroupedAll_eq_map, labelFreeAll_iff,
      labelFreeAll_iff, List.forall_mem_map]
    exact forall₂_congr ih
  | not operand ih => rw [leftGrouped, LabelFree, LabelFree, ih]
  | logical operator left right ihl ihr =>
    rw [leftGrouped, labelFree_attach, ihl, ihr, LabelFree]
  | comparison operator left right ihl ihr => rw [leftGrouped, LabelFree, LabelFree, ihl, ihr]

theorem wellFormed_attach {operator : Logical} {first second : Expr} (hf : WellFormed first)
    (hs : WellFormed second) : WellFormed (attach operator first second) := by
  induction second with
  | logical other left right ihl _ =>
    rw [attach]
    split
    · cases hs with
      | logical _ hl hr => exact .logical operator (ihl hl) hr
    · exact .logical operator hf hs
  | _ => exact .logical operator hf hs

theorem WellFormedAt.leftGrouped {place : Place} {e : Expr} (h : WellFormedAt place e) :
    WellFormedAt place e.leftGrouped := by
  induction h with
  | name value => exact .name value
  | text value => exact .text value
  | number hv => exact .number hv
  | call hf _ ih =>
    rw [Expr.leftGrouped, leftGroupedAll_eq_map]
    exact .call hf (List.forall_mem_map.mpr ih)
  | not _ ih => exact .not ih
  | logical operator _ _ ihl ihr => exact wellFormed_attach ihl ihr
  | comparison hop _ _ ihl ihr => exact .comparison hop ihl ihr
  | membership hop _ _ ihl ihr => exact .membership hop ihl ihr
  | list hne _ ih =>
    rw [Expr.leftGrouped, leftGroupedAll_eq_map]
    exact .list (by simpa using hne) (List.forall_mem_map.mpr ih)
  | star => exact .star
  | named label _ ih => exact .named label ih
  | positional _ ih => exact .positional ih

end FeatureSql.Sql.Expr
