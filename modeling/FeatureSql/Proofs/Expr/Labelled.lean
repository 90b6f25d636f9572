import FeatureSql.Proofs.Expr.Grouping
import FeatureSql.Proofs.Expr.Primary

/-! Arguments by place whose text opens with a label are read as arguments by name. An expression
with its arguments named so is what its text stands for, up to the grouping of chains. -/

set_option autoImplicit false

namespace FeatureSql.Sql.Expr

/-- The label that an expression is in front of an equals sign. -/
def label? : Expr → Option String
  | .name value => if standsBare value then some value else none
  | .text value => some value
  | _ => none

/-- The label that the text of an expression opens with, and the value that stands behind it. -/
def splitLabel : Expr → Option (String × Expr)
  | .comparison operator left right =>
    if operator = "=" then (label? left).map fun label => (label, right) else none
  | .logical operator left right =>
    if needsParens (logicalRank operator) left then none
    else (splitLabel left).map fun (label, value) => (label, .logical operator value right)
  | _ => none

/-- An argument by place as it is read. -/
def byPlace (argument : Expr) : Expr :=
  match splitLabel argument with
  | some (label, value) => .named label value
  | none => argument

mutual

/-- The same expression, its arguments by place as they are read, at every depth. -/
def labelled : Expr → Expr
  | .name value => .name value
  | .text value => .text value
  | .number value => .number value
  | .call function arguments => .call function (labelledArguments arguments)
  | .named label value => .named label (labelled value)
  | .star => .star
  | .list items => .list (labelledAll items)
  | .not operand => .not (labelled operand)
  | .logical operator left right => .logical operator (labelled left) (labelled right)
  | .comparison operator left right => .comparison operator (labelled left) (labelled right)

def labelledAll : List Expr → List Expr
  | [] => []
  | e :: es => labelled e :: labelledAll es

def labelledArguments : List Expr → List Expr
  | [] => []
  | a :: as => byPlace (labelled a) :: labelledArguments as

end

attribute [local simp] labelled labelledAll labelledArguments

/-- What the text of an expression is read as. -/
def reread (e : Expr) : Expr := e.labelled.leftGrouped

theorem labelledAll_eq_map (es : List Expr) : labelledAll es = es.map labelled := by
  induction es with
  | nil => rfl
  | cons e es ih => simp [ih]

theorem labelledArguments_eq_map (as : List Expr) :
    labelledArguments as = as.map fun a => byPlace (labelled a) := by
  induction as with
  | nil => rfl
  | cons a as ih => simp [ih]

theorem rank_labelled (e : Expr) : e.labelled.rank = e.rank := by
  cases e with
  | logical operator left right => cases operator <;> rfl
  | _ => rfl

theorem needsParens_labelled (around : Nat) (e : Expr) :
    needsParens around e.labelled = needsParens around e := by
  simp only [needsParens, rank_labelled]

theorem rank_reread (e : Expr) : e.reread.rank = e.rank := by
  rw [reread, rank_leftGrouped, rank_labelled]

section Reread
variable (operator : String) (left right : Expr)

theorem reread_not (operand : Expr) : (Expr.not operand).reread = .not operand.reread := by
  rw [reread, labelled, leftGrouped, reread]

theorem reread_logical (operator : Logical) :
    (Expr.logical operator left right).reread = attach operator left.reread right.reread := by
  rw [reread, labelled, leftGrouped, reread, reread]

theorem reread_comparison :
    (Expr.comparison operator left right).reread = .comparison operator left.reread right.reread := by
  rw [reread, labelled, leftGrouped, reread, reread]

theorem reread_list (items : List Expr) : (Expr.list items).reread = .list (items.map reread) := by
  rw [reread, labelled, leftGrouped, labelledAll_eq_map, leftGroupedAll_eq_map, List.map_map]
  rfl

end Reread

/-- How an argument of a call is read. -/
def rereadArgument (a : Expr) : Expr := (byPlace a.labelled).leftGrouped

theorem reread_call (function : String) (as : List Expr) :
    (Expr.call function as).reread = .call function (as.map rereadArgument) := by
  rw [reread, labelled, leftGrouped, labelledArguments_eq_map, leftGroupedAll_eq_map, List.map_map]
  rfl

theorem byPlace_of_none {a : Expr} (h : splitLabel a = none) : byPlace a = a := by
  rw [byPlace, h]

theorem splitLabel_eq_none_of_rank {e : Expr} (h : 5 ≤ e.rank) : splitLabel e = none := by
  cases e with
  | comparison operator left right =>
    have hne : operator ≠ "=" := by
      rintro rfl
      have hrank : ¬ 5 ≤ operatorRank "=" := by decide
      exact hrank h
    rw [splitLabel, if_neg hne]
  | logical operator left right =>
    rw [rank_logical] at h
    cases operator <;> exact absurd h (by decide)
  | _ => rfl

section Split
variable {e value : Expr} {label : String}

/-- An expression that a label can be split off is a comparison, or a chain that starts with one. -/
theorem splitLabel_cases {motive : Expr → String → Expr → Prop}
    (equals : ∀ left right label, label? left = some label →
      motive (.comparison "=" left right) label right)
    (logical : ∀ operator left right label value, needsParens (logicalRank operator) left = false →
      splitLabel left = some (label, value) → motive left label value →
      motive (.logical operator left right) label (.logical operator value right))
    (h : splitLabel e = some (label, value)) : motive e label value := by
  induction e generalizing value with
  | comparison operator left right =>
    rw [splitLabel] at h
    split at h
    case isTrue hop =>
      obtain ⟨label, hlabel, h⟩ := Option.map_eq_some_iff.mp h
      cases h
      exact hop ▸ equals left right label hlabel
    case isFalse => cases h
  | logical operator left right ihl =>
    rw [splitLabel] at h
    split at h
    case isTrue => cases h
    case isFalse hparens =>
      obtain ⟨⟨label, value⟩, hsplit, h⟩ := Option.map_eq_some_iff.mp h
      cases h
      exact logical operator left right label value (by simpa using hparens) hsplit (ihl hsplit)
  | _ => cases h

theorem label?_labelled (e : Expr) : label? e.labelled = label? e := by
  cases e <;> rfl

/-- The label depends on what stands outside of calls only. -/
theorem fst_splitLabel_labelled (e : Expr) :
    (splitLabel e.labelled).map Prod.fst = (splitLabel e).map Prod.fst := by
  induction e with
  | comparison operator left right =>
    rw [labelled, splitLabel, splitLabel, label?_labelled]
    split
    · simp only [Option.map_map, Function.comp_def]
    · rfl
  | logical operator left right ihl =>
    rw [labelled, splitLabel, splitLabel, needsParens_labelled]
    split
    · rfl
    · simpa only [Option.map_map, Function.comp_def] using ihl
  | _ => rfl

theorem wellFormed_splitLabel (hwell : WellFormed e) (h : splitLabel e = some (label, value)) :
    WellFormed value := by
  revert hwell
  refine splitLabel_cases (motive := fun e _ value => WellFormed e → WellFormed value) ?_ ?_ h
  · intro left right label _ hwell
    cases hwell with
    | comparison _ _ hr => exact hr
    | membership hop => exact absurd hop (by decide)
  · intro operator left right label value _ _ ih hwell
    cases hwell with
    | logical _ hl hr => exact .logical operator (ih hl) hr

theorem labelFree_splitLabel (hfree : LabelFree e) (h : splitLabel e = some (label, value)) :
    LabelFree value := by
  revert hfree
  refine splitLabel_cases (motive := fun e _ value => LabelFree e → LabelFree value) ?_ ?_ h
  · exact fun left right label _ hfree => hfree.2
  · exact fun operator left right label value _ _ ih hfree => ⟨ih hfree.1, hfree.2⟩

end Split

theorem WellFormedAt.byPlace {a : Expr} (h : WellFormedAt .argument a) :
    WellFormedAt .argument (byPlace a) := by
  cases hsplit : splitLabel a with
  | none =>
    rw [byPlace_of_none hsplit]
    exact h
  | some split =>
    rw [Expr.byPlace, hsplit]
    cases h with
    | star | named => cases hsplit
    | positional h => exact .named _ (wellFormed_splitLabel h hsplit)

theorem WellFormedAt.labelled {place : Place} {e : Expr} (h : WellFormedAt place e) :
    WellFormedAt place e.labelled := by
  induction h with
  | name value => exact .name value
  | text value => exact .text value
  | number hv => exact .number hv
  | call hf _ ih =>
    rw [Expr.labelled, labelledArguments_eq_map]
    exact .call hf (List.forall_mem_map.mpr fun a ha => (ih a ha).byPlace)
  | not _ ih => exact .not ih
  | logical operator _ _ ihl ihr => exact .logical operator ihl ihr
  | comparison hop _ _ ihl ihr => exact .comparison hop ihl ihr
  | membership hop _ _ ihl ihr => exact .membership hop ihl ihr
  | list hne _ ih =>
    rw [Expr.labelled, labelledAll_eq_map]
    exact .list (by simpa using hne) (List.forall_mem_map.mpr ih)
  | star => exact .star
  | named label _ ih => exact .named label ih
  | positional _ ih => exact .positional ih

end FeatureSql.Sql.Expr
