import FeatureSql.Proofs.Lexeme
import FeatureSql.Sql.Expr.Reader
import FeatureSql.Sql.Expr.Render

/-! Shapes of expressions: which of them a text can stand for, and which arguments could be
mistaken for named ones. -/

set_option autoImplicit false

namespace FeatureSql.Sql

/-- The name of a function: one word that is not reserved. -/
structure IsFunctionName (name : String) : Prop where
  start : ∃ c cs, name.toList = c :: cs ∧ isWordStart c = true ∧ ∀ d ∈ cs, isWordChar d = true
  free : isReserved name.toList = false

/-- Operators between words, upper case as they are written. -/
def wordOperators : List String := ["IS", "IS NOT", "LIKE", "NOT LIKE", "ILIKE", "NOT ILIKE"]

/-- Operators with a list on the right. -/
def listOperators : List String := ["IN", "NOT IN"]

def binaryOperators : List String :=
  wordOperators ++ comparisonSigns ++ additiveSigns ++ multiplicativeSigns

namespace Expr

@[elab_as_elim, induction_eliminator]
theorem induct {motive : Expr → Prop} (name : ∀ value, motive (.name value))
    (text : ∀ value, motive (.text value)) (number : ∀ value, motive (.number value))
    (call : ∀ function arguments, (∀ a ∈ arguments, motive a) → motive (.call function arguments))
    (named : ∀ label value, motive value → motive (.named label value)) (star : motive .star)
    (list : ∀ items, (∀ e ∈ items, motive e) → motive (.list items))
    (not : ∀ operand, motive operand → motive (.not operand))
    (logical : ∀ operator left right, motive left → motive right →
      motive (.logical operator left right))
    (comparison : ∀ operator left right, motive left → motive right →
      motive (.comparison operator left right)) (e : Expr) : motive e :=
  @Expr.rec motive (fun es => ∀ e ∈ es, motive e) name text number call named star list not logical
    comparison (by simp) (fun e es he hes x hx => by
      rcases List.mem_cons.mp hx with rfl | hx
      · exact he
      · exact hes x hx) e

theorem renderAll_eq_map (dialect : Dialect) (es : List Expr) :
    renderAll dialect es = es.map (render dialect) := by
  induction es with
  | nil => rfl
  | cons e es ih => rw [renderAll, ih, List.map_cons]

/-- Where an expression stands: as a value, as an argument of a call, or behind `IN`. -/
inductive Place where
  | operand
  | argument
  | listed
  deriving DecidableEq, Repr

inductive WellFormedAt : Place → Expr → Prop where
  | name (value : String) : WellFormedAt .operand (.name value)
  | text (value : String) : WellFormedAt .operand (.text value)
  | number {value : String} : IsNumber value → WellFormedAt .operand (.number value)
  | call {function : String} {arguments : List Expr} : IsFunctionName function →
      (∀ a ∈ arguments, WellFormedAt .argument a) → WellFormedAt .operand (.call function arguments)
  | not {operand : Expr} : WellFormedAt .operand operand → WellFormedAt .operand (.not operand)
  | logical (operator : Logical) {left right : Expr} : WellFormedAt .operand left →
      WellFormedAt .operand right → WellFormedAt .operand (.logical operator left right)
  | comparison {operator : String} {left right : Expr} : operator ∈ binaryOperators →
      WellFormedAt .operand left → WellFormedAt .operand right →
      WellFormedAt .operand (.comparison operator left right)
  | membership {operator : String} {left right : Expr} : operator ∈ listOperators →
      WellFormedAt .operand left → WellFormedAt .listed right →
      WellFormedAt .operand (.comparison operator left right)
  | list {items : List Expr} : items ≠ [] → (∀ e ∈ items, WellFormedAt .operand e) →
      WellFormedAt .listed (.list items)
  | star : WellFormedAt .argument .star
  | named (label : String) {value : Expr} : WellFormedAt .operand value →
      WellFormedAt .argument (.named label value)
  | positional {e : Expr} : WellFormedAt .operand e → WellFormedAt .argument e

/-- An expression that can stand for itself. -/
abbrev WellFormed (e : Expr) : Prop := WellFormedAt .operand e

/-- The text opens with a bare name or a text literal, and an equals sign right behind it. -/
def OpensWithLabel (sql : String) : Prop :=
  ∃ label rest, argumentLabel sql.toList = some (label, '=' :: rest)

theorem opensWithLabel_iff (sql : String) : OpensWithLabel sql ↔
    ((argumentLabel sql.toList).bind fun read => read.2.head?) = some '=' := by
  constructor
  · rintro ⟨label, rest, h⟩
    rw [h]
    rfl
  · intro h
    obtain ⟨⟨label, rest⟩, hread, hhead⟩ := Option.bind_eq_some_iff.mp h
    obtain ⟨tail, htail⟩ := List.head?_eq_some_iff.mp hhead
    exact ⟨label, tail, htail ▸ hread⟩

instance (sql : String) : Decidable (OpensWithLabel sql) :=
  decidable_of_iff _ (opensWithLabel_iff sql).symm

def isNamed : Expr → Bool
  | .named _ _ => true
  | _ => false

mutual

/-- No argument by place, at any depth, opens with a label. -/
def LabelFree : Expr → Prop
  | .name _ | .text _ | .number _ | .star => True
  | .call _ arguments => LabelFreeArguments arguments
  | .named _ value => LabelFree value
  | .list items => LabelFreeAll items
  | .not operand => LabelFree operand
  | .logical _ left right => LabelFree left ∧ LabelFree right
  | .comparison _ left right => LabelFree left ∧ LabelFree right

def LabelFreeAll : List Expr → Prop
  | [] => True
  | e :: es => LabelFree e ∧ LabelFreeAll es

def LabelFreeArguments : List Expr → Prop
  | [] => True
  | a :: as => (a.isNamed = false → ¬ OpensWithLabel (a.render .standard)) ∧ LabelFree a ∧
      LabelFreeArguments as

end

theorem labelFreeAll_iff (es : List Expr) : LabelFreeAll es ↔ ∀ e ∈ es, LabelFree e := by
  induction es with
  | nil => simp [LabelFreeAll]
  | cons e es ih => simp [LabelFreeAll, ih]

theorem labelFreeArguments_iff (as : List Expr) : LabelFreeArguments as ↔
    ∀ a ∈ as, (a.isNamed = false → ¬ OpensWithLabel (a.render .standard)) ∧ LabelFree a := by
  induction as with
  | nil => simp [LabelFreeArguments]
  | cons a as ih => simp [LabelFreeArguments, ih, and_assoc]

end Expr
end FeatureSql.Sql
