/-! Expressions of a query: names, literals, calls, and the operators that join them. -/

set_option autoImplicit false

namespace FeatureSql.Sql

inductive Logical where
  | and
  | or
  deriving DecidableEq, Repr

inductive Expr where
  /-- A column, or one of the bare words `NULL`, `TRUE` and `FALSE`. -/
  | name (value : String)
  | text (value : String)
  /-- A number as it was written. -/
  | number (value : String)
  | call (function : String) (arguments : List Expr)
  /-- A call's argument given by name. -/
  | named (label : String) (value : Expr)
  | star
  | list (items : List Expr)
  | not (operand : Expr)
  | logical (operator : Logical) (left right : Expr)
  | comparison (operator : String) (left right : Expr)
  deriving Repr, Inhabited

namespace Expr

mutual

def beq : Expr → Expr → Bool
  | .name a, .name b => a == b
  | .text a, .text b => a == b
  | .number a, .number b => a == b
  | .call f as, .call g bs => f == g && beqAll as bs
  | .named a x, .named b y => a == b && beq x y
  | .star, .star => true
  | .list as, .list bs => beqAll as bs
  | .not x, .not y => beq x y
  | .logical a x v, .logical b y w => a == b && beq x y && beq v w
  | .comparison a x v, .comparison b y w => a == b && beq x y && beq v w
  | _, _ => false

def beqAll : List Expr → List Expr → Bool
  | [], [] => true
  | a :: as, b :: bs => beq a b && beqAll as bs
  | _, _ => false

end

mutual

theorem beq_iff_eq : ∀ a b : Expr, beq a b = true ↔ a = b
  | .name _, b => by cases b <;> simp [beq]
  | .text _, b => by cases b <;> simp [beq]
  | .number _, b => by cases b <;> simp [beq]
  | .call _ as, b => by cases b <;> simp [beq, beqAll_iff_eq as]
  | .named _ x, b => by cases b <;> simp [beq, beq_iff_eq x]
  | .star, b => by cases b <;> simp [beq]
  | .list as, b => by cases b <;> simp [beq, beqAll_iff_eq as]
  | .not x, b => by cases b <;> simp [beq, beq_iff_eq x]
  | .logical _ x v, b => by cases b <;> simp [beq, beq_iff_eq x, beq_iff_eq v, and_assoc]
  | .comparison _ x v, b => by cases b <;> simp [beq, beq_iff_eq x, beq_iff_eq v, and_assoc]

theorem beqAll_iff_eq : ∀ as bs : List Expr, beqAll as bs = true ↔ as = bs
  | [], bs => by cases bs <;> simp [beqAll]
  | a :: as, bs => by cases bs <;> simp [beqAll, beq_iff_eq a, beqAll_iff_eq as]

end

instance : DecidableEq Expr := fun a b => decidable_of_iff (beq a b = true) (beq_iff_eq a b)

def and (left right : Expr) : Expr := .logical .and left right

end Expr
end FeatureSql.Sql
