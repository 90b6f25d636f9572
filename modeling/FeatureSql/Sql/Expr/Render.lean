import FeatureSql.Sql.Dialect
import FeatureSql.Sql.Expr.Basic
import FeatureSql.Sql.Name
import FeatureSql.Text.Alphabetic

/-! Expressions as SQL. An operand is put in parentheses only where its operator binds less
tightly than the one around it, or equally tightly on a side where that would regroup. -/

set_option autoImplicit false

namespace FeatureSql.Sql

def Logical.word : Logical → String
  | .and => "AND"
  | .or => "OR"

/-- How tightly the operators that compare bind; they do not chain. -/
def comparisonRank : Nat := 4

def operatorRank (operator : String) : Nat :=
  if operator ∈ ["||", "+", "-"] then 5
  else if operator ∈ ["*", "/", "%"] then 6
  else comparisonRank

/-- Comparisons by sign stand without blanks; words and arithmetic stand between blanks. -/
def operatorGap (operator : String) : String :=
  if operatorRank operator = comparisonRank && !operator.toList.any isAlphabetic then "" else " "

/-- Parts of a list, as SQL separates them. -/
def commas (parts : List String) : String := ", ".intercalate parts

def parenthesize (needed : Bool) (sql : String) : String :=
  if needed then "(" ++ sql ++ ")" else sql

namespace Expr

/-- How tightly an expression holds together: more is tighter. -/
def rank : Expr → Nat
  | .logical .or _ _ => 1
  | .logical .and _ _ => 2
  | .not _ => 3
  | .comparison operator _ _ => operatorRank operator
  | _ => 10

/-- Operands of an associative operator, and left operands of the others. -/
def needsParens (around : Nat) (operand : Expr) : Bool :=
  operand.rank < around || (operand.rank == around && operand.rank == comparisonRank)

/-- Right operands of an operator that groups from the left. -/
def needsParensRight (around : Nat) (operand : Expr) : Bool :=
  operand.rank ≤ around

mutual

def render (dialect : Dialect) : Expr → String
  | .name value =>
    if value ∈ ["NULL", "TRUE", "FALSE"] then value else writeName value
  | .text value => dialect.literal value
  | .number value => value
  | .call function arguments =>
    function ++ "(" ++ commas (renderAll dialect arguments) ++ ")"
  | .named label value => dialect.literal label ++ "=" ++ render dialect value
  | .star => "*"
  | .list items => "(" ++ commas (renderAll dialect items) ++ ")"
  | .not operand => "NOT " ++ parenthesize (needsParens 3 operand) (render dialect operand)
  | .logical operator left right =>
    let around := rank (.logical operator left right)
    parenthesize (needsParens around left) (render dialect left) ++ " " ++ operator.word ++ " " ++
      parenthesize (needsParens around right) (render dialect right)
  | .comparison operator left right =>
    let around := operatorRank operator
    parenthesize (needsParens around left) (render dialect left) ++ operatorGap operator ++
      operator ++ operatorGap operator ++
      parenthesize (needsParensRight around right) (render dialect right)

def renderAll (dialect : Dialect) : List Expr → List String
  | [] => []
  | e :: es => render dialect e :: renderAll dialect es

end

end Expr
end FeatureSql.Sql
