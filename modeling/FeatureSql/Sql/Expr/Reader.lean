import FeatureSql.Sql.Expr.Basic
import FeatureSql.Sql.Lexeme

/-! Expressions read from SQL, one layer of precedence after the other. What stands in
parentheses is read by the reader of the level inside. -/

set_option autoImplicit false

namespace FeatureSql.Sql

/-- Bare `null`, `true` and `false` are written in capitals. -/
def normalizeConstant (value : String) : String :=
  if isConstant value.toList then String.ofList (upper value.toList) else value

namespace Expr

def nameReader : Reader Expr :=
  (Expr.name <$> quotedName) <|> (Expr.name <$> backtickName) <|>
    ((fun value => .name (normalizeConstant value)) <$> bareName)

section Layer
variable (inner : Reader Expr)

def argumentLabel : Reader String := textLiteral <|> bareName

def argument : Reader Expr :=
  (do symbol "*"; pure .star) <|>
    (do let label ← argumentLabel; symbol "="; let value ← inner; pure (.named label value)) <|>
    inner

def arguments : Reader (List Expr) := Reader.separated comma (argument inner) <|> pure []

def callReader : Reader Expr := do
  let function ← functionName
  symbol "("
  let arguments ← arguments inner
  symbol ")"
  pure (.call function arguments)

def parenthesized : Reader Expr := do
  symbol "("
  let e ← inner
  symbol ")"
  pure e

def primary : Reader Expr :=
  callReader inner <|> parenthesized inner <|> (Expr.number <$> numberLiteral) <|>
    (Expr.text <$> textLiteral) <|> nameReader

def multiplicative : Reader Expr :=
  Reader.chain (primary inner) (sign multiplicativeSigns) .comparison

def additive : Reader Expr :=
  Reader.chain (multiplicative inner) (sign additiveSigns) .comparison

/-- A word that may stand before the operator and then belongs to it. -/
def optionalNot : Reader (List String) := (do keyword "not"; pure ["NOT"]) <|> pure []

/-- An operator that compares, with its right operand. -/
abbrev Tail := String × Expr

def isTail : Reader Tail := do
  keyword "is"
  let negation ← optionalNot
  let right ← additive inner
  pure (" ".intercalate ("IS" :: negation), right)

def inTail : Reader Tail := do
  let negation ← optionalNot
  keyword "in"
  symbol "("
  let items ← Reader.separated comma inner
  symbol ")"
  pure (" ".intercalate (negation ++ ["IN"]), .list items)

def likeWord : Reader String :=
  (do keyword "like"; pure "LIKE") <|> (do keyword "ilike"; pure "ILIKE")

def likeTail : Reader Tail := do
  let negation ← optionalNot
  let word ← likeWord
  let right ← additive inner
  pure (" ".intercalate (negation ++ [word]), right)

def signTail : Reader Tail := do
  let operator ← sign comparisonSigns
  let right ← additive inner
  pure (operator, right)

def tail : Reader Tail := isTail inner <|> inTail inner <|> likeTail inner <|> signTail inner

def comparisonReader : Reader Expr := do
  let left ← additive inner
  let tail ← optional (tail inner)
  match tail with
  | some (operator, right) => pure (.comparison operator left right)
  | none => pure left

def negation : Reader Expr := do
  let nots ← Reader.many (keyword "not")
  let e ← comparisonReader inner
  pure (nots.foldr (fun _ e => .not e) e)

def conjunction : Reader Expr :=
  Reader.chain (negation inner) (keyword "and") fun _ => .logical .and

def disjunction : Reader Expr :=
  Reader.chain (conjunction inner) (keyword "or") fun _ => .logical .or

end Layer

/-- Expressions with fewer than `depth` levels of parentheses. -/
def readerAt : Nat → Reader Expr
  | 0, _ => none
  | depth + 1, sql => disjunction (readerAt depth) sql

/-- Each level of parentheses takes a character, so the length of the text bounds their depth. -/
def reader : Reader Expr := fun sql => readerAt (sql.length + 1) sql

def listReader : Reader (List Expr) := Reader.separated comma reader

end Expr
end FeatureSql.Sql
