import FeatureSql.Sql.Word
import FeatureSql.Text.Numeral
import FeatureSql.Text.Quoted

/-! Lexemes of SQL. Each may stand after blanks, tabs and line ends, and holds none inside
unless it is quoted. -/

set_option autoImplicit false

namespace FeatureSql.Sql

/-- What may stand between two lexemes. -/
def isGap (c : Char) : Bool := c == ' ' || c == '\t' || c == '\r' || c == '\n'

def lexeme {α : Type} (reader : Reader α) : Reader α := Reader.after isGap reader

/-- A whole word, in any ASCII case. -/
def keyword (word : String) : Reader Unit := lexeme do
  let cs ← Reader.run isWordChar
  guard (lower cs = word.toList)

def symbol (sign : String) : Reader Unit := lexeme (Reader.exactly sign.toList)

def comma : Reader Unit := symbol ","

/-- The first sign of a list that the text starts with. -/
def signOf : List String → Reader String
  | [] => failure
  | sign :: signs => (do Reader.exactly sign.toList; pure sign) <|> signOf signs

/-- Where one sign starts another, the longer one comes first. -/
def comparisonSigns : List String :=
  ["<>", "<=", ">=", "!=", "=", "<", ">", "!~*", "!~", "~*", "~"]

def additiveSigns : List String := ["||", "+", "-"]

def multiplicativeSigns : List String := ["*", "/", "%"]

def sign (signs : List String) : Reader String := lexeme (signOf signs)

/-- Refuses where the text goes on with a reserved word. -/
def notReserved : Reader Unit := fun text =>
  if isReserved (text.takeWhile isWordChar) then none else some ((), text)

def bareName : Reader String := lexeme do
  notReserved
  let c ← Reader.satisfy isWordStart
  let cs ← Reader.run fun c => isWordChar c || c == '.'
  pure (String.ofList (c :: cs))

def quotedName : Reader String := lexeme (Quoted.read '\x22')

def backtick : Char := '\x60'

/-- A name between backticks, up to the next one. -/
def backtickName : Reader String := lexeme do
  Reader.char backtick
  let cs ← Reader.run (· != backtick)
  Reader.char backtick
  pure (String.ofList cs)

def name : Reader String := quotedName <|> backtickName <|> bareName

def bareTable : Reader String := lexeme do
  notReserved
  let cs ← Reader.run1 fun c => isWordChar c || c == '-' || c == '.'
  pure (String.ofList cs)

def tableName : Reader String := quotedName <|> backtickName <|> bareTable

def functionName : Reader String := lexeme do
  notReserved
  let c ← Reader.satisfy isWordStart
  let cs ← Reader.run isWordChar
  pure (String.ofList (c :: cs))

def textLiteral : Reader String := lexeme (Quoted.read '\x27')

/-- A number; its minus sign belongs to it. -/
def numberLiteral : Reader String := lexeme do
  let n ← Numeral.read Numeral.digits
  pure (String.ofList n.chars)

end FeatureSql.Sql
