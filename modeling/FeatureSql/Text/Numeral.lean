import FeatureSql.Text.Reader

/-! Numbers as text: a sign, digits, a fraction and an exponent. The formats that hold numbers
differ in what may stand before the point. -/

set_option autoImplicit false

namespace FeatureSql

structure Numeral where
  negative : Bool
  whole : List Char
  /-- The digits after the point; without a point there are none. -/
  fraction : List Char
  /-- What stands from the exponent's mark to its end. -/
  exponent : List Char
  deriving DecidableEq, Repr

namespace Numeral

def chars (n : Numeral) : List Char :=
  (if n.negative then ['-'] else []) ++ n.whole ++
    (if n.fraction.isEmpty then [] else '.' :: n.fraction) ++ n.exponent

def digits : Reader (List Char) := Reader.run1 Char.isDigit

def sign : Reader Bool := (do Reader.char '-'; pure true) <|> pure false

def fractionDigits : Reader (List Char) := (do Reader.char '.'; digits) <|> pure []

def exponentSign : Reader (List Char) :=
  (do let c ← Reader.satisfy fun c => c == '+' || c == '-'; pure [c]) <|> pure []

def exponentPart : Reader (List Char) :=
  (do
    let mark ← Reader.satisfy fun c => c == 'e' || c == 'E'
    let sign ← exponentSign
    let ds ← digits
    pure (mark :: (sign ++ ds))) <|> pure []

/-- A number whose digits before the point are read by `whole`. -/
def read (whole : Reader (List Char)) : Reader Numeral := do
  let negative ← sign
  let whole ← whole
  let fraction ← fractionDigits
  let exponent ← exponentPart
  pure { negative, whole, fraction, exponent }

end Numeral

/-- The natural number that decimal digits stand for. -/
def natOfDigits (digits : List Char) : Nat := Nat.ofDigitChars 10 digits 0

end FeatureSql
