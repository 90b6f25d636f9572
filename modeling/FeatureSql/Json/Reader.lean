import FeatureSql.Json.Basic
import FeatureSql.Text.Numeral

/-! JSON text as values. Members are kept as they are written, a repeated key twice; `settle`
then keeps the last value of each key, where the key stood first. -/

set_option autoImplicit false

namespace FeatureSql.Json

def isSpace (c : Char) : Bool := c == ' ' || c == '\t' || c == '\n' || c == '\r'

/-- Reads after white space. -/
def token {α : Type} (reader : Reader α) : Reader α := Reader.after isSpace reader

def punctuation (c : Char) : Reader Unit := token (Reader.char c)

def word (chars : String) : Reader Unit := Reader.exactly chars.toList

/-- Digits before the point, without a zero in front of others. -/
def wholeDigits : Reader (List Char) :=
  (do Reader.char '0'; pure ['0']) <|> Numeral.digits

/-- The integer that an exponent's text stands for; without text it is zero. -/
def exponentValue : List Char → Int
  | [] => 0
  | _ :: '-' :: digits => -(natOfDigits digits : Int)
  | _ :: '+' :: digits => natOfDigits digits
  | _ :: digits => natOfDigits digits

/-- Digits go into a significand as long as it fits a word. The rest of them are passed over, and
only their number is kept. -/
def takeDigits (significand : Nat) : List Char → Nat × Nat
  | [] => (significand, 0)
  | c :: cs =>
    let next := 10 * significand + (c.toNat - '0'.toNat)
    if next < UInt64.size then takeDigits next cs else (significand, cs.length + 1)

/-- The significand of a numeral and its power of ten. Digits that are passed over before the point
count as zeros, those behind it do not count. -/
def scientificOf (n : Numeral) : Nat × Int :=
  let (significand, zeros) := takeDigits 0 n.whole
  let (significand, passed) := takeDigits significand n.fraction
  (significand, exponentValue n.exponent + zeros - (n.fraction.length - passed : Nat))

/-- The largest power of ten that is finite. -/
def largestPower : Nat := 308

def powerOfTen (exponent : Nat) : Float := Float.ofScientific 1 false exponent

/-- Divides by the largest power of ten so many times, or until nothing is left. -/
def scaleDown (value : Float) : Nat → Float
  | 0 => value
  | times + 1 => if value == 0 then value else scaleDown (value / powerOfTen largestPower) times

/-- A significand times a power of ten, if that is finite. Every step is rounded, and so the result
may lie beside the nearest number. -/
def scale? (significand : Nat) (exponent : Int) : Option Float :=
  let value := significand.toUInt64.toFloat
  if exponent < 0 then
    let times := (exponent.natAbs - 1) / largestPower
    some (scaleDown value times / powerOfTen (exponent.natAbs - times * largestPower))
  else if exponent ≤ largestPower then
    let value := value * powerOfTen exponent.toNat
    if value.isInf then none else some value
  else if significand = 0 then some value
  else none

/-- The bits of a number with a sign. -/
def doubleOf? (negative : Bool) (significand : Nat) (exponent : Int) : Option UInt64 :=
  (scale? significand exponent).map fun value =>
    (if negative then 0x8000000000000000 else 0) ||| value.toBits

/-- Integers that a 64-bit word can hold stay integers; minus zero is none of them. -/
def numberOf? (n : Numeral) : Option Number :=
  let whole : Int := natOfDigits n.whole
  let value := if n.negative then -whole else whole
  if n.fraction.isEmpty && n.exponent.isEmpty && !(n.negative && whole = 0) &&
      Int64.minValue.toInt ≤ value && value < UInt64.size then some (.int value)
  else
    let (significand, exponent) := scientificOf n
    (doubleOf? n.negative significand exponent).map .double

def numberReader : Reader Number := do
  let n ← Numeral.read wholeDigits
  match numberOf? n with
  | some value => pure value
  | none => failure

def hexValue? (c : Char) : Option Nat :=
  if c.isDigit then some (c.toNat - '0'.toNat)
  else if 'a' ≤ c && c ≤ 'f' then some (c.toNat - 'a'.toNat + 10)
  else if 'A' ≤ c && c ≤ 'F' then some (c.toNat - 'A'.toNat + 10)
  else none

/-- The unit of 16 bits that four hexadecimal digits stand for, and the text after them. -/
def hexUnit? : List Char → Option (Nat × List Char)
  | a :: b :: c :: d :: rest => do
    let a ← hexValue? a
    let b ← hexValue? b
    let c ← hexValue? c
    let d ← hexValue? d
    pure (((a * 16 + b) * 16 + c) * 16 + d, rest)
  | _ => none

/-- The character of an escaped unit. The high half of a pair needs the low half behind it. -/
def unicodeEscape? (text : List Char) : Option (Char × List Char) := do
  let (high, rest) ← hexUnit? text
  if high < 0xD800 || 0xDFFF < high then pure (Char.ofNat high, rest)
  else if 0xDC00 ≤ high then none
  else match rest with
    | '\\' :: 'u' :: more =>
      let (low, rest) ← hexUnit? more
      if 0xDC00 ≤ low && low ≤ 0xDFFF then
        pure (Char.ofNat (0x10000 + (high - 0xD800) * 0x400 + (low - 0xDC00)), rest)
      else none
    | _ => none

/-- The character that follows a backslash. -/
def escape? : List Char → Option (Char × List Char)
  | [] => none
  | c :: rest =>
    if c == '\x22' || c == '\\' || c == '/' then some (c, rest)
    else if c == 'b' then some ('\x08', rest)
    else if c == 'f' then some ('\x0c', rest)
    else if c == 'n' then some ('\n', rest)
    else if c == 'r' then some ('\r', rest)
    else if c == 't' then some ('\t', rest)
    else if c == 'u' then unicodeEscape? rest
    else none

/-- One character of a string, escaped or not. The closing quote is none. -/
def stringChar : Reader Char
  | [] => none
  | c :: rest =>
    if c == '\\' then escape? rest
    else if c == '\x22' || c.toNat < 32 then none
    else some (c, rest)

def stringReader : Reader String := do
  Reader.char '\x22'
  let cs ← Reader.many stringChar
  Reader.char '\x22'
  pure (String.ofList cs)

/-- Parts between brackets, with commas between them; there may be none. -/
def bracketed {α : Type} (opening closing : Char) (part : Reader α) : Reader (List α) := do
  punctuation opening
  let parts ← Reader.separated (punctuation ',') (token part) <|> pure []
  punctuation closing
  pure parts

section Layer
variable (inner : Reader Json)

def memberReader : Reader (String × Json) := do
  let key ← stringReader
  punctuation ':'
  let value ← token inner
  pure (key, value)

def nested : Reader Json :=
  (Json.arr <$> bracketed '[' ']' inner) <|>
    (Json.obj <$> bracketed '\x7b' '\x7d' (memberReader inner))

end Layer

def scalar : Reader Json :=
  (do word "null"; pure .null) <|> (do word "true"; pure (.bool true)) <|>
    (do word "false"; pure (.bool false)) <|> (Json.str <$> stringReader) <|>
    (Json.number <$> numberReader)

/-- Values with at most `depth` arrays and objects inside one another. -/
def readerAt : Nat → Reader Json
  | 0, text => scalar text
  | depth + 1, text => (scalar <|> nested (readerAt depth)) text

/-- How many arrays and objects a text may hold inside one another. -/
def maxDepth : Nat := 127

/-- The value of a text, members as written. -/
def ofTextAt? (depth : Nat) (text : String) : Option Json :=
  (do
    let json ← token (readerAt depth)
    token Reader.atEnd
    pure json : Reader Json).value? text

mutual

/-- Each key once: with its last value, at its first place. -/
def settle : Json → Json
  | .arr items => .arr (settleItems items)
  | .obj members => .obj (settleMembers members)
  | json => json

def settleItems : List Json → List Json
  | [] => []
  | item :: items => settle item :: settleItems items

def settleMembers : List (String × Json) → List (String × Json)
  | [] => []
  | (key, value) :: members =>
    let members := settleMembers members
    (key, (members.lookup key).getD (settle value)) :: members.filter (·.1 != key)

end

/-- The value of a text, members as written, within the depth that texts may have. -/
def ofText? (text : String) : Option Json := ofTextAt? maxDepth text

/-- The value of a text whose keys are settled. -/
def parse? (text : String) : Option Json := (ofText? text).map settle

end FeatureSql.Json
