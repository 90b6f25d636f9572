import FeatureSql.Json.Basic
import FeatureSql.Text.Shortest

/-! JSON values as text: compact, or laid out over lines with two blanks of indent. -/

set_option autoImplicit false

namespace FeatureSql.Json

namespace Number

/-- Numbers from `10 ^ -5` up to, not including, `10 ^ 16` are written without an exponent. -/
def plainExponents (e : Int) : Bool := -5 ≤ e && e < 16

def exponentText (e : Int) : String :=
  "e" ++ (if e < 0 then "-" else "+") ++ e.natAbs.repr

/-- Shortest digits with a point, which integers keep as `.0`, or with a signed exponent. -/
def decimalText (d : Decimal) : String :=
  let ds := Nat.toDigits 10 d.digits
  let e := d.exponent + ds.length - 1
  if plainExponents e then
    if e < 0 then "0." ++ String.ofList (List.replicate (-e - 1).toNat '0' ++ ds)
    else
      let whole := e.toNat + 1
      if ds.length ≤ whole then
        String.ofList (ds ++ List.replicate (whole - ds.length) '0') ++ ".0"
      else String.ofList (ds.take whole) ++ "." ++ String.ofList (ds.drop whole)
  else
    match ds with
    | first :: [] => String.ofList [first] ++ exponentText e
    | _ => String.ofList (ds.take 1) ++ "." ++ String.ofList (ds.drop 1) ++ exponentText e

def doubleText (bits : UInt64) : String :=
  let x := Binary.ofBits bits
  (if Nat.pow 2 63 ≤ bits.toNat then "-" else "") ++
    (if x.significand = 0 then "0.0" else decimalText x.shortest)

def text : Number → String
  | .int value => value.repr
  | .double bits => doubleText bits

end Number

def hexDigit (n : Nat) : Char := n.digitChar

/-- A character inside a string: quotes, backslashes and control characters are escaped. -/
def escape (c : Char) : List Char :=
  if c == '\x22' then ['\\', '\x22']
  else if c == '\\' then ['\\', '\\']
  else if c == '\x08' then ['\\', 'b']
  else if c == '\t' then ['\\', 't']
  else if c == '\n' then ['\\', 'n']
  else if c == '\x0c' then ['\\', 'f']
  else if c == '\r' then ['\\', 'r']
  else if c.toNat < 32 then
    ['\\', 'u', '0', '0', hexDigit (c.toNat / 16), hexDigit (c.toNat % 16)]
  else [c]

def stringText (s : String) : String :=
  String.ofList ('\x22' :: (s.toList.flatMap escape ++ ['\x22']))

def boolText (value : Bool) : String := if value then "true" else "false"

mutual

/-- The compact text of a value. -/
def compact : Json → String
  | .null => "null"
  | .bool value => boolText value
  | .number value => value.text
  | .str value => stringText value
  | .arr items => "[" ++ ",".intercalate (compactItems items) ++ "]"
  | .obj members => "\x7b" ++ ",".intercalate (compactMembers members) ++ "\x7d"

def compactItems : List Json → List String
  | [] => []
  | item :: items => compact item :: compactItems items

def compactMembers : List (String × Json) → List String
  | [] => []
  | (key, value) :: members =>
    (stringText key ++ ":" ++ compact value) :: compactMembers members

end

/-- The start of a line at a depth. -/
def lineStart (depth : Nat) : String := "\n" ++ String.ofList (List.replicate (2 * depth) ' ')

/-- Parts between brackets, each on its own line; nothing between them if there are none. -/
def bracketLines (depth : Nat) (opening closing : String) : List String → String
  | [] => opening ++ closing
  | parts =>
    opening ++ lineStart (depth + 1) ++ ("," ++ lineStart (depth + 1)).intercalate parts ++
      lineStart depth ++ closing

mutual

/-- The text of a value over lines, as it stands at a depth. -/
def prettyAt (depth : Nat) : Json → String
  | .null => "null"
  | .bool value => boolText value
  | .number value => value.text
  | .str value => stringText value
  | .arr items => bracketLines depth "[" "]" (prettyItems (depth + 1) items)
  | .obj members => bracketLines depth "\x7b" "\x7d" (prettyMembers (depth + 1) members)

def prettyItems (depth : Nat) : List Json → List String
  | [] => []
  | item :: items => prettyAt depth item :: prettyItems depth items

def prettyMembers (depth : Nat) : List (String × Json) → List String
  | [] => []
  | (key, value) :: members =>
    (stringText key ++ ": " ++ prettyAt depth value) :: prettyMembers depth members

end

def pretty (json : Json) : String := prettyAt 0 json

end FeatureSql.Json
