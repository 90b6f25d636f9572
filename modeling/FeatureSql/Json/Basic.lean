/-! JSON values. Members of an object keep the order in which they were written. -/

set_option autoImplicit false

namespace FeatureSql

/-- Integers keep their value; every other number is the binary64 number with these bits. -/
inductive Json.Number where
  | int (value : Int)
  | double (bits : UInt64)
  deriving DecidableEq, Repr

inductive Json where
  | null
  | bool (value : Bool)
  | number (value : Json.Number)
  | str (value : String)
  | arr (items : List Json)
  | obj (members : List (String × Json))
  deriving Repr, Inhabited

namespace Json

def int (value : Int) : Json := .number (.int value)

/-- The value of an object's member. -/
def get? (json : Json) (key : String) : Option Json :=
  match json with
  | .obj members => members.lookup key
  | _ => none

def index? (json : Json) (i : Nat) : Option Json :=
  match json with
  | .arr items => items[i]?
  | _ => none

def str? : Json → Option String
  | .str value => some value
  | _ => none

def bool? : Json → Option Bool
  | .bool value => some value
  | _ => none

def items? : Json → Option (List Json)
  | .arr items => some items
  | _ => none

/-- An integer that a signed 64-bit word can hold. -/
def int64? : Json → Option Int64
  | .number (.int value) =>
    if Int64.minValue.toInt ≤ value ∧ value ≤ Int64.maxValue.toInt then some (Int64.ofInt value)
    else none
  | _ => none

/-- An integer that an unsigned 64-bit word can hold. -/
def uint64? : Json → Option UInt64
  | .number (.int value) =>
    if 0 ≤ value ∧ value < UInt64.size then some (UInt64.ofNat value.toNat) else none
  | _ => none

def isObject : Json → Bool
  | .obj _ => true
  | _ => false

def isNull : Json → Bool
  | .null => true
  | _ => false

end Json
end FeatureSql
