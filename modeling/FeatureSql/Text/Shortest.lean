/-! The shortest decimal digits of a binary64 number: the fewest that read back as that number,
and of those the nearest; a tie goes to the even last digit. All arithmetic is exact. -/

set_option autoImplicit false

namespace FeatureSql

/-- A finite binary64 number without its sign, as `significand * 2 ^ exponent`. -/
structure Binary where
  significand : Nat
  exponent : Int
  /-- The next lower number is only half as far away as the next higher one. -/
  narrowBelow : Bool
  deriving DecidableEq, Repr

/-- The number that bits stand for, their sign aside. -/
def Binary.ofBits (bits : UInt64) : Binary :=
  let exponent : Nat := bits.toNat / Nat.pow 2 52 % Nat.pow 2 11
  let fraction : Nat := bits.toNat % Nat.pow 2 52
  if exponent = 0 then { significand := fraction, exponent := -1074, narrowBelow := false }
  else {
    significand := Nat.pow 2 52 + fraction
    exponent := (exponent : Int) - 1075
    narrowBelow := fraction = 0 && 1 < exponent }

/-- A decimal number, as `digits * 10 ^ exponent`. -/
structure Decimal where
  digits : Nat
  exponent : Int
  deriving DecidableEq, Repr

/-- Compares `a * 10 ^ i` with `b * 2 ^ j`. -/
def compareScaled (a : Nat) (i : Int) (b : Nat) (j : Int) : Ordering :=
  compare (a * Nat.pow 10 i.toNat * Nat.pow 2 (-j).toNat)
    (b * Nat.pow 2 j.toNat * Nat.pow 10 (-i).toNat)

/-- Whether a decimal lies among the numbers that round to `x`: between the middles of the gaps
below and above, the middles included where the significand is even. -/
def Binary.readsBack (x : Binary) (d : Decimal) : Bool :=
  let low := 4 * x.significand - (if x.narrowBelow then 1 else 2)
  let high := 4 * x.significand + 2
  let even := x.significand % 2 == 0
  let atLow := compareScaled d.digits d.exponent low (x.exponent - 2)
  let atHigh := compareScaled d.digits d.exponent high (x.exponent - 2)
  (atLow == .gt || (even && atLow == .eq)) && (atHigh == .lt || (even && atHigh == .eq))

def digitCount (n : Nat) : Nat := (Nat.toDigits 10 n).length

/-- The exponent `k` with `10 ^ (k - 1) ≤ num / den < 10 ^ k`, for positive numbers. -/
def magnitude (num den : Nat) : Int :=
  if den ≤ num then digitCount (num / den) else 1 - (digitCount ((den - 1) / num) : Int)

/-- Numerator and denominator. -/
def Binary.ratio (x : Binary) : Nat × Nat :=
  (x.significand * Nat.pow 2 x.exponent.toNat, Nat.pow 2 (-x.exponent).toNat)

/-- Whether a rest of `rest / den` is rounded down: below one half, or at one half if the
quotient is even. -/
def roundsDown (quotient rest den : Nat) : Bool :=
  2 * rest < den || (2 * rest == den && quotient % 2 == 0)

/-- The nearer of the two neighbours of `x` on the grid of `10 ^ p` that read back, if any. -/
def Binary.onGrid? (x : Binary) (p : Int) : Option Decimal :=
  let (num, den) := x.ratio
  let n := num * Nat.pow 10 (-p).toNat
  let d := den * Nat.pow 10 p.toNat
  let lower : Decimal := ⟨n / d, p⟩
  let upper : Decimal := ⟨n / d + 1, p⟩
  match x.readsBack lower, x.readsBack upper with
  | true, true => if roundsDown (n / d) (n % d) d then some lower else some upper
  | true, false => some lower
  | false, true => some upper
  | false, false => none

/-- Zeros at the end of the digits go into the exponent. -/
def Decimal.strip (d : Decimal) : Decimal :=
  let zeros := ((Nat.toDigits 10 d.digits).reverse.takeWhile (· == '0')).length
  { digits := d.digits / Nat.pow 10 zeros, exponent := d.exponent + zeros }

/-- A number with all its decimal digits. -/
def Binary.exact (x : Binary) : Decimal :=
  ⟨x.significand * Nat.pow 2 x.exponent.toNat * Nat.pow 5 (-x.exponent).toNat, min x.exponent 0⟩

/-- The shortest decimal of a positive number; seventeen digits are always enough. -/
def Binary.shortest (x : Binary) : Decimal :=
  let (num, den) := x.ratio
  let k := magnitude num den
  let grids := (List.range 17).map fun (n : Nat) => k - 1 - n
  ((grids.findSome? x.onGrid?).getD x.exact).strip

end FeatureSql
