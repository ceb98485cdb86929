/-!
Decimals against floating-point numbers: the exact value behind a pattern of bits, the reals that
round to it, and the decimal with the fewest digits among them.
-/

namespace Quantities

/-- A decimal, worth `digits * 10 ^ exponent`. -/
structure Decimal where
  digits : Nat
  exponent : Int
deriving Repr, DecidableEq

/-- A finite floating-point magnitude, worth `mantissa * 2 ^ exponent`. The neighbour below a
power of two is half as far away as the one above; `nearBelow` says that this is such a number. -/
structure Binary where
  mantissa : Nat
  exponent : Int
  nearBelow : Bool
deriving Repr, DecidableEq

namespace Binary

/-- The magnitude of a finite number; its sign bit is not looked at. -/
def ofFloat (x : Float) : Binary :=
  let bits := x.toBits
  let biased := ((bits >>> 52) &&& 0x7FF).toNat
  let fraction := (bits &&& 0xFFFFFFFFFFFFF).toNat
  if biased = 0 then ⟨fraction, -1074, false⟩
  else ⟨Nat.pow 2 52 + fraction, (biased : Int) - 1075, fraction == 0 && 1 < biased⟩

/-- The power of two with this exponent, which is at least -1074 and at most 1023. -/
def powerOfTwo (exponent : Int) : Float :=
  if exponent < -1022 then Float.ofBits (1 <<< (exponent + 1074).toNat.toUInt64)
  else Float.ofBits ((exponent + 1023).toNat.toUInt64 <<< 52)

/-- The number with this magnitude, exact whenever there is one. -/
def toFloat (x : Binary) : Float :=
  Float.ofNat x.mantissa * powerOfTwo x.exponent

/-- Compares a decimal with `mantissa * 2 ^ exponent`, both brought to one denominator. -/
def compareDecimal (d : Decimal) (mantissa : Nat) (exponent : Int) : Ordering :=
  compare (d.digits * Nat.pow 10 d.exponent.toNat * Nat.pow 2 (-exponent).toNat)
    (mantissa * Nat.pow 2 exponent.toNat * Nat.pow 10 (-d.exponent).toNat)

/-- The decimal lies between the midpoints to the two neighbours. A midpoint itself rounds to the
even mantissa. -/
def readsBack (x : Binary) (d : Decimal) : Bool :=
  let below := compareDecimal d (4 * x.mantissa - (if x.nearBelow then 1 else 2)) (x.exponent - 2)
  let above := compareDecimal d (4 * x.mantissa + 2) (x.exponent - 2)
  let even := x.mantissa % 2 == 0
  (below == .gt || even && below == .eq) && (above == .lt || even && above == .eq)

/-- The value as a decimal with no rounding at all. -/
def exactDecimal (x : Binary) : Decimal :=
  if 0 ≤ x.exponent then ⟨x.mantissa * Nat.pow 2 x.exponent.toNat, 0⟩
  else ⟨x.mantissa * Nat.pow 5 (-x.exponent).toNat, x.exponent⟩

/-- The least `k` with the value below `10 ^ k`. The logarithm base two gives it up to two steps. -/
def decimalSize (x : Binary) : Int :=
  let estimate := (x.mantissa.log2 + x.exponent) * 30103 / 100000
  let below (k : Int) : Bool := compareDecimal ⟨1, k⟩ x.mantissa x.exponent == .gt
  if below estimate then estimate
  else if below (estimate + 1) then estimate + 1
  else estimate + 2

/-- The decimal with this exponent that reads back and lies nearest, the upper one of two
equally near. -/
def nearestOnGrid (x : Binary) (exponent : Int) : Option Decimal :=
  let numerator := x.mantissa * Nat.pow 2 x.exponent.toNat * Nat.pow 10 (-exponent).toNat
  let denominator := Nat.pow 2 (-x.exponent).toNat * Nat.pow 10 exponent.toNat
  let lower : Decimal := ⟨numerator / denominator, exponent⟩
  let upper : Decimal := ⟨numerator / denominator + 1, exponent⟩
  match x.readsBack lower, x.readsBack upper with
  | true, true =>
    some (if 2 * numerator < (lower.digits + upper.digits) * denominator then lower else upper)
  | true, false => some lower
  | false, true => some upper
  | false, false => none

/-- The decimal with the fewest digits that reads back. Seventeen digits are enough. -/
def fewestDigits (x : Binary) : Decimal :=
  if x.mantissa = 0 then ⟨0, 0⟩
  else
    let size := x.decimalSize
    ((List.range 17).findSome? fun count => x.nearestOnGrid (size - (count + 1 : Nat))).getD
      x.exactDecimal

end Binary

namespace Decimal

/-- Drops the zeros at the end of the digits, at most `count` of them. -/
def dropZerosFrom : Nat → Decimal → Decimal
  | 0, d => d
  | count + 1, d =>
    if d.digits ≠ 0 ∧ d.digits % 10 = 0 then dropZerosFrom count ⟨d.digits / 10, d.exponent + 1⟩
    else d

def characters (d : Decimal) : List Char := Nat.toDigits 10 d.digits

/-- The decimal written out in full, with no exponent: zeros fill the places up to the point on
either side of it. -/
def positional (d : Decimal) : List Char :=
  let trimmed := d.dropZerosFrom d.characters.length
  let written := trimmed.characters
  if 0 ≤ trimmed.exponent then written ++ List.replicate trimmed.exponent.toNat '0'
  else
    let places := (-trimmed.exponent).toNat
    let padded := List.replicate (places + 1 - written.length) '0' ++ written
    padded.take (padded.length - places) ++ '.' :: padded.drop (padded.length - places)

/-- The number nearest to a decimal. Sizes far outside the range of numbers are settled without
computing the power of ten. -/
def toFloat (d : Decimal) : Float :=
  let size := d.characters.length + d.exponent
  if d.digits = 0 ∨ size < -330 then 0
  else if 310 < size then 1 / 0
  else Float.ofScientific d.digits (d.exponent < 0) d.exponent.natAbs

end Decimal

end Quantities
