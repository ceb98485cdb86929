import Quantities.Number.Decimal
import Quantities.Number.Literal

/-!
Numbers as the language writes and reads them, and the remainder of a division.
-/

namespace Quantities

namespace Number

/-- The sign bit, which also tells the two zeros apart. -/
def isNegative (x : Float) : Bool := x.toBits >>> 63 == 1

/-- The shortest digits that read back to the same number, never with an exponent. -/
def text (x : Float) : String :=
  if x.isNaN then "NaN"
  else if x.isInf then (if isNegative x then "-Infinity" else "Infinity")
  else
    let digits := String.ofList (Binary.ofFloat x).fewestDigits.positional
    if isNegative x then "-" ++ digits else digits

/-- Reads a literal that takes up the whole text. -/
def ofMagnitude? (text : List Char) : Option Float :=
  if text = "Infinity".toList then some (1 / 0)
  else
    match Literal.take text with
    | (literal, []) => if literal.whole.isEmpty then none else some literal.value
    | (_, _ :: _) => none

/-- Reads a number with its sign. Everything that `text` writes is read, and powers of ten too. -/
def ofText? (text : String) : Option Float :=
  match text.toList with
  | ['N', 'a', 'N'] => some (0 / 0)
  | '-' :: magnitude => (ofMagnitude? magnitude).map (-·)
  | magnitude => ofMagnitude? magnitude

/-- What is left of `x` after taking away the largest whole multiple of `y`. It is exact and has
the sign of `x`. -/
def remainder (x y : Float) : Float :=
  if x.isNaN || y.isNaN || x.isInf || y == 0 then 0 / 0
  else if y.isInf then x
  else
    let dividend := Binary.ofFloat x
    let divisor := Binary.ofFloat y
    let exponent := min dividend.exponent divisor.exponent
    let rest := (dividend.mantissa * Nat.pow 2 (dividend.exponent - exponent).toNat) %
      (divisor.mantissa * Nat.pow 2 (divisor.exponent - exponent).toNat)
    let magnitude := Binary.toFloat ⟨rest, exponent, false⟩
    if isNegative x then -magnitude else magnitude

end Number

end Quantities
