import Quantities.Number.Decimal

/-!
Number literals: digits, then perhaps a point with more digits, then perhaps a power of ten. Each
part is taken only when it is complete, so `1.` is the literal `1` before a point and `1e+` is the
literal `1` before a name.
-/

namespace Quantities

/-- The parts of a literal as they are written. No point is written before an empty fraction. -/
structure Literal where
  whole : List Char
  fraction : List Char
  power : List Char
deriving Repr, DecidableEq

namespace Literal

def isDigit (c : Char) : Bool := '0' ≤ c && c ≤ '9'

def text (literal : Literal) : List Char :=
  literal.whole ++ (if literal.fraction.isEmpty then [] else '.' :: literal.fraction) ++
    literal.power

def takeFraction : List Char → List Char × List Char
  | '.' :: rest =>
    if (rest.takeWhile isDigit).isEmpty then ([], '.' :: rest)
    else (rest.takeWhile isDigit, rest.dropWhile isDigit)
  | rest => ([], rest)

/-- The sign of a power of ten and what follows it. -/
def takeSign : List Char → List Char × List Char
  | '+' :: rest => (['+'], rest)
  | '-' :: rest => (['-'], rest)
  | rest => ([], rest)

def takePower : List Char → List Char × List Char
  | [] => ([], [])
  | mark :: rest =>
    let (sign, digits) := takeSign rest
    if (mark = 'e' ∨ mark = 'E') ∧ ¬ (digits.takeWhile isDigit).isEmpty then
      (mark :: sign ++ digits.takeWhile isDigit, digits.dropWhile isDigit)
    else ([], mark :: rest)

/-- The longest literal at the start of the text, and the rest of the text. -/
def take (text : List Char) : Literal × List Char :=
  let (fraction, afterFraction) := takeFraction (text.dropWhile isDigit)
  let (power, rest) := takePower afterFraction
  (⟨text.takeWhile isDigit, fraction, power⟩, rest)

/-- The value of a row of decimal digits. -/
def ofDigits (digits : List Char) : Nat :=
  digits.foldl (fun value digit => 10 * value + (digit.toNat - '0'.toNat)) 0

def powerValue : List Char → Int
  | _ :: '-' :: digits => -ofDigits digits
  | _ :: '+' :: digits => ofDigits digits
  | _ :: digits => ofDigits digits
  | [] => 0

/-- The number nearest to what the literal says. -/
def value (literal : Literal) : Float :=
  Decimal.toFloat ⟨ofDigits (literal.whole ++ literal.fraction),
    powerValue literal.power - literal.fraction.length⟩

end Literal

end Quantities
