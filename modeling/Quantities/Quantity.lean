import Quantities.Measure
import Quantities.Number

/-!
Quantities: magnitudes with a unit. Sums and comparisons need equal dimensions, and a conversion
needs equal base dimensions; otherwise they have no result.
-/

namespace Quantities

structure Quantity where
  magnitude : Float
  unit : Measure
deriving Repr

namespace Quantity

instance : BEq Quantity :=
  ⟨fun left right => left.magnitude == right.magnitude && left.unit == right.unit⟩

/-- A plain number. -/
def ofNumber (magnitude : Float) : Quantity := ⟨magnitude, Measure.scalar⟩

def isScalar (q : Quantity) : Bool := q.unit.isScalar

def sameDims (left right : Quantity) : Bool := left.unit.dims == right.unit.dims

def negate (q : Quantity) : Quantity := { q with magnitude := -q.magnitude }

def power (q : Quantity) (n : Float) : Quantity := ⟨q.magnitude.pow n, q.unit.power n⟩

def times (left right : Quantity) : Quantity :=
  ⟨left.magnitude * right.magnitude, left.unit.times right.unit⟩

def divide (left right : Quantity) : Quantity :=
  ⟨left.magnitude / right.magnitude, left.unit.divide right.unit⟩

/-- Combines the magnitudes of two quantities of one dimension. The unit is that of the left. -/
def additive (op : Float → Float → Float) (left right : Quantity) : Option Quantity :=
  if left.sameDims right then some ⟨op left.magnitude right.magnitude, left.unit⟩ else none

def plus : Quantity → Quantity → Option Quantity := additive (· + ·)

def minus : Quantity → Quantity → Option Quantity := additive (· - ·)

def modulo : Quantity → Quantity → Option Quantity := additive Number.remainder

/-- Compares the magnitudes of two quantities of one dimension. -/
def relates (relation : Float → Float → Bool) (left right : Quantity) : Option Bool :=
  if left.sameDims right then some (relation left.magnitude right.magnitude) else none

def equals : Quantity → Quantity → Option Bool := relates (· == ·)

/-- The order of two numbers. There is none when either is not a number. -/
def order (x y : Float) : Option Ordering :=
  if x < y then some .lt else if x == y then some .eq else if y < x then some .gt else none

/-- The order of the magnitudes of two quantities of one dimension. -/
def compare (left right : Quantity) : Option (Option Ordering) :=
  if left.sameDims right then some (order left.magnitude right.magnitude) else none

/-- Gives a unit to a plain number. -/
def ascribe (q : Quantity) (unit : Measure) : Option Quantity :=
  if q.isScalar then some ⟨q.magnitude, unit⟩ else none

/-- The same quantity in another unit. A plain number takes on any unit as it is. -/
def convert (q : Quantity) (unit : Measure) : Option Quantity :=
  if q.unit.base == unit.base then some ⟨q.magnitude * q.unit.factor / unit.factor, unit⟩
  else q.ascribe unit

end Quantity

end Quantities
