import Quantities.Dimensions

/-!
Units of measure. A unit knows the dimensions it is written with, the base dimensions they stand
for, and how many base units one of it is worth.
-/

namespace Quantities

structure Measure where
  dims : Dimensions
  base : Dimensions
  factor : Float
deriving Repr

namespace Measure

instance : BEq Measure :=
  ⟨fun left right => left.dims == right.dims && left.base == right.base &&
    left.factor == right.factor⟩

/-- A unit that is its own base. -/
def ofDims (dims : Dimensions) : Measure := ⟨dims, dims, 1⟩

def scalar : Measure := ofDims Dimensions.scalar

/-- A new base unit. -/
def fresh (label : String) : Measure := ofDims (Dimensions.single label)

def isScalar (unit : Measure) : Bool := unit.dims.isScalar

def withFactor (unit : Measure) (factor : Float) : Measure := { unit with factor }

def negate (unit : Measure) : Measure := unit.withFactor (-unit.factor)

def power (unit : Measure) (n : Float) : Measure :=
  ⟨unit.dims.power n, unit.base.power n, unit.factor.pow n⟩

def times (left right : Measure) : Measure :=
  ⟨left.dims.times right.dims, left.base.times right.base, left.factor * right.factor⟩

def divide (left right : Measure) : Measure :=
  ⟨left.dims.divide right.dims, left.base.divide right.base, left.factor / right.factor⟩

/-- The unit of which `n` divided by this unit is one. -/
def reciprocal (unit : Measure) (n : Float) : Measure :=
  ⟨unit.dims.power (-1), unit.base.power (-1), n / unit.factor⟩

end Measure

end Quantities
