import Quantities.Value

/-!
How values are shown. A value is shown as what it is, such as `3 km`, and its type as its shape,
such as `unit km`. Both are small trees, which are then written out.
-/

namespace Quantities

inductive Display where
  | number (x : Float)
  | bool (truth : Bool)
  | keyword (word : String)
  | name (text : String)
  | power (base : Display) (exponent : Float)
  | product (factors : List Display)
  | ascription (left right : Display)
  | paren (inner : Display)
deriving Repr

namespace Display

def isAtomic : Display → Bool
  | .number _ | .bool _ | .keyword _ | .name _ | .paren _ => true
  | .power _ _ | .product _ | .ascription _ _ => false

mutual

def text : Display → String
  | .number x => Number.text x
  | .bool truth => if truth then "true" else "false"
  | .keyword word => word
  | .name text => text
  | .power base exponent => base.text ++ "^" ++ Number.text exponent
  | .product factors => " * ".intercalate (texts factors)
  | .ascription left right => left.text ++ " " ++ right.text
  | .paren inner => "(" ++ inner.text ++ ")"

def texts : List Display → List String
  | [] => []
  | tree :: rest => tree.text :: texts rest

end

/-- Puts a tree of several parts in parentheses. -/
def enclose (tree : Display) : Display := if tree.isAtomic then tree else .paren tree

end Display

namespace Measure

def displayFactor (label : String) (exponent : Float) : Display :=
  if exponent == 1 then .name label else .power (.name label) exponent

/-- The labels with their powers. The factor is shown only of a multiple of base units, since
otherwise the labels tell it. -/
def display (unit : Measure) : Display :=
  let labels := unit.dims.entries.map fun entry => displayFactor entry.1 entry.2
  let parts := if labels.isEmpty then [.keyword "scalar"] else labels
  let factors :=
    if unit.dims == unit.base && unit.factor != 1 then .number unit.factor :: parts else parts
  match factors with
  | [only] => only
  | several => .product several

end Measure

namespace Quantity

def display (q : Quantity) : Display :=
  if q.isScalar && q.unit.factor == 1 then .number q.magnitude
  else .ascription (.number q.magnitude) q.unit.display.enclose

end Quantity

namespace Value

/-- The value as what it is. -/
def display : Value → Display
  | .boolean truth => .bool truth
  | .booleanType => .keyword "boolean"
  | .booleanConstructor => .keyword "boolean"
  | .quantity q => q.display
  | .quantityType unit => unit.display
  | .unitConstructor unit => unit.display
  | .hole name _ => .name name

/-- The type of the value. -/
def displayType : Value → Display
  | .boolean truth => .bool truth
  | .booleanType => .keyword "boolean"
  | .booleanConstructor => .ascription (.keyword "type") (.keyword "boolean")
  | .quantity q => q.display
  | .quantityType unit => unit.display
  | .unitConstructor unit => .ascription (.keyword "unit") unit.display
  | .hole _ type => type.displayType

def text (v : Value) : String := v.display.text

def typeText (v : Value) : String := v.displayType.text

end Value

end Quantities
