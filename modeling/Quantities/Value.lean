import Quantities.Quantity

/-!
The values of the language, in three layers: known truths and quantities, types of which the truth
or the magnitude is not known, and constructors, which are units and the word `boolean`. A hole is
a name that stands for some value of a type.
-/

namespace Quantities

inductive Value where
  | boolean (truth : Bool)
  | booleanType
  | booleanConstructor
  | quantity (q : Quantity)
  | quantityType (unit : Measure)
  | unitConstructor (unit : Measure)
  | hole (name : String) (type : Value)
deriving Repr

namespace Value

def beq : Value → Value → Bool
  | .boolean left, .boolean right => left == right
  | .booleanType, .booleanType => true
  | .booleanConstructor, .booleanConstructor => true
  | .quantity left, .quantity right => left == right
  | .quantityType left, .quantityType right => left == right
  | .unitConstructor left, .unitConstructor right => left == right
  | .hole left leftType, .hole right rightType => left == right && beq leftType rightType
  | _, _ => false

instance : BEq Value := ⟨beq⟩

def ofNumber (x : Float) : Value := .quantity (Quantity.ofNumber x)

def isBoolean : Value → Bool
  | .boolean _ | .booleanType => true
  | .hole _ type => type.isBoolean
  | _ => false

/-- The unit of a number, whether its magnitude is known or not. -/
def numberUnit? : Value → Option Measure
  | .quantity q => some q.unit
  | .quantityType unit => some unit
  | .hole _ type => type.numberUnit?
  | _ => none

def isNumber (v : Value) : Bool := v.numberUnit?.isSome

def unit? : Value → Option Measure
  | .unitConstructor unit => some unit
  | _ => none

/-- The type behind a hole, however deep. Other values stand for themselves. -/
def unwrap : Value → Value
  | .hole _ type => type.unwrap
  | v => v

/-- Whether a value of the first kind may be kept where the second is expected. -/
def isSubtypeOf : Value → Value → Bool
  | .hole _ type, other => type.isSubtypeOf other
  | .boolean left, .boolean right => left == right
  | .boolean _, .booleanType => true
  | .booleanType, .booleanType => true
  | .booleanConstructor, .booleanConstructor => true
  | .quantity left, .quantity right => left == right
  | .quantity left, .quantityType right => left.unit == right
  | .quantityType left, .quantityType right => left == right
  | .unitConstructor left, .unitConstructor right => left == right
  | _, _ => false

/-- Forgets the truth or the magnitude. -/
def abstractType : Value → Value
  | .boolean _ => .booleanType
  | .quantity q => .quantityType q.unit
  | .hole _ type => type.abstractType
  | v => v

/-- The type of what a constructor builds. -/
def instanceType? : Value → Option Value
  | .booleanConstructor => some .booleanType
  | .unitConstructor unit => some (.quantityType unit)
  | .hole _ type => type.instanceType?
  | _ => none

end Value

end Quantities
