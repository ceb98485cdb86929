import Quantities.Operator
import Quantities.Value

/-!
The operations on values. Each is partial, and a result is known exactly when the operands are. The
operations do not look into holes, apart from the logical connectives.
-/

namespace Quantities

namespace Value

/-- The unit of a number that is given directly. -/
def givenUnit? : Value → Option Measure
  | .quantity q => some q.unit
  | .quantityType unit => some unit
  | _ => none

def not : Value → Option Value
  | .boolean truth => some (.boolean !truth)
  | .booleanType => some .booleanType
  | _ => none

def negate : Value → Option Value
  | .quantity q => some (.quantity q.negate)
  | .quantityType unit => some (.quantityType unit)
  | .unitConstructor unit => some (.unitConstructor unit.negate)
  | _ => none

def power (v : Value) (n : Float) : Option Value :=
  match v with
  | .quantity q => some (.quantity (q.power n))
  | .quantityType unit => some (.quantityType (unit.power n))
  | .unitConstructor unit => some (.unitConstructor (unit.power n))
  | _ => none

/-- Combines the units of two numbers of which at least one magnitude is not known. -/
def abstractScaling (combine : Measure → Measure → Measure) (left right : Value) : Option Value :=
  match left.givenUnit?, right.givenUnit? with
  | some leftUnit, some rightUnit => some (.quantityType (combine leftUnit rightUnit))
  | _, _ => none

/-- A plain number scales a unit. -/
def times (left right : Value) : Option Value :=
  match left, right with
  | .quantity x, .quantity y => some (.quantity (x.times y))
  | .quantity n, .unitConstructor unit =>
    if n.isScalar then some (.unitConstructor (unit.withFactor (n.magnitude * unit.factor)))
    else none
  | .unitConstructor unit, .quantity n =>
    if n.isScalar then some (.unitConstructor (unit.withFactor (unit.factor * n.magnitude)))
    else none
  | .unitConstructor x, .unitConstructor y => some (.unitConstructor (x.times y))
  | _, _ => abstractScaling Measure.times left right

def divide (left right : Value) : Option Value :=
  match left, right with
  | .quantity x, .quantity y => some (.quantity (x.divide y))
  | .quantity n, .unitConstructor unit =>
    if n.isScalar then some (.unitConstructor (unit.reciprocal n.magnitude)) else none
  | .unitConstructor unit, .quantity n =>
    if n.isScalar then some (.unitConstructor (unit.withFactor (unit.factor / n.magnitude)))
    else none
  | .unitConstructor x, .unitConstructor y => some (.unitConstructor (x.divide y))
  | _, _ => abstractScaling Measure.divide left right

/-- A sum, difference or remainder. With a magnitude unknown the result has the left unit. -/
def additive (op : Quantity → Quantity → Option Quantity) (left right : Value) : Option Value :=
  match left, right with
  | .quantity x, .quantity y => (op x y).map .quantity
  | _, _ =>
    match left.givenUnit?, right.givenUnit? with
    | some leftUnit, some rightUnit =>
      if leftUnit.dims == rightUnit.dims then some (.quantityType leftUnit) else none
    | _, _ => none

def plus : Value → Value → Option Value := additive Quantity.plus

def minus : Value → Value → Option Value := additive Quantity.minus

def modulo : Value → Value → Option Value := additive Quantity.modulo

/-- Truths have no order. -/
def compareTruths (op : BinaryOp) (left right : Bool) : Option Value :=
  match op with
  | .equal => some (.boolean (left == right))
  | .notEqual => some (.boolean (left != right))
  | _ => none

/-- Equality and order. -/
def compare (op : BinaryOp) (left right : Value) : Option Value :=
  match left, right with
  | .quantity x, .quantity y => do return .boolean (← x.relates (← op.relation?) y)
  | .boolean x, .boolean y => compareTruths op x y
  | .boolean _, .booleanType | .booleanType, .boolean _ | .booleanType, .booleanType =>
    if op = .equal ∨ op = .notEqual then some .booleanType else none
  | _, _ =>
    match left.givenUnit?, right.givenUnit? with
    | some leftUnit, some rightUnit =>
      if leftUnit.dims == rightUnit.dims && op.isComparison then some .booleanType else none
    | _, _ => none

def binary (op : BinaryOp) (left right : Value) : Option Value :=
  match op with
  | .times => left.times right
  | .divide => left.divide right
  | .modulo => left.modulo right
  | .plus => left.plus right
  | .minus => left.minus right
  | .equal | .notEqual | .atMost | .atLeast | .less | .greater => compare op left right

/-- A connective of two truths. -/
def connect (op : Bool → Bool → Bool) (left right : Value) : Option Value :=
  match left, right with
  | .boolean x, .boolean y => some (.boolean (op x y))
  | _, _ => if left.isBoolean && right.isBoolean then some .booleanType else none

def logical : LogicalOp → Value → Value → Option Value
  | .and => connect Bool.and
  | .or => connect Bool.or

/-- A plain number in front of a unit. -/
def ascribe (v unit : Value) : Option Value :=
  match v, unit with
  | .quantity q, .unitConstructor unit => (q.ascribe unit).map .quantity
  | .quantityType type, .unitConstructor unit =>
    if type.isScalar then some (.quantityType unit) else none
  | _, _ => none

/-- A number expressed in another unit. -/
def convert (v unit : Value) : Option Value :=
  match v, unit with
  | .quantity q, .unitConstructor unit => (q.convert unit).map .quantity
  | .quantityType type, .unitConstructor unit =>
    if type.base == unit.base || type.isScalar then some (.quantityType unit) else none
  | _, _ => none

end Value

end Quantities
