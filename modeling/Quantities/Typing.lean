import Quantities.Problem
import Quantities.Tree
import Quantities.Value.Operations

/-!
The types of expressions. What is known is computed, so the type of an expression of known parts is
its value. Operands are looked at from left to right and before the node itself, and a problem is
reported at the innermost node that has it.
-/

namespace Quantities

namespace Typing

def isNumberOrUnit (v : Value) : Bool := v.isNumber || v.unit?.isSome

/-- A negation needs a boolean, and a sign needs a number or a unit. -/
def sign (location operandLocation : Location) (op : SignOp) (operand : Value) :
    Except Fault Value :=
  match op with
  | .not =>
    if operand.isBoolean then defined location operand.not
    else refuse operandLocation (.notBoolean operand)
  | .plus =>
    if isNumberOrUnit operand then .ok operand
    else refuse operandLocation (.notNumberOrUnit operand)
  | .minus =>
    if isNumberOrUnit operand then defined location operand.negate
    else refuse operandLocation (.notNumberOrUnit operand)

def power (location baseLocation : Location) (base : Value) (exponent : Float) :
    Except Fault Value :=
  if isNumberOrUnit base then defined location (base.power exponent)
  else refuse baseLocation (.notNumberOrUnit base)

/-- Numbers are added and compared in one dimension only, and only plain numbers scale units. -/
def checkOperands (location leftLocation rightLocation : Location) (op : BinaryOp)
    (left right : Value) : Except Fault Unit :=
  match left.numberUnit?, right.numberUnit? with
  | some leftUnit, some rightUnit =>
    if !op.isScaling && leftUnit.dims != rightUnit.dims then
      refuse location (.typeMismatch left.abstractType right.abstractType)
    else .ok ()
  | some leftUnit, none =>
    if right.unit?.isSome && op.isScaling && !leftUnit.isScalar then
      refuse leftLocation (.notScalar left)
    else .ok ()
  | none, some rightUnit =>
    if left.unit?.isSome && op.isScaling && !rightUnit.isScalar then
      refuse rightLocation (.notScalar right)
    else .ok ()
  | none, none => .ok ()

def binary (location leftLocation rightLocation : Location) (op : BinaryOp)
    (left right : Value) : Except Fault Value := do
  checkOperands location leftLocation rightLocation op left right
  match Value.binary op left right with
  | some v => .ok v
  | none => refuse location (.operationNotDefined op.symbol left right)

def logical (location leftLocation rightLocation : Location) (op : LogicalOp)
    (left right : Value) : Except Fault Value :=
  if !left.isBoolean then refuse leftLocation (.notBoolean left)
  else if !right.isBoolean then refuse rightLocation (.notBoolean right)
  else defined location (Value.logical op left right)

def ascription (location operandLocation unitLocation : Location) (operand unit : Value) :
    Except Fault Value :=
  if !operand.numberUnit?.any Measure.isScalar then refuse operandLocation (.notScalar operand)
  else if unit.unit?.isNone then refuse unitLocation (.notUnit unit)
  else defined location (operand.ascribe unit)

def conversion (location operandLocation unitLocation : Location) (operand unit : Value) :
    Except Fault Value :=
  match operand.numberUnit?, unit.unit? with
  | none, _ => refuse operandLocation (.notNumber operand)
  | some _, none => refuse unitLocation (.notUnit unit)
  | some source, some target =>
    if source.base != target.base && !source.isScalar then
      refuse location (.baseMismatch operand unit)
    else defined location (operand.convert unit)

end Typing

/-- The type of an expression, where `types` gives the types of names. A hole stands for the type
in it. -/
def Expr.infer (types : String → Option Value) : Expr → Except Fault Value
  | .number _ x => .ok (Value.ofNumber x)
  | .bool _ truth => .ok (.boolean truth)
  | .typeWord _ .boolean => .ok .booleanConstructor
  | .typeWord _ .scalar => .ok (.unitConstructor Measure.scalar)
  | .name location text =>
    match types text with
    | some type => .ok type.unwrap
    | none => refuse location (.nameNotDefined text)
  | .paren _ inner => inner.infer types
  | .sign location op operand => do
    let arg ← operand.infer types
    Typing.sign location operand.location op arg
  | .power location base exponent => do
    let arg ← base.infer types
    Typing.power location base.location arg exponent
  | .binary location op left right => do
    let lhs ← left.infer types
    let rhs ← right.infer types
    Typing.binary location left.location right.location op lhs rhs
  | .logical location op left right => do
    let lhs ← left.infer types
    let rhs ← right.infer types
    Typing.logical location left.location right.location op lhs rhs
  | .ascription location operand unit => do
    let lhs ← operand.infer types
    let rhs ← unit.infer types
    Typing.ascription location operand.location unit.location lhs rhs
  | .conversion location operand unit => do
    let lhs ← operand.infer types
    let rhs ← unit.infer types
    Typing.conversion location operand.location unit.location lhs rhs

end Quantities
