import Quantities.Problem
import Quantities.Tree
import Quantities.Value.Operations

/-!
The values of expressions. Nothing is taken from the types: every rule is checked again, now on the
values. The right operand of a connective is left alone when the left one decides.
-/

namespace Quantities

namespace Evaluation

def isNumberOrUnit : Value → Bool
  | .quantity _ | .unitConstructor _ => true
  | _ => false

def sign (location operandLocation : Location) (op : SignOp) (operand : Value) :
    Except Fault Value :=
  match op with
  | .not =>
    match operand with
    | .boolean truth => .ok (.boolean !truth)
    | other => refuse operandLocation (.notBoolean other)
  | .plus =>
    if isNumberOrUnit operand then .ok operand
    else refuse operandLocation (.notNumberOrUnit operand)
  | .minus =>
    if isNumberOrUnit operand then defined location operand.negate
    else refuse operandLocation (.notNumberOrUnit operand)

def power (location baseLocation : Location) (base : Value) (exponent : Float) :
    Except Fault Value :=
  if isNumberOrUnit base then defined location (base.power exponent)
  else refuse baseLocation (.notNumberOrUnit base)

/-- Numbers are added and compared in one dimension only, and only plain numbers scale units. -/
def checkOperands (location leftLocation rightLocation : Location) (op : BinaryOp)
    (left right : Value) : Except Fault Unit :=
  match left, right with
  | .quantity x, .quantity y =>
    if !op.isScaling && !x.sameDims y then refuse location (.typeMismatch left right) else .ok ()
  | .quantity x, .unitConstructor _ =>
    if op.isScaling && !x.isScalar then refuse leftLocation (.notScalar left) else .ok ()
  | .unitConstructor _, .quantity y =>
    if op.isScaling && !y.isScalar then refuse rightLocation (.notScalar right) else .ok ()
  | _, _ => .ok ()

def binary (location leftLocation rightLocation : Location) (op : BinaryOp)
    (left right : Value) : Except Fault Value := do
  checkOperands location leftLocation rightLocation op left right
  match Value.binary op left right with
  | some v => .ok v
  | none => refuse location (.operationNotDefined op.symbol left right)

/-- A truth, or a refusal at its location. -/
def truth (location : Location) : Value → Except Fault Bool
  | .boolean truth => .ok truth
  | other => refuse location (.notBoolean other)

/-- Whether the left operand settles the result. -/
def decides : LogicalOp → Bool → Bool
  | .and, left => !left
  | .or, left => left

def ascription (location operandLocation unitLocation : Location) (operand unit : Value) :
    Except Fault Value :=
  match operand with
  | .quantity q =>
    if !q.isScalar then refuse operandLocation (.notScalar operand)
    else if unit.unit?.isNone then refuse unitLocation (.notUnit unit)
    else defined location (operand.ascribe unit)
  | other => refuse operandLocation (.notScalar other)

def conversion (location operandLocation unitLocation : Location) (operand unit : Value) :
    Except Fault Value :=
  match operand, unit.unit? with
  | .quantity q, some target =>
    if q.unit.base != target.base && !q.isScalar then
      refuse location (.baseMismatch operand unit)
    else defined location (operand.convert unit)
  | .quantity _, none => refuse unitLocation (.notUnit unit)
  | other, _ => refuse operandLocation (.notNumber other)

end Evaluation

/-- The value of an expression, where `values` gives the values of names. -/
def Expr.eval (values : String → Option Value) : Expr → Except Fault Value
  | .number _ x => .ok (Value.ofNumber x)
  | .bool _ truth => .ok (.boolean truth)
  | .typeWord _ .boolean => .ok .booleanConstructor
  | .typeWord _ .scalar => .ok (.unitConstructor Measure.scalar)
  | .name location text =>
    match values text with
    | some v => .ok v
    | none => refuse location (.nameNotDefined text)
  | .paren _ inner => inner.eval values
  | .sign location op operand => do
    let arg ← operand.eval values
    Evaluation.sign location operand.location op arg
  | .power location base exponent => do
    let arg ← base.eval values
    Evaluation.power location base.location arg exponent
  | .binary location op left right => do
    let lhs ← left.eval values
    let rhs ← right.eval values
    Evaluation.binary location left.location right.location op lhs rhs
  | .logical _ op left right => do
    let lhs ← left.eval values
    let known ← Evaluation.truth left.location lhs
    if Evaluation.decides op known then return .boolean known
    else do
      let rhs ← right.eval values
      return .boolean (← Evaluation.truth right.location rhs)
  | .ascription location operand unit => do
    let lhs ← operand.eval values
    let rhs ← unit.eval values
    Evaluation.ascription location operand.location unit.location lhs rhs
  | .conversion location operand unit => do
    let lhs ← operand.eval values
    let rhs ← unit.eval values
    Evaluation.conversion location operand.location unit.location lhs rhs

end Quantities
