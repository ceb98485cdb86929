import Quantities.Value
import Quantities.Proofs.Result
import Quantities.Typing.Statement

/-!
Kinds: what stays known of a value when its truth, its magnitude and the factor of its unit are
forgotten. Expressions have kinds of their own, which follow from those of their names alone. The
type that is inferred for an expression always has the kind of the expression.
-/

namespace Quantities

/-- Whether a value is a truth, a number, a unit or the word `boolean`, and the dimensions of a
number or a unit, as written and in base units. -/
inductive Kind where
  | boolean
  | number (dims base : Dimensions)
  | unit (dims base : Dimensions)
  | booleanConstructor

/-- A hole is of the kind of the type in it. -/
def Value.kind : Value → Kind
  | .boolean _ | .booleanType => .boolean
  | .booleanConstructor => .booleanConstructor
  | .quantity q => .number q.unit.dims q.unit.base
  | .quantityType unit => .number unit.dims unit.base
  | .unitConstructor unit => .unit unit.dims unit.base
  | .hole _ type => type.kind

namespace Kind

def sign : SignOp → Kind → Option Kind
  | .not, .boolean => some .boolean
  | .plus, .number dims base | .minus, .number dims base => some (.number dims base)
  | .plus, .unit dims base | .minus, .unit dims base => some (.unit dims base)
  | _, _ => none

def power (n : Float) : Kind → Option Kind
  | .number dims base => some (.number (dims.power n) (base.power n))
  | .unit dims base => some (.unit (dims.power n) (base.power n))
  | _ => none

/-- A product or quotient. The last argument is what becomes of the dimensions of a unit under a
plain number. -/
def scale (combine : Dimensions → Dimensions → Dimensions) (under : Dimensions → Dimensions) :
    Kind → Kind → Option Kind
  | .number dims base, .number otherDims otherBase =>
    some (.number (combine dims otherDims) (combine base otherBase))
  | .number dims _, .unit otherDims otherBase =>
    if dims.isScalar then some (.unit (under otherDims) (under otherBase)) else none
  | .unit dims base, .number otherDims _ =>
    if otherDims.isScalar then some (.unit dims base) else none
  | .unit dims base, .unit otherDims otherBase =>
    some (.unit (combine dims otherDims) (combine base otherBase))
  | _, _ => none

/-- A sum, difference or remainder. -/
def add : Kind → Kind → Option Kind
  | .number dims base, .number otherDims _ =>
    if dims == otherDims then some (.number dims base) else none
  | _, _ => none

def compare (op : BinaryOp) : Kind → Kind → Option Kind
  | .number dims _, .number otherDims _ => if dims == otherDims then some .boolean else none
  | .boolean, .boolean => if op = .equal ∨ op = .notEqual then some .boolean else none
  | _, _ => none

def binary (op : BinaryOp) (left right : Kind) : Option Kind :=
  match op with
  | .times => scale .times id left right
  | .divide => scale .divide (·.power (-1)) left right
  | .modulo | .plus | .minus => add left right
  | .equal | .notEqual | .atMost | .atLeast | .less | .greater => compare op left right

def logical : Kind → Kind → Option Kind
  | .boolean, .boolean => some .boolean
  | _, _ => none

def ascribe : Kind → Kind → Option Kind
  | .number dims _, .unit otherDims otherBase =>
    if dims.isScalar then some (.number otherDims otherBase) else none
  | _, _ => none

def convert : Kind → Kind → Option Kind
  | .number dims base, .unit otherDims otherBase =>
    if base == otherBase || dims.isScalar then some (.number otherDims otherBase) else none
  | _, _ => none

/-- The kind of what a constructor builds. -/
def instance? : Kind → Option Kind
  | .booleanConstructor => some .boolean
  | .unit dims base => some (.number dims base)
  | _ => none

end Kind

/-- The kind of an expression, where `kinds` gives the kinds of names. -/
def Expr.kind? (kinds : String → Option Kind) : Expr → Option Kind
  | .number _ _ => some (.number .scalar .scalar)
  | .bool _ _ => some .boolean
  | .typeWord _ .boolean => some .booleanConstructor
  | .typeWord _ .scalar => some (.unit .scalar .scalar)
  | .name _ text => kinds text
  | .paren _ inner => inner.kind? kinds
  | .sign _ op operand => do Kind.sign op (← operand.kind? kinds)
  | .power _ base exponent => do Kind.power exponent (← base.kind? kinds)
  | .binary _ op left right => do Kind.binary op (← left.kind? kinds) (← right.kind? kinds)
  | .logical _ _ left right => do Kind.logical (← left.kind? kinds) (← right.kind? kinds)
  | .ascription _ operand unit => do Kind.ascribe (← operand.kind? kinds) (← unit.kind? kinds)
  | .conversion _ operand unit => do Kind.convert (← operand.kind? kinds) (← unit.kind? kinds)

namespace Value

theorem kind_unwrap (v : Value) : v.unwrap.kind = v.kind := by
  induction v with
  | hole name type ih => exact ih
  | _ => rfl

theorem kind_abstractType (v : Value) : v.abstractType.kind = v.kind := by
  induction v with
  | hole name type ih => exact ih
  | _ => rfl

theorem kind_of_isBoolean {v : Value} (boolean : v.isBoolean = true) : v.kind = .boolean := by
  induction v with
  | hole name type ih => exact ih boolean
  | boolean truth => rfl
  | booleanType => rfl
  | _ => simp [isBoolean] at boolean

theorem kind_of_numberUnit {v : Value} {unit : Measure} (found : v.numberUnit? = some unit) :
    v.kind = .number unit.dims unit.base := by
  induction v with
  | hole name type ih => exact ih found
  | quantity q =>
      cases found
      rfl
  | quantityType given =>
      cases found
      rfl
  | _ => simp [numberUnit?] at found

theorem kind_of_unit {v : Value} {unit : Measure} (found : v.unit? = some unit) :
    v.kind = .unit unit.dims unit.base := by
  cases v with
  | unitConstructor given =>
      cases found
      rfl
  | _ => simp [unit?] at found

theorem kind_of_givenUnit {v : Value} {unit : Measure} (found : v.givenUnit? = some unit) :
    v.kind = .number unit.dims unit.base := by
  cases v with
  | quantity q =>
      cases found
      rfl
  | quantityType given =>
      cases found
      rfl
  | _ => simp [givenUnit?] at found

end Value

end Quantities
