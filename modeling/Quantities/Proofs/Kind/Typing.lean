import Quantities.Proofs.Kind.Operations
import Quantities.Proofs.Result
import Quantities.Typing

/-!
The type of an expression has the kind of the expression. The rules that the checker adds to the
operations on values only ever refuse more.
-/

namespace Quantities

theorem defined_eq_ok {location : Location} {found : Option Value} {result : Value} :
    defined location found = .ok result ↔ found = some result := by
  cases found with
  | none => simp [defined, refuse]
  | some v => simp [defined]

namespace Typing

theorem kind_of_isNumberOrUnit {v : Value} (fits : isNumberOrUnit v = true) :
    Kind.sign .plus v.kind = some v.kind := by
  rcases Bool.or_eq_true_iff.mp fits with number | unit
  · obtain ⟨unit, found⟩ := Option.isSome_iff_exists.mp number
    rw [Value.kind_of_numberUnit found]
    rfl
  · obtain ⟨unit, found⟩ := Option.isSome_iff_exists.mp unit
    rw [Value.kind_of_unit found]
    rfl

theorem kind_sign {location operandLocation : Location} {op : SignOp} {operand type : Value}
    (accepted : sign location operandLocation op operand = .ok type) :
    Kind.sign op operand.kind = some type.kind := by
  cases op with
  | not =>
      simp only [sign] at accepted
      split at accepted
      next => exact Value.kind_not (defined_eq_ok.mp accepted)
      next => cases accepted
  | plus =>
      simp only [sign] at accepted
      split at accepted
      next fits =>
        cases accepted
        exact kind_of_isNumberOrUnit fits
      next => cases accepted
  | minus =>
      simp only [sign] at accepted
      split at accepted
      next => exact Value.kind_negate (defined_eq_ok.mp accepted)
      next => cases accepted

theorem kind_power {location baseLocation : Location} {base type : Value} {exponent : Float}
    (accepted : power location baseLocation base exponent = .ok type) :
    Kind.power exponent base.kind = some type.kind := by
  unfold power at accepted
  split at accepted
  next => exact Value.kind_power (defined_eq_ok.mp accepted)
  next => cases accepted

theorem kind_binary {location leftLocation rightLocation : Location} {op : BinaryOp}
    {left right type : Value}
    (accepted : binary location leftLocation rightLocation op left right = .ok type) :
    Kind.binary op left.kind right.kind = some type.kind := by
  obtain ⟨-, -, accepted⟩ := Result.bind_eq_ok.mp accepted
  split at accepted
  next v found =>
    cases accepted
    exact Value.kind_binary found
  next => cases accepted

theorem kind_logical {location leftLocation rightLocation : Location} {op : LogicalOp}
    {left right type : Value}
    (accepted : logical location leftLocation rightLocation op left right = .ok type) :
    Kind.logical left.kind right.kind = some type.kind := by
  unfold logical at accepted
  split at accepted
  next => cases accepted
  next leftBoolean =>
    split at accepted
    next => cases accepted
    next rightBoolean =>
      have leftKind := Value.kind_of_isBoolean (by simpa using leftBoolean)
      have rightKind := Value.kind_of_isBoolean (by simpa using rightBoolean)
      exact Value.kind_logical leftKind rightKind (defined_eq_ok.mp accepted)

theorem kind_ascription {location operandLocation unitLocation : Location}
    {operand unit type : Value}
    (accepted : ascription location operandLocation unitLocation operand unit = .ok type) :
    Kind.ascribe operand.kind unit.kind = some type.kind := by
  unfold ascription at accepted
  split at accepted
  next => cases accepted
  next =>
    split at accepted
    next => cases accepted
    next => exact Value.kind_ascribe (defined_eq_ok.mp accepted)

theorem kind_conversion {location operandLocation unitLocation : Location}
    {operand unit type : Value}
    (accepted : conversion location operandLocation unitLocation operand unit = .ok type) :
    Kind.convert operand.kind unit.kind = some type.kind := by
  unfold conversion at accepted
  split at accepted
  next => cases accepted
  next => cases accepted
  next =>
    split at accepted
    next => cases accepted
    next => exact Value.kind_convert (defined_eq_ok.mp accepted)

end Typing

/-- The kinds of the names that have a type. -/
def kindsOf (types : String → Option Value) (name : String) : Option Kind :=
  (types name).map Value.kind

namespace Expr

theorem kind_infer {types : String → Option Value} {e : Expr} {type : Value}
    (accepted : e.infer types = .ok type) : e.kind? (kindsOf types) = some type.kind := by
  induction e generalizing type with
  | number | bool =>
      cases accepted
      rfl
  | typeWord location word =>
      cases word <;> cases accepted <;> rfl
  | name location text =>
      rw [infer] at accepted
      split at accepted
      next bound found =>
        cases accepted
        rw [kind?, kindsOf, found, Value.kind_unwrap]
        rfl
      next => cases accepted
  | paren location inner ih => exact ih accepted
  | sign location op operand ih =>
      obtain ⟨arg, operandType, accepted⟩ := Result.bind_eq_ok.mp accepted
      rw [kind?, ih operandType]
      exact Typing.kind_sign accepted
  | power location base exponent ih =>
      obtain ⟨arg, baseType, accepted⟩ := Result.bind_eq_ok.mp accepted
      rw [kind?, ih baseType]
      exact Typing.kind_power accepted
  | binary location op left right leftIh rightIh =>
      obtain ⟨lhs, leftType, accepted⟩ := Result.bind_eq_ok.mp accepted
      obtain ⟨rhs, rightType, accepted⟩ := Result.bind_eq_ok.mp accepted
      rw [kind?, leftIh leftType, rightIh rightType]
      exact Typing.kind_binary accepted
  | logical location op left right leftIh rightIh =>
      obtain ⟨lhs, leftType, accepted⟩ := Result.bind_eq_ok.mp accepted
      obtain ⟨rhs, rightType, accepted⟩ := Result.bind_eq_ok.mp accepted
      rw [kind?, leftIh leftType, rightIh rightType]
      exact Typing.kind_logical accepted
  | ascription location operand unit operandIh unitIh =>
      obtain ⟨lhs, operandType, accepted⟩ := Result.bind_eq_ok.mp accepted
      obtain ⟨rhs, unitType, accepted⟩ := Result.bind_eq_ok.mp accepted
      rw [kind?, operandIh operandType, unitIh unitType]
      exact Typing.kind_ascription accepted
  | conversion location operand unit operandIh unitIh =>
      obtain ⟨lhs, operandType, accepted⟩ := Result.bind_eq_ok.mp accepted
      obtain ⟨rhs, unitType, accepted⟩ := Result.bind_eq_ok.mp accepted
      rw [kind?, operandIh operandType, unitIh unitType]
      exact Typing.kind_conversion accepted

end Expr

end Quantities
