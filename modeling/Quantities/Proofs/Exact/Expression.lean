import Quantities.Proofs.Dimensions.ZeroFree
import Quantities.Proofs.Exact.Operations
import Quantities.Proofs.Kind.ZeroFree

/-!
Expressions with known types. When the names with known types have exactly those values, an
expression with a known type evaluates to its type. Values that may replace one another are the same
value, but for the signs of their zeros.
-/

namespace Quantities

/-- Every name with a known type has the type for its value. -/
def Exact (types values : String → Option Value) : Prop :=
  ∀ name type, types name = some type → type.unwrap.isKnown = true →
    values name = some type.unwrap

namespace Expr

variable {types values : String → Option Value}

theorem infer_exact (exact : Exact types values) {e : Expr} {type : Value}
    (inferred : e.infer types = .ok type) :
    type.unwrap = type ∧ (type.isKnown = true → e.eval values = .ok type) := by
  induction e generalizing type with
  | number location x =>
      cases inferred
      exact ⟨rfl, fun _ => rfl⟩
  | bool location truth =>
      cases inferred
      exact ⟨rfl, fun _ => rfl⟩
  | typeWord location word =>
      cases word <;> cases inferred <;> exact ⟨rfl, fun _ => rfl⟩
  | name location text =>
      rw [infer] at inferred
      split at inferred
      next declared bound =>
        cases inferred
        have bare : declared.unwrap.unwrap = declared.unwrap := by
          have noHole := declared.unwrap_ne_hole
          cases stripped : declared.unwrap with
          | hole name inner => exact absurd stripped (noHole name inner)
          | _ => rfl
        refine ⟨bare, fun known => ?_⟩
        rw [eval, exact text declared bound known]
      next => cases inferred
  | paren location inner ih => exact ih inferred
  | sign location op operand ih =>
      obtain ⟨arg, argInferred, accepted⟩ := Result.bind_eq_ok.mp inferred
      obtain ⟨argBare, argEval⟩ := ih argInferred
      obtain ⟨bare, signed⟩ := Typing.sign_bare argBare accepted
      refine ⟨bare, fun known => ?_⟩
      obtain ⟨argKnown, evaluated⟩ := signed known
      rw [eval, argEval argKnown]
      exact evaluated
  | power location base exponent ih =>
      obtain ⟨arg, argInferred, accepted⟩ := Result.bind_eq_ok.mp inferred
      obtain ⟨argBare, argEval⟩ := ih argInferred
      obtain ⟨bare, raised⟩ := Typing.power_bare argBare accepted
      refine ⟨bare, fun known => ?_⟩
      obtain ⟨argKnown, evaluated⟩ := raised known
      rw [eval, argEval argKnown]
      exact evaluated
  | binary location op left right leftIh rightIh =>
      obtain ⟨lhs, leftInferred, inferred⟩ := Result.bind_eq_ok.mp inferred
      obtain ⟨rhs, rightInferred, accepted⟩ := Result.bind_eq_ok.mp inferred
      obtain ⟨bare, combined⟩ := Typing.binary_bare accepted
      refine ⟨bare, fun known => ?_⟩
      obtain ⟨leftKnown, rightKnown, evaluated⟩ := combined known
      rw [eval, (leftIh leftInferred).2 leftKnown, (rightIh rightInferred).2 rightKnown]
      exact evaluated
  | logical location op left right leftIh rightIh =>
      obtain ⟨lhs, leftInferred, inferred⟩ := Result.bind_eq_ok.mp inferred
      obtain ⟨rhs, rightInferred, accepted⟩ := Result.bind_eq_ok.mp inferred
      obtain ⟨bare, combined⟩ := Typing.logical_bare accepted
      refine ⟨bare, fun known => ?_⟩
      obtain ⟨x, y, rfl, rfl, rfl⟩ := combined known
      rw [eval, (leftIh leftInferred).2 rfl, (rightIh rightInferred).2 rfl]
      -- The right operand may not be evaluated, but then its truth does not change the result.
      cases decided : Evaluation.decides op x <;>
        simp [Evaluation.truth, decided, bind, Except.bind, pure, Except.pure]
  | ascription location operand unit operandIh unitIh =>
      obtain ⟨lhs, leftInferred, inferred⟩ := Result.bind_eq_ok.mp inferred
      obtain ⟨rhs, rightInferred, accepted⟩ := Result.bind_eq_ok.mp inferred
      obtain ⟨bare, ascribed⟩ := Typing.ascription_bare accepted
      refine ⟨bare, fun known => ?_⟩
      obtain ⟨leftKnown, rightKnown, evaluated⟩ := ascribed known
      rw [eval, (operandIh leftInferred).2 leftKnown, (unitIh rightInferred).2 rightKnown]
      exact evaluated
  | conversion location operand unit operandIh unitIh =>
      obtain ⟨lhs, leftInferred, inferred⟩ := Result.bind_eq_ok.mp inferred
      obtain ⟨rhs, rightInferred, accepted⟩ := Result.bind_eq_ok.mp inferred
      obtain ⟨bare, converted⟩ := Typing.conversion_bare accepted
      refine ⟨bare, fun known => ?_⟩
      obtain ⟨leftKnown, rightKnown, evaluated⟩ := converted known
      rw [eval, (operandIh leftInferred).2 leftKnown, (unitIh rightInferred).2 rightKnown]
      exact evaluated

end Expr

/-- If the first number is a zero, the second one has the same sign. -/
def Number.KeepsZero (x y : Float) : Prop :=
  (x == 0) = true → Number.isNegative x = Number.isNegative y

theorem Number.eq_of_keepsZero {x y : Float} (same : (x == y) = true) (keeps : KeepsZero x y) :
    x = y := by
  obtain ⟨-, -, equal | ⟨rfl, rfl⟩ | ⟨rfl, rfl⟩⟩ := Float.beq_iff_ne_nan_and_eq.mp same
  · exact equal
  · exact absurd (keeps (by decide)) (by decide)
  · exact absurd (keeps (by decide)) (by decide)

namespace Value

/-- No zero of the first value, as its magnitude or as the factor of its unit, meets a zero of the
other sign in the second value. -/
def KeepsZeros : Value → Value → Prop
  | .quantity x, .quantity y =>
    Number.KeepsZero x.magnitude y.magnitude ∧ Number.KeepsZero x.unit.factor y.unit.factor
  | .unitConstructor x, .unitConstructor y => Number.KeepsZero x.factor y.factor
  | _, _ => True

theorem KeepsZeros.refl (v : Value) : v.KeepsZeros v := by
  cases v with
  | quantity q => exact ⟨fun _ => rfl, fun _ => rfl⟩
  | unitConstructor unit => exact fun _ => rfl
  | _ => trivial

theorem measure_eq {left right : Measure} (dims : left.dims.ZeroFree) (base : left.base.ZeroFree)
    (same : (left == right) = true) (keeps : Number.KeepsZero left.factor right.factor) :
    left = right := by
  obtain ⟨leftDims, leftBase, leftFactor⟩ := left
  obtain ⟨rightDims, rightBase, rightFactor⟩ := right
  simp only [BEq.beq, Bool.and_eq_true] at same
  obtain ⟨⟨sameDims, sameBase⟩, sameFactor⟩ := same
  rw [Measure.mk.injEq]
  exact ⟨dims.eq_of_beq sameDims, base.eq_of_beq sameBase,
    Number.eq_of_keepsZero sameFactor keeps⟩

/-- A value that may replace a known one is the same, if the signs of the zeros are. -/
theorem eq_of_isSubtypeOf {v present : Value} (bare : v.unwrap = v) (zeroFree : v.kind.ZeroFree)
    (known : present.isKnown = true) (subtype : v.isSubtypeOf present = true)
    (keeps : v.KeepsZeros present) : v = present := by
  cases v with
  | hole name inner => exact absurd bare (unwrap_ne_hole _ _ _)
  | boolean truth =>
      cases present with
      | boolean other => rw [eq_of_beq subtype]
      | booleanType | quantityType unit | hole name inner => cases known
      | _ => cases subtype
  | booleanConstructor =>
      cases present with
      | booleanConstructor => rfl
      | booleanType | quantityType unit | hole name inner => cases known
      | _ => cases subtype
  | quantity q =>
      cases present with
      | quantity other =>
          obtain ⟨magnitude, unit⟩ := q
          obtain ⟨otherMagnitude, otherUnit⟩ := other
          obtain ⟨sameMagnitude, sameUnit⟩ : (magnitude == otherMagnitude) = true ∧
              (unit == otherUnit) = true := Bool.and_eq_true_iff.mp subtype
          have magnitudes := Number.eq_of_keepsZero sameMagnitude keeps.1
          have units := measure_eq zeroFree.1 zeroFree.2 sameUnit keeps.2
          simp only at magnitudes units
          rw [magnitudes, units]
      | booleanType | quantityType unit | hole name inner => cases known
      | _ => cases subtype
  | unitConstructor unit =>
      cases present with
      | unitConstructor other => rw [measure_eq zeroFree.1 zeroFree.2 subtype keeps]
      | booleanType | quantityType unit | hole name inner => cases known
      | _ => cases subtype
  | booleanType | quantityType unit =>
      cases present with
      | booleanType | quantityType unit | hole name inner => cases known
      | _ => cases subtype

end Value

end Quantities
