import Quantities.Proofs.Kind.ZeroFree

/-!
Kinds and subtypes. A value that may be kept where another one is expected is of the same kind, and
a value of the same kind may be kept unless the factors of the two units differ.
-/

namespace Quantities

namespace Kind

/-- Whether the dimensions compare equal to themselves, which those with an exponent that is not a
number do not. -/
def selfEqual : Kind → Bool
  | .number dims base | .unit dims base => dims == dims && base == base
  | .boolean | .booleanConstructor => true

end Kind

theorem Measure.dims_eq_of_beq {left right : Measure} (zeroFree : left.dims.ZeroFree)
    (baseFree : left.base.ZeroFree) (same : (left == right) = true) :
    left.dims = right.dims ∧ left.base = right.base := by
  obtain ⟨dimensions, -⟩ := Bool.and_eq_true_iff.mp same
  obtain ⟨dims, base⟩ := Bool.and_eq_true_iff.mp dimensions
  exact ⟨zeroFree.eq_of_beq dims, baseFree.eq_of_beq base⟩

namespace Value

/-- The unit of a number, or the unit itself. -/
def measure? : Value → Option Measure
  | .quantity q => some q.unit
  | .quantityType unit | .unitConstructor unit => some unit
  | .hole _ type => type.measure?
  | .boolean _ | .booleanType | .booleanConstructor => none

theorem kind_of_measure {v : Value} {unit : Measure} (found : v.measure? = some unit) :
    v.kind = .number unit.dims unit.base ∨ v.kind = .unit unit.dims unit.base := by
  induction v with
  | hole name type ih => exact ih found
  | quantity q | quantityType given =>
      cases found
      exact .inl rfl
  | unitConstructor given =>
      cases found
      exact .inr rfl
  | _ => cases found

/-- Two numbers or two units of one kind are written in units that are not worth the same. -/
structure FactorsDiffer (v other : Value) : Prop where
  sameKind : v.kind = other.kind
  factors : ∃ unit required, v.measure? = some unit ∧ other.measure? = some required ∧
    (unit.factor == required.factor) = false

theorem kind_eq_of_isSubtypeOf {v other : Value} (zeroFree : v.kind.ZeroFree)
    (subtype : v.isSubtypeOf other = true) : v.kind = other.kind := by
  induction v with
  | hole name type ih => exact ih zeroFree subtype
  | boolean truth => cases other <;> first | rfl | cases subtype
  | booleanType => cases other <;> first | rfl | cases subtype
  | booleanConstructor => cases other <;> first | rfl | cases subtype
  | quantity q =>
      cases other with
      | quantity given =>
          obtain ⟨-, units⟩ := Bool.and_eq_true_iff.mp subtype
          obtain ⟨dims, base⟩ := Measure.dims_eq_of_beq zeroFree.1 zeroFree.2 units
          simp only [kind, dims, base]
      | quantityType unit =>
          obtain ⟨dims, base⟩ := Measure.dims_eq_of_beq zeroFree.1 zeroFree.2 subtype
          simp only [kind, dims, base]
      | _ => cases subtype
  | quantityType given =>
      cases other with
      | quantityType unit =>
          obtain ⟨dims, base⟩ := Measure.dims_eq_of_beq zeroFree.1 zeroFree.2 subtype
          simp only [kind, dims, base]
      | _ => cases subtype
  | unitConstructor given =>
      cases other with
      | unitConstructor unit =>
          obtain ⟨dims, base⟩ := Measure.dims_eq_of_beq zeroFree.1 zeroFree.2 subtype
          simp only [kind, dims, base]
      | _ => cases subtype

theorem selfEqual_of_isSubtypeOf {v other : Value} (sameKind : v.kind = other.kind)
    (subtype : v.isSubtypeOf other = true) : v.kind.selfEqual = true := by
  have units {unit required : Measure} (dims : unit.dims = required.dims)
      (base : unit.base = required.base) (same : (unit == required) = true) :
      (unit.dims == unit.dims && unit.base == unit.base) = true := by
    have parts := (Bool.and_eq_true_iff.mp same).1
    rwa [← dims, ← base] at parts
  induction v with
  | hole name type ih => exact ih sameKind subtype
  | boolean truth | booleanType | booleanConstructor => rfl
  | quantity q =>
      cases other with
      | quantity given =>
          injection sameKind with dims base
          exact units dims base (Bool.and_eq_true_iff.mp subtype).2
      | quantityType unit =>
          injection sameKind with dims base
          exact units dims base subtype
      | _ => cases subtype
  | quantityType given =>
      cases other with
      | quantityType unit =>
          injection sameKind with dims base
          exact units dims base subtype
      | _ => cases subtype
  | unitConstructor given =>
      cases other with
      | unitConstructor unit =>
          injection sameKind with dims base
          exact units dims base subtype
      | _ => cases subtype

theorem isSubtypeOf_unwrap (v other : Value) : v.unwrap.isSubtypeOf other = v.isSubtypeOf other := by
  induction v with
  | hole name type ih => exact ih
  | _ => rfl

theorem abstractType_unwrap (v : Value) : v.unwrap.abstractType = v.abstractType := by
  induction v with
  | hole name type ih => exact ih
  | _ => rfl

theorem measure?_unwrap (v : Value) : v.unwrap.measure? = v.measure? := by
  induction v with
  | hole name type ih => exact ih
  | _ => rfl

theorem unwrap_ne_hole (v : Value) (name : String) (type : Value) : v.unwrap ≠ .hole name type := by
  induction v with
  | hole _ _ ih => exact ih
  | _ => exact fun same => by cases same

theorem beq_or_factors {unit required : Measure} (dims : unit.dims = required.dims)
    (base : unit.base = required.base)
    (selfEqual : (unit.dims == unit.dims && unit.base == unit.base) = true) :
    (unit == required) = true ∨ ∃ given expected, some unit = some given ∧
      some required = some expected ∧ (given.factor == expected.factor) = false := by
  rw [dims, base] at selfEqual
  cases factors : unit.factor == required.factor with
  | true =>
      refine .inl (Bool.and_eq_true_iff.mpr ⟨?_, factors⟩)
      rwa [dims, base]
  | false => exact .inr ⟨unit, required, rfl, rfl, factors⟩

/-- A value of the kind of another one may take its place, unless their factors differ. -/
theorem isSubtypeOf_or_factorsDiffer {v other : Value} (sameKind : v.kind = other.kind)
    (selfEqual : v.kind.selfEqual = true) :
    v.isSubtypeOf other.abstractType = true ∨ v.FactorsDiffer other := by
  -- A hole is kept where its type is, and so both values can be taken out of their holes.
  suffices unwrapped : v.unwrap.isSubtypeOf other.unwrap.abstractType = true ∨
      ∃ unit required, v.unwrap.measure? = some unit ∧ other.unwrap.measure? = some required ∧
        (unit.factor == required.factor) = false by
    rw [isSubtypeOf_unwrap, abstractType_unwrap, measure?_unwrap, measure?_unwrap] at unwrapped
    exact unwrapped.imp_right fun factors => ⟨sameKind, factors⟩
  have noHole := v.unwrap_ne_hole
  have noOtherHole := other.unwrap_ne_hole
  rw [← kind_unwrap v] at sameKind selfEqual
  rw [← kind_unwrap other] at sameKind
  generalize v.unwrap = given at *
  generalize other.unwrap = expected at *
  cases given with
  | hole name type => exact absurd rfl (noHole name type)
  | boolean truth | booleanType =>
      cases expected with
      | hole name type => exact absurd rfl (noOtherHole name type)
      | boolean other | booleanType => exact .inl rfl
      | _ => cases sameKind
  | booleanConstructor =>
      cases expected with
      | hole name type => exact absurd rfl (noOtherHole name type)
      | booleanConstructor => exact .inl rfl
      | _ => cases sameKind
  | quantity q =>
      cases expected with
      | hole name type => exact absurd rfl (noOtherHole name type)
      | quantity other =>
          injection sameKind with dims base
          exact beq_or_factors dims base selfEqual
      | quantityType required =>
          injection sameKind with dims base
          exact beq_or_factors dims base selfEqual
      | _ => cases sameKind
  | quantityType unit =>
      cases expected with
      | hole name type => exact absurd rfl (noOtherHole name type)
      | quantity other =>
          injection sameKind with dims base
          exact beq_or_factors dims base selfEqual
      | quantityType required =>
          injection sameKind with dims base
          exact beq_or_factors dims base selfEqual
      | _ => cases sameKind
  | unitConstructor unit =>
      cases expected with
      | hole name type => exact absurd rfl (noOtherHole name type)
      | unitConstructor required =>
          injection sameKind with dims base
          exact beq_or_factors dims base selfEqual
      | _ => cases sameKind

end Value

end Quantities
