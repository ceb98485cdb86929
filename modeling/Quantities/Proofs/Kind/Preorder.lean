import Quantities.Proofs.Dimensions.Vector
import Quantities.Proofs.Kind.Subtype

/-!
The order of values by which of them may be kept in the place of which. It is transitive, and every
value may stand in its own place, except for holes and for what holds something that is not a number.
Forgetting truths and magnitudes leads up in this order and respects it.
-/

namespace Quantities

theorem Number.beq_self_iff {x : Float} : (x == x) = true ↔ x.isNaN = false := by
  rw [Float.beq_self_iff, Float.isNaN_eq_decide_eq_nan, decide_eq_false_iff_not]

namespace Dimensions

def exponents (dims : Dimensions) : List Float := dims.entries.map (·.2)

theorem beq_self_iff_exponents {dims : Dimensions} :
    (dims == dims) = true ↔ ∀ x ∈ dims.exponents, x.isNaN = false := by
  rw [beq_self_iff, exponents, List.forall_mem_map]
  exact forall₂_congr fun entry _ => Number.beq_self_iff

theorem beq_trans {left middle right : Dimensions} (first : (left == middle) = true)
    (second : (middle == right) = true) : (left == right) = true := by
  obtain ⟨entries⟩ := left
  obtain ⟨others⟩ := middle
  obtain ⟨last⟩ := right
  change (entries == others) = true at first
  change (others == last) = true at second
  change (entries == last) = true
  induction entries generalizing others last with
  | nil =>
      cases others with
      | nil => exact second
      | cons other more => cases first
  | cons entry rest ih =>
      cases others with
      | nil => cases first
      | cons other more =>
          cases last with
          | nil => cases second
          | cons final later =>
              rw [List.cons_beq_cons, Bool.and_eq_true] at first second ⊢
              refine ⟨?_, ih _ _ first.2 second.2⟩
              obtain ⟨label, exponent⟩ := Bool.and_eq_true_iff.mp first.1
              obtain ⟨nextLabel, nextExponent⟩ := Bool.and_eq_true_iff.mp second.1
              exact Bool.and_eq_true_iff.mpr
                ⟨BEq.trans label nextLabel, BEq.trans exponent nextExponent⟩

end Dimensions

namespace Measure

/-- All the numbers in a unit. -/
def numbers (unit : Measure) : List Float :=
  unit.factor :: (unit.dims.exponents ++ unit.base.exponents)

theorem beq_iff {left right : Measure} : (left == right) = true ↔
    (left.dims == right.dims) = true ∧ (left.base == right.base) = true ∧
      (left.factor == right.factor) = true := by
  change (left.dims == right.dims && left.base == right.base && left.factor == right.factor) = true ↔ _
  rw [Bool.and_eq_true, Bool.and_eq_true, and_assoc]

theorem beq_self_iff {unit : Measure} :
    (unit == unit) = true ↔ ∀ x ∈ unit.numbers, x.isNaN = false := by
  rw [beq_iff, numbers, List.forall_mem_cons, List.forall_mem_append,
    ← Dimensions.beq_self_iff_exponents, ← Dimensions.beq_self_iff_exponents,
    Number.beq_self_iff, ← and_assoc, and_comm]

theorem beq_trans {left middle right : Measure} (first : (left == middle) = true)
    (second : (middle == right) = true) : (left == right) = true := by
  obtain ⟨dims, base, factor⟩ := beq_iff.mp first
  obtain ⟨nextDims, nextBase, nextFactor⟩ := beq_iff.mp second
  exact beq_iff.mpr ⟨Dimensions.beq_trans dims nextDims, Dimensions.beq_trans base nextBase,
    BEq.trans factor nextFactor⟩

end Measure

namespace Value

def isHole : Value → Bool
  | .hole _ _ => true
  | _ => false

/-- All the numbers in a value: its magnitude, its factor and its exponents. -/
def numbers : Value → List Float
  | .quantity q => q.magnitude :: q.unit.numbers
  | .quantityType unit | .unitConstructor unit => unit.numbers
  | .hole _ type => type.numbers
  | .boolean _ | .booleanType | .booleanConstructor => []

/-- No number in the value is the one that is not a number. -/
def NaNFree (v : Value) : Prop := ∀ x ∈ v.numbers, x.isNaN = false

/-- A value in the place of another one, where neither of them is a hole. -/
inductive Fits : Value → Value → Prop where
  | truth (truth : Bool) : Fits (.boolean truth) (.boolean truth)
  | anyTruth (truth : Bool) : Fits (.boolean truth) .booleanType
  | booleanType : Fits .booleanType .booleanType
  | booleanConstructor : Fits .booleanConstructor .booleanConstructor
  | quantity {q other : Quantity} (magnitudes : (q.magnitude == other.magnitude) = true)
      (units : (q.unit == other.unit) = true) : Fits (.quantity q) (.quantity other)
  | anyQuantity {q : Quantity} {unit : Measure} (units : (q.unit == unit) = true) :
      Fits (.quantity q) (.quantityType unit)
  | quantityType {unit other : Measure} (units : (unit == other) = true) :
      Fits (.quantityType unit) (.quantityType other)
  | unitConstructor {unit other : Measure} (units : (unit == other) = true) :
      Fits (.unitConstructor unit) (.unitConstructor other)

namespace Fits

variable {v other last : Value}

theorem isHole_left (fits : Fits v other) : v.isHole = false := by
  cases fits <;> rfl

theorem isHole_right (fits : Fits v other) : other.isHole = false := by
  cases fits <;> rfl

theorem trans (first : Fits v other) (second : Fits other last) : Fits v last := by
  cases first with
  | truth truth => exact second
  | anyTruth truth =>
      cases second
      exact .anyTruth truth
  | booleanType | booleanConstructor => exact second
  | quantity magnitudes units =>
      cases second with
      | quantity nextMagnitudes nextUnits =>
          exact .quantity (BEq.trans magnitudes nextMagnitudes) (Measure.beq_trans units nextUnits)
      | anyQuantity nextUnits => exact .anyQuantity (Measure.beq_trans units nextUnits)
  | anyQuantity units =>
      cases second with
      | quantityType nextUnits => exact .anyQuantity (Measure.beq_trans units nextUnits)
  | quantityType units =>
      cases second with
      | quantityType nextUnits => exact .quantityType (Measure.beq_trans units nextUnits)
  | unitConstructor units =>
      cases second with
      | unitConstructor nextUnits => exact .unitConstructor (Measure.beq_trans units nextUnits)

/-- Of a known truth or magnitude in the place of another one, the types fit as well. -/
theorem abstractType (fits : Fits v other) : Fits v.abstractType other.abstractType := by
  cases fits with
  | truth truth | anyTruth truth | booleanType => exact .booleanType
  | booleanConstructor => exact .booleanConstructor
  | quantity magnitudes units => exact .quantityType units
  | anyQuantity units | quantityType units => exact .quantityType units
  | unitConstructor units => exact .unitConstructor units

theorem self_iff : Fits v v ↔ v.isHole = false ∧ v.NaNFree := by
  constructor
  · intro fits
    refine ⟨fits.isHole_left, ?_⟩
    cases fits with
    | truth truth | booleanType | booleanConstructor => exact nofun
    | quantity magnitudes units =>
        exact List.forall_mem_cons.mpr
          ⟨Number.beq_self_iff.mp magnitudes, Measure.beq_self_iff.mp units⟩
    | quantityType units | unitConstructor units => exact Measure.beq_self_iff.mp units
  · rintro ⟨bare, free⟩
    cases v with
    | boolean truth => exact .truth truth
    | booleanType => exact .booleanType
    | booleanConstructor => exact .booleanConstructor
    | quantity q =>
        obtain ⟨magnitude, unit⟩ := List.forall_mem_cons.mp free
        exact .quantity (Number.beq_self_iff.mpr magnitude) (Measure.beq_self_iff.mpr unit)
    | quantityType unit => exact .quantityType (Measure.beq_self_iff.mpr free)
    | unitConstructor unit => exact .unitConstructor (Measure.beq_self_iff.mpr free)
    | hole name type => cases bare

end Fits

theorem isHole_unwrap (v : Value) : v.unwrap.isHole = false := by
  induction v with
  | hole name type ih => exact ih
  | _ => rfl

theorem unwrap_of_not_hole {v : Value} (bare : v.isHole = false) : v.unwrap = v := by
  cases v with
  | hole name type => cases bare
  | _ => rfl

theorem isSubtypeOf_iff {v other : Value} : v.isSubtypeOf other = true ↔ Fits v.unwrap other := by
  rw [← isSubtypeOf_unwrap]
  have bare := v.isHole_unwrap
  generalize v.unwrap = given at bare ⊢
  constructor
  · intro subtype
    cases given with
    | hole name type => cases bare
    | boolean truth =>
        cases other with
        | boolean same =>
            obtain rfl := eq_of_beq subtype
            exact .truth truth
        | booleanType => exact .anyTruth truth
        | _ => cases subtype
    | booleanType =>
        cases other with
        | booleanType => exact .booleanType
        | _ => cases subtype
    | booleanConstructor =>
        cases other with
        | booleanConstructor => exact .booleanConstructor
        | _ => cases subtype
    | quantity q =>
        cases other with
        | quantity given =>
            obtain ⟨magnitudes, units⟩ := Bool.and_eq_true_iff.mp subtype
            exact .quantity magnitudes units
        | quantityType unit => exact .anyQuantity subtype
        | _ => cases subtype
    | quantityType unit =>
        cases other with
        | quantityType required => exact .quantityType subtype
        | _ => cases subtype
    | unitConstructor unit =>
        cases other with
        | unitConstructor required => exact .unitConstructor subtype
        | _ => cases subtype
  · intro fits
    cases fits with
    | truth truth => exact beq_self_eq_true truth
    | anyTruth | booleanType | booleanConstructor => rfl
    | quantity magnitudes units => exact Bool.and_eq_true_iff.mpr ⟨magnitudes, units⟩
    | anyQuantity units | quantityType units | unitConstructor units => exact units

theorem isHole_abstractType (v : Value) : v.abstractType.isHole = false := by
  induction v with
  | hole name type ih => exact ih
  | _ => rfl

theorem abstractType_abstractType (v : Value) : v.abstractType.abstractType = v.abstractType := by
  induction v with
  | hole name type ih => exact ih
  | _ => rfl

theorem fits_abstractType {v : Value} (free : v.NaNFree) : Fits v.unwrap v.abstractType := by
  induction v with
  | hole name type ih => exact ih free
  | boolean truth => exact .anyTruth truth
  | quantity q => exact .anyQuantity (Measure.beq_self_iff.mpr (List.forall_mem_cons.mp free).2)
  | booleanType | booleanConstructor | quantityType unit | unitConstructor unit =>
      exact Fits.self_iff.mpr ⟨rfl, free⟩

/-- What may be kept in the place of what is an order, but for holes and for numbers that are not
numbers, and forgetting truths and magnitudes is a closure in it. -/
theorem subtypes_ordered_and_closed :
    (∀ v other last : Value, v.isSubtypeOf other = true → other.isSubtypeOf last = true →
      v.isSubtypeOf last = true) ∧
    (∀ v : Value, v.isSubtypeOf v = true ↔ v.isHole = false ∧ v.NaNFree) ∧
    (∀ v other : Value, v.isSubtypeOf other = v.unwrap.isSubtypeOf other ∧
      v.unwrap.isHole = false) ∧
    (∀ v other : Value, other.isHole = true → v.isSubtypeOf other = false) ∧
    (∀ v : Value, v.abstractType.abstractType = v.abstractType ∧ v.abstractType.isHole = false) ∧
    (∀ v : Value, v.NaNFree → v.isSubtypeOf v.abstractType = true) ∧
    ∀ v other : Value, v.isSubtypeOf other = true →
      v.abstractType.isSubtypeOf other.abstractType = true := by
  refine ⟨?_, ?_, ?_, ?_, ?_, ?_, ?_⟩
  · intro v other last first second
    have fits := isSubtypeOf_iff.mp first
    have behind := isSubtypeOf_iff.mp second
    rw [unwrap_of_not_hole fits.isHole_right] at behind
    exact isSubtypeOf_iff.mpr (fits.trans behind)
  · intro v
    constructor
    · intro subtype
      have fits := isSubtypeOf_iff.mp subtype
      have bare := fits.isHole_right
      rw [unwrap_of_not_hole bare] at fits
      exact Fits.self_iff.mp fits
    · rintro ⟨bare, free⟩
      rw [isSubtypeOf_iff, unwrap_of_not_hole bare]
      exact Fits.self_iff.mpr ⟨bare, free⟩
  · exact fun v other => ⟨(isSubtypeOf_unwrap v other).symm, v.isHole_unwrap⟩
  · intro v other hole
    cases subtype : v.isSubtypeOf other with
    | false => rfl
    | true =>
        have bare := (isSubtypeOf_iff.mp subtype).isHole_right
        rw [hole] at bare
        cases bare
  · exact fun v => ⟨v.abstractType_abstractType, v.isHole_abstractType⟩
  · exact fun v free => isSubtypeOf_iff.mpr (fits_abstractType free)
  · intro v other subtype
    have fits := (isSubtypeOf_iff.mp subtype).abstractType
    rw [abstractType_unwrap] at fits
    rw [isSubtypeOf_iff, unwrap_of_not_hole v.isHole_abstractType]
    exact fits

end Value

end Quantities
