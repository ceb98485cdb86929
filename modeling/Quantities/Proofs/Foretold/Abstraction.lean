import Mathlib.Data.Fin.VecNotation
import Quantities.Proofs.Foretold.Operations

/-!
The operations on values as abstract interpreters of themselves. What an operation gives on values of
which the truth or the magnitude is left open is what it gives on any values they may be, with the
truth or the magnitude of the result left open in turn.
-/

namespace Quantities

/-- The operations on values, by the number of their operands. -/
inductive Operation : Nat → Type where
  | not : Operation 1
  | negate : Operation 1
  | power (n : Float) : Operation 1
  | times : Operation 2
  | divide : Operation 2
  | plus : Operation 2
  | minus : Operation 2
  | modulo : Operation 2
  | compare (op : BinaryOp) : Operation 2
  | and : Operation 2
  | or : Operation 2
  | ascribe : Operation 2
  | convert : Operation 2

def Operation.apply {arity : Nat} : Operation arity → (Fin arity → Value) → Option Value
  | not, operands => (operands 0).not
  | negate, operands => (operands 0).negate
  | power n, operands => (operands 0).power n
  | times, operands => (operands 0).times (operands 1)
  | divide, operands => (operands 0).divide (operands 1)
  | plus, operands => (operands 0).plus (operands 1)
  | minus, operands => (operands 0).minus (operands 1)
  | modulo, operands => (operands 0).modulo (operands 1)
  | compare op, operands => Value.compare op (operands 0) (operands 1)
  | and, operands => Value.logical .and (operands 0) (operands 1)
  | or, operands => Value.logical .or (operands 0) (operands 1)
  | ascribe, operands => (operands 0).ascribe (operands 1)
  | convert, operands => (operands 0).convert (operands 1)

namespace Value

/-- The first value is the second one, or it is what is left when the truth or the magnitude of the
second one is forgotten. -/
def Approximates (type v : Value) : Prop := type = v ∨ type.isKnown = false ∧ type = v.abstractType

variable {type v left right result : Value}

theorem foretells_iff : type.Foretells v ↔ v.isKnown = true ∧ type.Approximates v := by
  constructor
  · intro foretells
    refine ⟨foretells.known, ?_⟩
    cases known : type.isKnown with
    | true => exact .inl (foretells.exact known).symm
    | false => exact .inr ⟨known, (foretells.forgotten known).symm⟩
  · rintro ⟨known, rfl | ⟨unknown, abstract⟩⟩
    · exact .of_known known
    · refine ⟨known, fun exact => ?_, fun _ => abstract.symm⟩
      rw [unknown] at exact
      cases exact

theorem isComparison_of_compare {op : BinaryOp} (found : Value.compare op left right = some result) :
    op.isComparison = true := by
  unfold Value.compare at found
  split at found
  next x y =>
    obtain ⟨relation, related, -⟩ := Option.bind_eq_some_iff.mp found
    exact Option.isSome_iff_exists.mpr ⟨relation, related⟩
  next x y =>
    unfold compareTruths at found
    split at found
    next => rfl
    next => rfl
    next => cases found
  iterate 3
    next =>
      obtain ⟨rfl | rfl, -⟩ := Option.ite_none_right_eq_some.mp found <;> rfl
  next =>
    split at found
    next =>
      obtain ⟨fits, -⟩ := Option.ite_none_right_eq_some.mp found
      exact (Bool.and_eq_true_iff.mp fits).2
    next => cases found

theorem binary_of_isComparison {op : BinaryOp} (comparison : op.isComparison = true) :
    binary op = Value.compare op := by
  cases op <;> first | rfl | cases comparison

end Value

namespace Operation

theorem binary_foretold {types values : Fin 2 → Value} {type : Value} (op : BinaryOp)
    (foretells : ∀ i, (types i).Foretells (values i))
    (found : Value.binary op (types 0) (types 1) = some type) :
    ∃ v, Value.binary op (values 0) (values 1) = some v ∧ type.Foretells v :=
  Value.binary_foretold (foretells 0) (foretells 1) found

variable {arity : Nat} {types values : Fin arity → Value} {type : Value}

theorem apply_foretold (op : Operation arity) (foretells : ∀ i, (types i).Foretells (values i))
    (found : op.apply types = some type) :
    ∃ v, op.apply values = some v ∧ type.Foretells v := by
  cases op with
  | not => exact Value.not_foretold (foretells 0) found
  | negate => exact Value.negate_foretold (foretells 0) found
  | power n => exact Value.power_foretold (foretells 0) found
  | times => exact binary_foretold .times foretells found
  | divide => exact binary_foretold .divide foretells found
  | plus => exact binary_foretold .plus foretells found
  | minus => exact binary_foretold .minus foretells found
  | modulo => exact binary_foretold .modulo foretells found
  | compare op =>
      have same := Value.binary_of_isComparison (Value.isComparison_of_compare found)
      simp only [apply, ← same] at found ⊢
      exact binary_foretold op foretells found
  | and => exact Value.connect_foretold (foretells 0) (foretells 1) found
  | or => exact Value.connect_foretold (foretells 0) (foretells 1) found
  | ascribe => exact Value.ascribe_foretold (foretells 0) (foretells 1) found
  | convert => exact Value.convert_foretold (foretells 0) (foretells 1) found

/-- An operation that has a result on what approximates some values has one on the values, and the
results are approximately the same. They are the same if nothing is left open. -/
theorem apply_approximates (op : Operation arity) (complete : ∀ i, (values i).isKnown = true)
    (approximate : ∀ i, (types i).Approximates (values i)) (found : op.apply types = some type) :
    ∃ v, op.apply values = some v ∧ v.isKnown = true ∧ type.Approximates v ∧
      ((∀ i, (types i).isKnown = true) → type = v) := by
  have foretells i : (types i).Foretells (values i) :=
    Value.foretells_iff.mpr ⟨complete i, approximate i⟩
  obtain ⟨v, ran, foretold⟩ := op.apply_foretold foretells found
  obtain ⟨known, approximates⟩ := Value.foretells_iff.mp foretold
  refine ⟨v, ran, known, approximates, fun exact => ?_⟩
  have same : values = types := funext fun i => (foretells i).exact (exact i)
  rw [same, found] at ran
  exact Option.some.inj ran

/-- A distance that is not known over a known time is a speed that is not known. -/
theorem distance_over_time_approximates :
    let metre := Measure.fresh "m"
    let second := Measure.fresh "s"
    let types : Fin 2 → Value := ![.quantityType metre, .quantity ⟨2, second⟩]
    let values : Fin 2 → Value := ![.quantity ⟨6, metre⟩, .quantity ⟨2, second⟩]
    let speed := Value.quantityType (metre.divide second)
    Operation.divide.apply types = some speed ∧
      ∃ v, Operation.divide.apply values = some v ∧ v.isKnown = true ∧ speed.Approximates v := by
  intro metre second types values speed
  have complete : ∀ i, (values i).isKnown = true := by decide
  have approximate : ∀ i, (types i).Approximates (values i) := by
    intro i
    match i with
    | 0 => exact .inr ⟨rfl, rfl⟩
    | 1 => exact .inl rfl
  have found : Operation.divide.apply types = some speed := rfl
  obtain ⟨v, ran, known, approximates, -⟩ := apply_approximates .divide complete approximate found
  exact ⟨found, v, ran, known, approximates⟩

end Operation

end Quantities
