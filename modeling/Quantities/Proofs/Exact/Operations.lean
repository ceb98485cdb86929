import Quantities.Evaluation
import Quantities.Proofs.Kind.Subtype
import Quantities.Proofs.Kind.Typing
import Quantities.Typing

/-!
The operations with known results. A result is never a hole, it is known only if the operands are,
and between known operands checking and evaluating an operation come to the same.
-/

namespace Quantities

namespace Value

/-- A result stands for itself, and is known only if both operands are. -/
structure Settles (left right result : Value) : Prop where
  bare : result.unwrap = result
  known : result.isKnown = true → left.isKnown = true ∧ right.isKnown = true

variable {left right result : Value}

theorem Settles.of_unknown (bare : result.unwrap = result) (unknown : result.isKnown = false) :
    Settles left right result :=
  ⟨bare, fun known => by rw [known] at unknown; cases unknown⟩

theorem Settles.abstractScaling {combine : Measure → Measure → Measure}
    (found : Value.abstractScaling combine left right = some result) :
    Settles left right result := by
  obtain ⟨leftUnit, rightUnit, -, -, rfl⟩ := abstractScaling_eq_some found
  exact .of_unknown rfl rfl

theorem Settles.times (found : left.times right = some result) : Settles left right result := by
  unfold Value.times at found
  split at found
  next =>
    cases found
    exact ⟨rfl, fun _ => ⟨rfl, rfl⟩⟩
  next =>
    split at found
    next =>
      cases found
      exact ⟨rfl, fun _ => ⟨rfl, rfl⟩⟩
    next => cases found
  next =>
    split at found
    next =>
      cases found
      exact ⟨rfl, fun _ => ⟨rfl, rfl⟩⟩
    next => cases found
  next =>
    cases found
    exact ⟨rfl, fun _ => ⟨rfl, rfl⟩⟩
  next => exact .abstractScaling found

theorem Settles.divide (found : left.divide right = some result) : Settles left right result := by
  unfold Value.divide at found
  split at found
  next =>
    cases found
    exact ⟨rfl, fun _ => ⟨rfl, rfl⟩⟩
  next =>
    split at found
    next =>
      cases found
      exact ⟨rfl, fun _ => ⟨rfl, rfl⟩⟩
    next => cases found
  next =>
    split at found
    next =>
      cases found
      exact ⟨rfl, fun _ => ⟨rfl, rfl⟩⟩
    next => cases found
  next =>
    cases found
    exact ⟨rfl, fun _ => ⟨rfl, rfl⟩⟩
  next => exact .abstractScaling found

theorem Settles.additive {op : Quantity → Quantity → Option Quantity}
    (found : Value.additive op left right = some result) : Settles left right result := by
  unfold Value.additive at found
  split at found
  next =>
    obtain ⟨sum, -, rfl⟩ := Option.map_eq_some_iff.mp found
    exact ⟨rfl, fun _ => ⟨rfl, rfl⟩⟩
  next =>
    split at found
    next =>
      split at found
      next =>
        cases found
        exact .of_unknown rfl rfl
      next => cases found
    next => cases found

theorem Settles.compareTruths {op : BinaryOp} {x y : Bool}
    (found : Value.compareTruths op x y = some result) :
    Settles (.boolean x) (.boolean y) result := by
  unfold Value.compareTruths at found
  split at found
  next =>
    cases found
    exact ⟨rfl, fun _ => ⟨rfl, rfl⟩⟩
  next =>
    cases found
    exact ⟨rfl, fun _ => ⟨rfl, rfl⟩⟩
  next => cases found

theorem Settles.compare {op : BinaryOp} (found : Value.compare op left right = some result) :
    Settles left right result := by
  have booleanType {condition : Prop} [Decidable condition]
      (found : (if condition then some booleanType else none) = some result) :
      Settles left right result := by
    split at found
    next =>
      cases found
      exact .of_unknown rfl rfl
    next => cases found
  unfold Value.compare at found
  split at found
  next =>
    obtain ⟨relation, -, found⟩ := Option.bind_eq_some_iff.mp found
    obtain ⟨truth, -, found⟩ := Option.bind_eq_some_iff.mp found
    cases found
    exact ⟨rfl, fun _ => ⟨rfl, rfl⟩⟩
  next => exact .compareTruths found
  next => exact booleanType found
  next => exact booleanType found
  next => exact booleanType found
  next =>
    split at found
    next => exact booleanType found
    next => cases found

theorem Settles.binary {op : BinaryOp} (found : Value.binary op left right = some result) :
    Settles left right result := by
  cases op with
  | times => exact .times found
  | divide => exact .divide found
  | modulo | plus | minus => exact .additive found
  | equal | notEqual | atMost | atLeast | less | greater => exact .compare found

/-- A connective of two truths is the only one with a known result. -/
theorem connect_bare {op : Bool → Bool → Bool}
    (found : Value.connect op left right = some result) :
    result.unwrap = result ∧ (result.isKnown = true →
      ∃ x y, left = .boolean x ∧ right = .boolean y ∧ result = .boolean (op x y)) := by
  unfold Value.connect at found
  split at found
  next x y =>
    cases found
    exact ⟨rfl, fun _ => ⟨x, y, rfl, rfl, rfl⟩⟩
  next =>
    split at found
    next =>
      cases found
      exact ⟨rfl, nofun⟩
    next => cases found

theorem Settles.ascribe (found : left.ascribe right = some result) : Settles left right result := by
  unfold Value.ascribe at found
  split at found
  next =>
    obtain ⟨given, -, rfl⟩ := Option.map_eq_some_iff.mp found
    exact ⟨rfl, fun _ => ⟨rfl, rfl⟩⟩
  next =>
    split at found
    next =>
      cases found
      exact .of_unknown rfl rfl
    next => cases found
  next => cases found

theorem Settles.convert (found : left.convert right = some result) : Settles left right result := by
  unfold Value.convert at found
  split at found
  next =>
    obtain ⟨given, -, rfl⟩ := Option.map_eq_some_iff.mp found
    exact ⟨rfl, fun _ => ⟨rfl, rfl⟩⟩
  next =>
    split at found
    next =>
      cases found
      exact .of_unknown rfl rfl
    next => cases found
  next => cases found

end Value

theorem not_refused {α : Type} {condition : Prop} [Decidable condition] {location : Location}
    {problem : Problem Value} {rest : Except Fault α} {v : α}
    (passed : (if condition then refuse location problem else rest) = .ok v) : ¬ condition := by
  intro holds
  rw [if_pos holds] at passed
  cases passed

namespace Typing

variable {location leftLocation rightLocation : Location} {left right type : Value}

/-- The operand of a sign with a known result is known, and evaluates to that result. -/
theorem sign_bare {op : SignOp} (bare : left.unwrap = left)
    (accepted : sign location leftLocation op left = .ok type) :
    type.unwrap = type ∧ (type.isKnown = true → left.isKnown = true ∧
      Evaluation.sign location leftLocation op left = .ok type) := by
  cases op with
  | not =>
      cases left with
      | boolean truth =>
          cases accepted
          exact ⟨rfl, fun _ => ⟨rfl, rfl⟩⟩
      | booleanType =>
          cases accepted
          exact ⟨rfl, nofun⟩
      | hole name inner => exact absurd bare (Value.unwrap_ne_hole _ _ _)
      | _ => cases accepted
  | plus =>
      cases left with
      | quantity q | unitConstructor unit =>
          cases accepted
          exact ⟨rfl, fun _ => ⟨rfl, rfl⟩⟩
      | quantityType unit =>
          cases accepted
          exact ⟨rfl, nofun⟩
      | hole name inner => exact absurd bare (Value.unwrap_ne_hole _ _ _)
      | _ => cases accepted
  | minus =>
      cases left with
      | quantity q | unitConstructor unit =>
          cases accepted
          exact ⟨rfl, fun _ => ⟨rfl, rfl⟩⟩
      | quantityType unit =>
          cases accepted
          exact ⟨rfl, nofun⟩
      | hole name inner => exact absurd bare (Value.unwrap_ne_hole _ _ _)
      | _ => cases accepted

theorem power_bare {n : Float} (bare : left.unwrap = left)
    (accepted : power location leftLocation left n = .ok type) :
    type.unwrap = type ∧ (type.isKnown = true → left.isKnown = true ∧
      Evaluation.power location leftLocation left n = .ok type) := by
  cases left with
  | quantity q | unitConstructor unit =>
      cases accepted
      exact ⟨rfl, fun _ => ⟨rfl, rfl⟩⟩
  | quantityType unit =>
      cases accepted
      exact ⟨rfl, nofun⟩
  | hole name inner => exact absurd bare (Value.unwrap_ne_hole _ _ _)
  | _ => cases accepted

theorem checkOperands_of_known {op : BinaryOp} (leftKnown : left.isKnown = true)
    (rightKnown : right.isKnown = true)
    (passed : checkOperands location leftLocation rightLocation op left right = .ok ()) :
    Evaluation.checkOperands location leftLocation rightLocation op left right = .ok () := by
  cases left <;> cases leftKnown <;> cases right <;> cases rightKnown <;> try rfl
  case quantity.refl.quantity.refl x y =>
    simp only [checkOperands, Value.numberUnit?] at passed
    exact if_neg (not_refused passed)
  case quantity.refl.unitConstructor.refl x unit =>
    simp only [checkOperands, Value.numberUnit?, Value.unit?, Option.isSome_some,
      Bool.true_and] at passed
    exact if_neg (not_refused passed)
  case unitConstructor.refl.quantity.refl unit y =>
    simp only [checkOperands, Value.numberUnit?, Value.unit?, Option.isSome_some,
      Bool.true_and] at passed
    exact if_neg (not_refused passed)

theorem binary_bare {op : BinaryOp}
    (accepted : binary location leftLocation rightLocation op left right = .ok type) :
    type.unwrap = type ∧ (type.isKnown = true → left.isKnown = true ∧ right.isKnown = true ∧
      Evaluation.binary location leftLocation rightLocation op left right = .ok type) := by
  obtain ⟨_, passed, accepted⟩ := Result.bind_eq_ok.mp accepted
  cases found : Value.binary op left right with
  | none =>
      rw [found] at accepted
      cases accepted
  | some result =>
      rw [found] at accepted
      cases accepted
      have settles := Value.Settles.binary found
      refine ⟨settles.bare, fun known => ?_⟩
      obtain ⟨leftKnown, rightKnown⟩ := settles.known known
      refine ⟨leftKnown, rightKnown, ?_⟩
      rw [Evaluation.binary, checkOperands_of_known leftKnown rightKnown passed, found]
      rfl

theorem logical_bare {op : LogicalOp}
    (accepted : logical location leftLocation rightLocation op left right = .ok type) :
    type.unwrap = type ∧ (type.isKnown = true → ∃ x y : Bool, left = .boolean x ∧
      right = .boolean y ∧
        type = .boolean (if Evaluation.decides op x then x else y)) := by
  unfold logical at accepted
  split at accepted
  next => cases accepted
  next =>
    split at accepted
    next => cases accepted
    next =>
      have found := defined_eq_ok.mp accepted
      cases op with
      | and =>
          obtain ⟨bare, known⟩ := Value.connect_bare found
          refine ⟨bare, fun isKnown => ?_⟩
          obtain ⟨x, y, rfl, rfl, rfl⟩ := known isKnown
          exact ⟨x, y, rfl, rfl, by cases x <;> rfl⟩
      | or =>
          obtain ⟨bare, known⟩ := Value.connect_bare found
          refine ⟨bare, fun isKnown => ?_⟩
          obtain ⟨x, y, rfl, rfl, rfl⟩ := known isKnown
          exact ⟨x, y, rfl, rfl, by cases x <;> rfl⟩

theorem ascription_bare
    (accepted : ascription location leftLocation rightLocation left right = .ok type) :
    type.unwrap = type ∧ (type.isKnown = true → left.isKnown = true ∧ right.isKnown = true ∧
      Evaluation.ascription location leftLocation rightLocation left right = .ok type) := by
  unfold ascription at accepted
  split at accepted
  next => cases accepted
  next scalar =>
    split at accepted
    next => cases accepted
    next unit =>
      have found := defined_eq_ok.mp accepted
      have settles := Value.Settles.ascribe found
      refine ⟨settles.bare, fun known => ?_⟩
      obtain ⟨leftKnown, rightKnown⟩ := settles.known known
      refine ⟨leftKnown, rightKnown, ?_⟩
      cases left with
      | quantity q =>
          have isScalar : (!q.isScalar) = false := by
            simpa [Value.numberUnit?, Quantity.isScalar] using scalar
          simp only [Evaluation.ascription, isScalar, Bool.false_eq_true, if_false, if_neg unit]
          exact accepted
      | boolean truth | booleanConstructor | unitConstructor unit => exact absurd rfl scalar
      | _ => cases leftKnown

theorem conversion_bare
    (accepted : conversion location leftLocation rightLocation left right = .ok type) :
    type.unwrap = type ∧ (type.isKnown = true → left.isKnown = true ∧ right.isKnown = true ∧
      Evaluation.conversion location leftLocation rightLocation left right = .ok type) := by
  unfold conversion at accepted
  split at accepted
  next => cases accepted
  next => cases accepted
  next source target sourceFound targetFound =>
    split at accepted
    next => cases accepted
    next fits =>
      have found := defined_eq_ok.mp accepted
      have settles := Value.Settles.convert found
      refine ⟨settles.bare, fun known => ?_⟩
      obtain ⟨leftKnown, rightKnown⟩ := settles.known known
      refine ⟨leftKnown, rightKnown, ?_⟩
      cases left with
      | quantity q =>
          cases sourceFound
          simp only [Evaluation.conversion, targetFound]
          exact (if_neg fits).trans accepted
      | boolean truth | booleanConstructor | unitConstructor unit => cases sourceFound
      | _ => cases leftKnown

end Typing

end Quantities
