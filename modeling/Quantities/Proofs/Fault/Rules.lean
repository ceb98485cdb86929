import Quantities.Evaluation
import Quantities.Proofs.Exact.Expression
import Quantities.Proofs.Fault
import Quantities.Typing

/-!
The faults of the rules of checking and of evaluation. A rule looks at the operands before it does an
operation on them, so that a fault is placed at the node or at an operand and says what is wrong there:
the operation is reached only with operands for which it has a result.
-/

namespace Quantities

/-- All problems but that an operation on values has no result say what is wrong. -/
def Problem.explains {Operand : Type} : Problem Operand → Bool
  | operationFailed _ => false
  | _ => true

def Fault.Explained (fault : Fault) : Prop := fault.problem.explains = true

/-- The fault is at one of these places and says what is wrong there. -/
structure Fault.Accounted (places : List Location) (fault : Fault) : Prop where
  placed : fault.location ∈ places
  explained : fault.Explained

namespace Value

variable {v unit : Value}

theorem exists_not (bare : v.unwrap = v) (boolean : v.isBoolean = true) : ∃ r, v.not = some r := by
  cases v with
  | boolean truth | booleanType => exact ⟨_, rfl⟩
  | hole name type => exact absurd bare (unwrap_ne_hole _ _ _)
  | _ => cases boolean

theorem exists_negate (bare : v.unwrap = v) (fits : Typing.isNumberOrUnit v = true) :
    ∃ r, v.negate = some r := by
  cases v with
  | quantity q | quantityType unit | unitConstructor unit => exact ⟨_, rfl⟩
  | hole name type => exact absurd bare (unwrap_ne_hole _ _ _)
  | _ => cases fits

theorem exists_power (bare : v.unwrap = v) (fits : Typing.isNumberOrUnit v = true) (n : Float) :
    ∃ r, v.power n = some r := by
  cases v with
  | quantity q | quantityType unit | unitConstructor unit => exact ⟨_, rfl⟩
  | hole name type => exact absurd bare (unwrap_ne_hole _ _ _)
  | _ => cases fits

theorem exists_logical {left right : Value} (op : LogicalOp) (leftBoolean : left.isBoolean = true)
    (rightBoolean : right.isBoolean = true) : ∃ r, logical op left right = some r := by
  have connected (op : Bool → Bool → Bool) : ∃ r, connect op left right = some r := by
    unfold connect
    split
    next => exact ⟨_, rfl⟩
    next => exact ⟨_, if_pos (Bool.and_eq_true_iff.mpr ⟨leftBoolean, rightBoolean⟩)⟩
  cases op with
  | and => exact connected Bool.and
  | or => exact connected Bool.or

theorem exists_ascribe {source target : Measure} (bare : v.unwrap = v)
    (number : v.numberUnit? = some source) (given : unit.unit? = some target)
    (plain : source.isScalar = true) : ∃ r, v.ascribe unit = some r := by
  cases unit with
  | unitConstructor other =>
      cases v with
      | quantity q =>
          cases number
          have ascribed : q.ascribe other = some ⟨q.magnitude, other⟩ := if_pos plain
          exact ⟨_, congrArg (Option.map quantity) ascribed⟩
      | quantityType type =>
          cases number
          exact ⟨_, if_pos plain⟩
      | hole name type => exact absurd bare (unwrap_ne_hole _ _ _)
      | _ => cases number
  | _ => cases given

theorem exists_convert {source target : Measure} (bare : v.unwrap = v)
    (number : v.numberUnit? = some source) (given : unit.unit? = some target)
    (fits : (source.base == target.base) = true ∨ source.isScalar = true) :
    ∃ r, v.convert unit = some r := by
  cases unit with
  | unitConstructor other =>
      cases given
      cases v with
      | quantity q =>
          cases number
          have converted : ∃ r, q.convert target = some r := by
            unfold Quantity.convert
            split
            next => exact ⟨_, rfl⟩
            next differ => exact ⟨_, if_pos (fits.resolve_left differ)⟩
          obtain ⟨r, found⟩ := converted
          exact ⟨_, congrArg (Option.map quantity) found⟩
      | quantityType type =>
          cases number
          exact ⟨_, if_pos (Bool.or_eq_true_iff.mpr fits)⟩
      | hole name type => exact absurd bare (unwrap_ne_hole _ _ _)
      | _ => cases number
  | _ => cases given

end Value

open Fault (Accounted)

namespace Typing

variable {location leftLocation rightLocation : Location} {left right : Value}

theorem sign_accounted {op : SignOp} (bare : left.unwrap = left) :
    FailsOnly (Accounted [location, leftLocation]) (sign location leftLocation op left) := by
  cases op with
  | not =>
      exact .ite (fun boolean => .defined (Value.exists_not bare boolean)) fun _ =>
        .refuse ⟨by simp, rfl⟩
  | plus => exact .ite (fun _ => .ok) fun _ => .refuse ⟨by simp, rfl⟩
  | minus =>
      exact .ite (fun fits => .defined (Value.exists_negate bare fits)) fun _ =>
        .refuse ⟨by simp, rfl⟩

theorem power_accounted {n : Float} (bare : left.unwrap = left) :
    FailsOnly (Accounted [location, leftLocation]) (power location leftLocation left n) :=
  .ite (fun fits => .defined (Value.exists_power bare fits n)) fun _ => .refuse ⟨by simp, rfl⟩

theorem checkOperands_accounted {op : BinaryOp} :
    FailsOnly (Accounted [location, leftLocation, rightLocation])
      (checkOperands location leftLocation rightLocation op left right) := by
  unfold checkOperands
  split
  · exact .ite (fun _ => .refuse ⟨by simp, rfl⟩) fun _ => .ok
  · exact .ite (fun _ => .refuse ⟨by simp, rfl⟩) fun _ => .ok
  · exact .ite (fun _ => .refuse ⟨by simp, rfl⟩) fun _ => .ok
  · exact .ok

theorem binary_accounted {op : BinaryOp} :
    FailsOnly (Accounted [location, leftLocation, rightLocation])
      (binary location leftLocation rightLocation op left right) := by
  refine .bind checkOperands_accounted fun _ _ => ?_
  split
  · exact .ok
  · exact .refuse ⟨by simp, rfl⟩

theorem logical_accounted {op : LogicalOp} :
    FailsOnly (Accounted [location, leftLocation, rightLocation])
      (logical location leftLocation rightLocation op left right) :=
  .ite (fun _ => .refuse ⟨by simp, rfl⟩) fun leftBoolean =>
    .ite (fun _ => .refuse ⟨by simp, rfl⟩) fun rightBoolean =>
      .defined (Value.exists_logical op (by simpa using leftBoolean) (by simpa using rightBoolean))

theorem ascription_accounted (bare : left.unwrap = left) :
    FailsOnly (Accounted [location, leftLocation, rightLocation])
      (ascription location leftLocation rightLocation left right) := by
  refine .ite (fun _ => .refuse ⟨by simp, rfl⟩) fun plain =>
    .ite (fun _ => .refuse ⟨by simp, rfl⟩) fun given => ?_
  simp only [Bool.not_eq_true', Bool.not_eq_false, Option.any_eq_true] at plain
  obtain ⟨source, number, isScalar⟩ := plain
  obtain ⟨target, given⟩ := Option.ne_none_iff_exists'.mp (mt Option.isNone_iff_eq_none.mpr given)
  exact .defined (Value.exists_ascribe bare number given isScalar)

theorem conversion_accounted (bare : left.unwrap = left) :
    FailsOnly (Accounted [location, leftLocation, rightLocation])
      (conversion location leftLocation rightLocation left right) := by
  unfold conversion
  split
  next => exact .refuse ⟨by simp, rfl⟩
  next => exact .refuse ⟨by simp, rfl⟩
  next source target number given =>
    refine .ite (fun _ => .refuse ⟨by simp, rfl⟩) fun fits => ?_
    refine .defined (Value.exists_convert bare number given ?_)
    simpa [bne, ← Bool.not_eq_true, Classical.or_iff_not_imp_left] using fits

end Typing

namespace Evaluation

variable {location leftLocation rightLocation : Location} {left right : Value}

/-- A value that is a number or a unit for the evaluation is one for the checker, and is no hole. -/
theorem isNumberOrUnit_typing (fits : isNumberOrUnit left = true) :
    left.unwrap = left ∧ Typing.isNumberOrUnit left = true := by
  cases left with
  | quantity q | unitConstructor unit => exact ⟨rfl, rfl⟩
  | _ => cases fits

theorem sign_accounted {op : SignOp} :
    FailsOnly (Accounted [location, leftLocation]) (sign location leftLocation op left) := by
  cases op with
  | not => cases left <;> first | exact .ok | exact .refuse ⟨by simp, rfl⟩
  | plus => exact .ite (fun _ => .ok) fun _ => .refuse ⟨by simp, rfl⟩
  | minus =>
      refine .ite (fun fits => ?_) fun _ => .refuse ⟨by simp, rfl⟩
      obtain ⟨bare, fits⟩ := isNumberOrUnit_typing fits
      exact .defined (Value.exists_negate bare fits)

theorem power_accounted {n : Float} :
    FailsOnly (Accounted [location, leftLocation]) (power location leftLocation left n) := by
  refine .ite (fun fits => ?_) fun _ => .refuse ⟨by simp, rfl⟩
  obtain ⟨bare, fits⟩ := isNumberOrUnit_typing fits
  exact .defined (Value.exists_power bare fits n)

theorem checkOperands_accounted {op : BinaryOp} :
    FailsOnly (Accounted [location, leftLocation, rightLocation])
      (checkOperands location leftLocation rightLocation op left right) := by
  unfold checkOperands
  split
  · exact .ite (fun _ => .refuse ⟨by simp, rfl⟩) fun _ => .ok
  · exact .ite (fun _ => .refuse ⟨by simp, rfl⟩) fun _ => .ok
  · exact .ite (fun _ => .refuse ⟨by simp, rfl⟩) fun _ => .ok
  · exact .ok

theorem binary_accounted {op : BinaryOp} :
    FailsOnly (Accounted [location, leftLocation, rightLocation])
      (binary location leftLocation rightLocation op left right) := by
  refine .bind checkOperands_accounted fun _ _ => ?_
  split
  · exact .ok
  · exact .refuse ⟨by simp, rfl⟩

theorem truth_accounted : FailsOnly (Accounted [location]) (truth location left) := by
  unfold truth
  split
  · exact .ok
  · exact .refuse ⟨by simp, rfl⟩

theorem truth_eq_ok {known : Bool} : truth location left = .ok known ↔ left = .boolean known := by
  cases left <;> simp [truth, refuse]

theorem ascription_accounted :
    FailsOnly (Accounted [location, leftLocation, rightLocation])
      (ascription location leftLocation rightLocation left right) := by
  unfold ascription
  split
  next q =>
    refine .ite (fun _ => .refuse ⟨by simp, rfl⟩) fun plain =>
      .ite (fun _ => .refuse ⟨by simp, rfl⟩) fun given => ?_
    obtain ⟨target, given⟩ := Option.ne_none_iff_exists'.mp (mt Option.isNone_iff_eq_none.mpr given)
    have isScalar : q.unit.isScalar = true := by simpa [Quantity.isScalar] using plain
    exact .defined (Value.exists_ascribe rfl rfl given isScalar)
  next => exact .refuse ⟨by simp, rfl⟩

theorem conversion_accounted :
    FailsOnly (Accounted [location, leftLocation, rightLocation])
      (conversion location leftLocation rightLocation left right) := by
  unfold conversion
  split
  next q target given =>
    refine .ite (fun _ => .refuse ⟨by simp, rfl⟩) fun fits =>
      .defined (Value.exists_convert rfl rfl given ?_)
    simpa [bne, Quantity.isScalar, Classical.or_iff_not_imp_left] using fits
  next => exact .refuse ⟨by simp, rfl⟩
  next => exact .refuse ⟨by simp, rfl⟩

end Evaluation

/-- No hole comes out of the checker, since it takes the names out of their holes. -/
theorem Expr.unwrap_of_infer {types : String → Option Value} {e : Expr} {type : Value}
    (inferred : e.infer types = .ok type) : type.unwrap = type := by
  have exact : Exact types fun name => (types name).map Value.unwrap := by
    intro name declared bound _
    exact congrArg (Option.map Value.unwrap) bound
  exact (infer_exact exact inferred).1

end Quantities
