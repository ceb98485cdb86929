import Quantities.Proofs.Kind
import Quantities.Problem

/-!
The operations on values respect kinds. A result has the kind that follows from the kinds of the
operands, and between known values of fitting kinds there always is a result.
-/

namespace Quantities

open Kind

/-- Whether a value is complete, so that it may stand where a program computes. -/
def Value.isKnown : Value → Bool
  | .boolean _ | .quantity _ | .booleanConstructor | .unitConstructor _ => true
  | _ => false

namespace Value

theorem abstractScaling_eq_some {combine : Measure → Measure → Measure} {left right result : Value}
    (found : abstractScaling combine left right = some result) :
    ∃ leftUnit rightUnit, left.givenUnit? = some leftUnit ∧ right.givenUnit? = some rightUnit ∧
      result = .quantityType (combine leftUnit rightUnit) := by
  unfold abstractScaling at found
  split at found
  next leftUnit rightUnit leftFound rightFound =>
    cases found
    exact ⟨leftUnit, rightUnit, leftFound, rightFound, rfl⟩
  next => cases found

theorem kind_not {operand result : Value} (found : operand.not = some result) :
    Kind.sign .not operand.kind = some result.kind := by
  cases operand with
  | boolean truth | booleanType =>
      cases found
      rfl
  | _ => simp [Value.not] at found

theorem kind_negate {operand result : Value} (found : operand.negate = some result) :
    Kind.sign .minus operand.kind = some result.kind := by
  cases operand with
  | quantity q | quantityType unit | unitConstructor unit =>
      cases found
      rfl
  | _ => simp [negate] at found

theorem kind_power {base result : Value} {exponent : Float}
    (found : base.power exponent = some result) :
    Kind.power exponent base.kind = some result.kind := by
  cases base with
  | quantity q | quantityType unit | unitConstructor unit =>
      cases found
      rfl
  | _ => simp [power] at found

theorem scale_number_unit (combine : Dimensions → Dimensions → Dimensions)
    (under : Dimensions → Dimensions) {n : Quantity} (plain : n.isScalar = true) (unit : Measure) :
    Kind.scale combine under (quantity n).kind (unitConstructor unit).kind =
      some (.unit (under unit.dims) (under unit.base)) := if_pos plain

theorem scale_unit_number (combine : Dimensions → Dimensions → Dimensions)
    (under : Dimensions → Dimensions) {n : Quantity} (plain : n.isScalar = true) (unit : Measure) :
    Kind.scale combine under (unitConstructor unit).kind (quantity n).kind =
      some (.unit unit.dims unit.base) := if_pos plain

theorem scalar_of_scale_number_unit (combine : Dimensions → Dimensions → Dimensions)
    (under : Dimensions → Dimensions) {n : Quantity} {unit : Measure} {kind : Kind}
    (fits : Kind.scale combine under (quantity n).kind (unitConstructor unit).kind = some kind) :
    n.isScalar = true := (Option.ite_none_right_eq_some.mp fits).1

theorem scalar_of_scale_unit_number (combine : Dimensions → Dimensions → Dimensions)
    (under : Dimensions → Dimensions) {n : Quantity} {unit : Measure} {kind : Kind}
    (fits : Kind.scale combine under (unitConstructor unit).kind (quantity n).kind = some kind) :
    n.isScalar = true := (Option.ite_none_right_eq_some.mp fits).1

theorem scale_givenUnits {combine : Dimensions → Dimensions → Dimensions}
    {under : Dimensions → Dimensions} {left right : Value} {leftUnit rightUnit : Measure}
    (leftFound : left.givenUnit? = some leftUnit) (rightFound : right.givenUnit? = some rightUnit) :
    Kind.scale combine under left.kind right.kind =
      some (.number (combine leftUnit.dims rightUnit.dims) (combine leftUnit.base rightUnit.base)) := by
  rw [kind_of_givenUnit leftFound, kind_of_givenUnit rightFound]
  rfl

theorem kind_times {left right result : Value} (found : left.times right = some result) :
    Kind.binary .times left.kind right.kind = some result.kind := by
  unfold times at found
  split at found
  next =>
    cases found
    rfl
  next n unit =>
    split at found
    next plain =>
      cases found
      exact scale_number_unit .times id plain unit
    next => cases found
  next unit n =>
    split at found
    next plain =>
      cases found
      exact scale_unit_number .times id plain unit
    next => cases found
  next =>
    cases found
    rfl
  next =>
    obtain ⟨leftUnit, rightUnit, leftFound, rightFound, rfl⟩ := abstractScaling_eq_some found
    exact scale_givenUnits leftFound rightFound

theorem kind_divide {left right result : Value} (found : left.divide right = some result) :
    Kind.binary .divide left.kind right.kind = some result.kind := by
  unfold divide at found
  split at found
  next =>
    cases found
    rfl
  next n unit =>
    split at found
    next plain =>
      cases found
      exact scale_number_unit .divide (·.power (-1)) plain unit
    next => cases found
  next unit n =>
    split at found
    next plain =>
      cases found
      exact scale_unit_number .divide (·.power (-1)) plain unit
    next => cases found
  next =>
    cases found
    rfl
  next =>
    obtain ⟨leftUnit, rightUnit, leftFound, rightFound, rfl⟩ := abstractScaling_eq_some found
    exact scale_givenUnits leftFound rightFound

theorem kind_additive {op : Quantity → Quantity → Option Quantity}
    (keepsUnit : ∀ {x y z}, op x y = some z → x.sameDims y = true ∧ z.unit = x.unit)
    {left right result : Value} (found : additive op left right = some result) :
    Kind.add left.kind right.kind = some result.kind := by
  unfold additive at found
  split at found
  next x y =>
    obtain ⟨z, sum, rfl⟩ := Option.map_eq_some_iff.mp found
    obtain ⟨sameDims, unit⟩ := keepsUnit sum
    change (if x.sameDims y = true then _ else none) = _
    rw [if_pos sameDims]
    simp only [kind, unit]
  next =>
    split at found
    next leftUnit rightUnit leftFound rightFound =>
      split at found
      next sameDims =>
        cases found
        rw [kind_of_givenUnit leftFound, kind_of_givenUnit rightFound]
        exact if_pos sameDims
      next => cases found
    next => cases found

end Value

theorem Quantity.additive_eq_some {op : Float → Float → Float} {left right result : Quantity}
    (found : Quantity.additive op left right = some result) :
    left.sameDims right = true ∧ result.unit = left.unit := by
  unfold Quantity.additive at found
  split at found
  next sameDims =>
    cases found
    exact ⟨sameDims, rfl⟩
  next => cases found

namespace Value

theorem kind_compare {op : BinaryOp} {left right result : Value}
    (found : Value.compare op left right = some result) :
    Kind.compare op left.kind right.kind = some result.kind := by
  unfold Value.compare at found
  split at found
  next x y =>
    simp only [Option.bind_eq_bind, Option.bind_eq_some_iff, Option.pure_def, Option.some.injEq,
      Quantity.relates] at found
    obtain ⟨relation, -, truth, related, rfl⟩ := found
    split at related
    next sameDims => exact if_pos sameDims
    next => cases related
  next x y =>
    cases op <;> cases found <;> rfl
  next =>
    split at found
    next equality =>
      cases found
      exact if_pos equality
    next => cases found
  next =>
    split at found
    next equality =>
      cases found
      exact if_pos equality
    next => cases found
  next =>
    split at found
    next equality =>
      cases found
      exact if_pos equality
    next => cases found
  next =>
    split at found
    next leftUnit rightUnit leftFound rightFound =>
      split at found
      next fits =>
        cases found
        rw [kind_of_givenUnit leftFound, kind_of_givenUnit rightFound]
        exact if_pos (Bool.and_eq_true_iff.mp fits).1
      next => cases found
    next => cases found

theorem kind_binary {op : BinaryOp} {left right result : Value}
    (found : Value.binary op left right = some result) :
    Kind.binary op left.kind right.kind = some result.kind := by
  cases op with
  | times => exact kind_times found
  | divide => exact kind_divide found
  | plus | minus | modulo => exact kind_additive Quantity.additive_eq_some found
  | _ => exact kind_compare found

theorem kind_logical {op : LogicalOp} {left right result : Value} (leftBoolean : left.kind = .boolean)
    (rightBoolean : right.kind = .boolean) (found : Value.logical op left right = some result) :
    Kind.logical left.kind right.kind = some result.kind := by
  have truth (connective : Bool → Bool → Bool) (found : connect connective left right = some result) :
      result.kind = .boolean := by
    unfold connect at found
    split at found
    next =>
      cases found
      rfl
    next =>
      split at found
      next =>
        cases found
        rfl
      next => cases found
  rw [leftBoolean, rightBoolean]
  cases op with
  | and => rw [truth Bool.and found]; rfl
  | or => rw [truth Bool.or found]; rfl

theorem kind_ascribe {operand unit result : Value} (found : operand.ascribe unit = some result) :
    Kind.ascribe operand.kind unit.kind = some result.kind := by
  unfold ascribe at found
  split at found
  next q target =>
    obtain ⟨given, ascribed, rfl⟩ := Option.map_eq_some_iff.mp found
    unfold Quantity.ascribe at ascribed
    split at ascribed
    next plain =>
      cases ascribed
      exact if_pos plain
    next => cases ascribed
  next type target =>
    split at found
    next plain =>
      cases found
      exact if_pos plain
    next => cases found
  next => cases found

theorem kind_convert {operand unit result : Value} (found : operand.convert unit = some result) :
    Kind.convert operand.kind unit.kind = some result.kind := by
  unfold convert at found
  split at found
  next q target =>
    obtain ⟨given, converted, rfl⟩ := Option.map_eq_some_iff.mp found
    unfold Quantity.convert Quantity.ascribe at converted
    split at converted
    next sameBase =>
      cases converted
      exact if_pos (Bool.or_eq_true_iff.mpr (.inl sameBase))
    next =>
      split at converted
      next plain =>
        cases converted
        exact if_pos (Bool.or_eq_true_iff.mpr (.inr plain))
      next => cases converted
  next type target =>
    split at found
    next fits =>
      cases found
      exact if_pos fits
    next => cases found
  next => cases found

theorem times_known {left right : Value} {kind : Kind} (leftKnown : left.isKnown = true)
    (rightKnown : right.isKnown = true)
    (fits : Kind.binary .times left.kind right.kind = some kind) :
    ∃ result, left.times right = some result ∧ result.isKnown = true := by
  cases left with
  | quantity n =>
      cases right with
      | quantity other => exact ⟨_, rfl, rfl⟩
      | unitConstructor unit =>
          have plain : n.isScalar = true := scalar_of_scale_number_unit .times id fits
          exact ⟨_, if_pos plain, rfl⟩
      | boolean truth | booleanConstructor => cases fits
      | _ => cases rightKnown
  | unitConstructor unit =>
      cases right with
      | quantity n =>
          have plain : n.isScalar = true := scalar_of_scale_unit_number .times id fits
          exact ⟨_, if_pos plain, rfl⟩
      | unitConstructor other => exact ⟨_, rfl, rfl⟩
      | boolean truth | booleanConstructor => cases fits
      | _ => cases rightKnown
  | boolean truth | booleanConstructor => cases fits
  | _ => cases leftKnown

theorem divide_known {left right : Value} {kind : Kind} (leftKnown : left.isKnown = true)
    (rightKnown : right.isKnown = true)
    (fits : Kind.binary .divide left.kind right.kind = some kind) :
    ∃ result, left.divide right = some result ∧ result.isKnown = true := by
  cases left with
  | quantity n =>
      cases right with
      | quantity other => exact ⟨_, rfl, rfl⟩
      | unitConstructor unit =>
          have plain : n.isScalar = true := scalar_of_scale_number_unit .divide (·.power (-1)) fits
          exact ⟨_, if_pos plain, rfl⟩
      | boolean truth | booleanConstructor => cases fits
      | _ => cases rightKnown
  | unitConstructor unit =>
      cases right with
      | quantity n =>
          have plain : n.isScalar = true := scalar_of_scale_unit_number .divide (·.power (-1)) fits
          exact ⟨_, if_pos plain, rfl⟩
      | unitConstructor other => exact ⟨_, rfl, rfl⟩
      | boolean truth | booleanConstructor => cases fits
      | _ => cases rightKnown
  | boolean truth | booleanConstructor => cases fits
  | _ => cases leftKnown

theorem additive_known {op : Float → Float → Float} {left right : Value} {kind : Kind}
    (leftKnown : left.isKnown = true) (rightKnown : right.isKnown = true)
    (fits : Kind.add left.kind right.kind = some kind) :
    ∃ result, additive (Quantity.additive op) left right = some result ∧ result.isKnown = true := by
  cases left with
  | quantity x =>
      cases right with
      | quantity y =>
          have sameDims : x.sameDims y = true := (Option.ite_none_right_eq_some.mp fits).1
          have sum : Quantity.additive op x y = some ⟨op x.magnitude y.magnitude, x.unit⟩ :=
            if_pos sameDims
          exact ⟨.quantity _, congrArg (Option.map quantity) sum, rfl⟩
      | boolean truth | booleanConstructor | unitConstructor unit => cases fits
      | _ => cases rightKnown
  | boolean truth | booleanConstructor | unitConstructor unit => cases fits
  | _ => cases leftKnown

theorem compare_known {op : BinaryOp} {left right : Value} {kind : Kind}
    (comparison : op.isComparison = true) (leftKnown : left.isKnown = true)
    (rightKnown : right.isKnown = true) (fits : Kind.compare op left.kind right.kind = some kind) :
    ∃ result, Value.compare op left right = some result ∧ result.isKnown = true := by
  cases left with
  | quantity x =>
      cases right with
      | quantity y =>
          have sameDims : x.sameDims y = true := (Option.ite_none_right_eq_some.mp fits).1
          obtain ⟨relation, found⟩ := Option.isSome_iff_exists.mp comparison
          have related : x.relates relation y = some (relation x.magnitude y.magnitude) :=
            if_pos sameDims
          refine ⟨.boolean (relation x.magnitude y.magnitude), ?_, rfl⟩
          simp only [Value.compare, found, Option.bind_eq_bind, Option.bind_some, related]
          rfl
      | boolean truth | booleanConstructor | unitConstructor unit => cases fits
      | _ => cases rightKnown
  | boolean x =>
      cases right with
      | boolean y =>
          have equality : op = .equal ∨ op = .notEqual := (Option.ite_none_right_eq_some.mp fits).1
          rcases equality with rfl | rfl <;> exact ⟨_, rfl, rfl⟩
      | quantity q | booleanConstructor | unitConstructor unit => cases fits
      | _ => cases rightKnown
  | booleanConstructor | unitConstructor unit => cases fits
  | _ => cases leftKnown

/-- Known operands of fitting kinds always have a result, which is known. -/
theorem binary_known {op : BinaryOp} {left right : Value} {kind : Kind}
    (leftKnown : left.isKnown = true) (rightKnown : right.isKnown = true)
    (fits : Kind.binary op left.kind right.kind = some kind) :
    ∃ result, Value.binary op left right = some result ∧ result.isKnown = true := by
  cases op with
  | times => exact times_known leftKnown rightKnown fits
  | divide => exact divide_known leftKnown rightKnown fits
  | plus | minus | modulo => exact additive_known leftKnown rightKnown fits
  | _ => exact compare_known rfl leftKnown rightKnown fits

theorem binary_hole_left (op : BinaryOp) (name : String) (type right : Value) :
    Value.binary op (.hole name type) right = none := by
  cases op <;> cases right <;> rfl

theorem binary_hole_right (op : BinaryOp) (left : Value) (name : String) (type : Value) :
    Value.binary op left (.hole name type) = none := by
  cases op <;> cases left <;> rfl

end Value

end Quantities
