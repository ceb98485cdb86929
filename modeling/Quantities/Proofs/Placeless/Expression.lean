import Quantities.Evaluation
import Quantities.Proofs.Result
import Quantities.Proofs.Tree.Bare
import Quantities.Typing

/-!
Locations only tell where a fault is. Two expressions that differ in nothing else have the same type
and the same value, or neither has one.
-/

namespace Quantities

namespace Result

variable {α β : Type}

theorem toOption_eq_some {result : Except Fault α} {v : α} :
    result.toOption = some v ↔ result = .ok v := by
  cases result <;> simp [Except.toOption]

theorem eq_ok_of_toOption {result other : Except Fault α} (same : result.toOption = other.toOption)
    {v : α} (succeeded : result = .ok v) : other = .ok v := by
  rw [succeeded] at same
  exact toOption_eq_some.mp same.symm

@[simp] theorem toOption_ok (v : α) : (.ok v : Except Fault α).toOption = some v := rfl

@[simp] theorem toOption_refuse (location : Location) (problem : Problem Value) :
    (refuse location problem : Except Fault α).toOption = none := rfl

@[simp] theorem toOption_defined (location : Location) (result? : Option Value) :
    (defined location result?).toOption = result? := by
  cases result? <;> rfl

theorem toOption_bind {first other : Except Fault α} {next otherNext : α → Except Fault β}
    (same : first.toOption = other.toOption)
    (sameNext : ∀ v, (next v).toOption = (otherNext v).toOption) :
    (first >>= next).toOption = (other >>= otherNext).toOption := by
  cases first with
  | error fault =>
      cases other with
      | error other => rfl
      | ok v => cases same
  | ok v =>
      cases other with
      | error other => cases same
      | ok w =>
          cases same
          exact sameNext v

theorem toOption_map (result : Except Fault α) (change : α → β) :
    (result.map change).toOption = result.toOption.map change := by
  cases result <;> rfl

end Result

open Result

section

variable (location left right place placeLeft placeRight : Location)

namespace Typing

theorem sign_placeless (op : SignOp) (operand : Value) :
    (sign location left op operand).toOption = (sign place placeLeft op operand).toOption := by
  unfold sign
  cases op <;> simp only <;> split <;> simp

theorem power_placeless (base : Value) (exponent : Float) :
    (power location left base exponent).toOption =
      (power place placeLeft base exponent).toOption := by
  unfold power
  split <;> simp

theorem checkOperands_placeless (op : BinaryOp) (x y : Value) :
    (checkOperands location left right op x y).toOption =
      (checkOperands place placeLeft placeRight op x y).toOption := by
  unfold checkOperands
  split <;> (try split) <;> simp

theorem binary_placeless (op : BinaryOp) (x y : Value) :
    (binary location left right op x y).toOption =
      (binary place placeLeft placeRight op x y).toOption := by
  unfold binary
  apply toOption_bind (checkOperands_placeless location left right place placeLeft placeRight op x y)
  intro checked
  cases Value.binary op x y <;> rfl

theorem logical_placeless (op : LogicalOp) (x y : Value) :
    (logical location left right op x y).toOption =
      (logical place placeLeft placeRight op x y).toOption := by
  unfold logical
  split <;> (try split) <;> simp

theorem ascription_placeless (operand unit : Value) :
    (ascription location left right operand unit).toOption =
      (ascription place placeLeft placeRight operand unit).toOption := by
  unfold ascription
  split <;> (try split) <;> simp

theorem conversion_placeless (operand unit : Value) :
    (conversion location left right operand unit).toOption =
      (conversion place placeLeft placeRight operand unit).toOption := by
  unfold conversion
  split <;> (try split) <;> simp

end Typing

namespace Evaluation

theorem sign_placeless (op : SignOp) (operand : Value) :
    (sign location left op operand).toOption = (sign place placeLeft op operand).toOption := by
  unfold sign
  cases op <;> simp only <;> split <;> simp

theorem power_placeless (base : Value) (exponent : Float) :
    (power location left base exponent).toOption =
      (power place placeLeft base exponent).toOption := by
  unfold power
  split <;> simp

theorem checkOperands_placeless (op : BinaryOp) (x y : Value) :
    (checkOperands location left right op x y).toOption =
      (checkOperands place placeLeft placeRight op x y).toOption := by
  unfold checkOperands
  split <;> (try split) <;> simp

theorem binary_placeless (op : BinaryOp) (x y : Value) :
    (binary location left right op x y).toOption =
      (binary place placeLeft placeRight op x y).toOption := by
  unfold binary
  apply toOption_bind (checkOperands_placeless location left right place placeLeft placeRight op x y)
  intro checked
  cases Value.binary op x y <;> rfl

theorem truth_placeless (v : Value) : (truth location v).toOption = (truth place v).toOption := by
  cases v <;> rfl

theorem ascription_placeless (operand unit : Value) :
    (ascription location left right operand unit).toOption =
      (ascription place placeLeft placeRight operand unit).toOption := by
  unfold ascription
  split <;> (try split) <;> (try split) <;> simp

theorem conversion_placeless (operand unit : Value) :
    (conversion location left right operand unit).toOption =
      (conversion place placeLeft placeRight operand unit).toOption := by
  unfold conversion
  split <;> (try split) <;> simp

end Evaluation

end

namespace Expr

theorem infer_bare (types : String → Option Value) (e : Expr) :
    (e.bare.infer types).toOption = (e.infer types).toOption := by
  induction e with
  | number | bool => rfl
  | typeWord location word => cases word <;> rfl
  | name location text =>
      simp only [bare, infer]
      cases types text <;> rfl
  | paren location inner ih => exact ih
  | sign location op operand ih =>
      exact toOption_bind ih fun arg => Typing.sign_placeless _ _ _ _ op arg
  | power location base exponent ih =>
      exact toOption_bind ih fun arg => Typing.power_placeless _ _ _ _ arg exponent
  | binary location op left right leftIh rightIh =>
      exact toOption_bind leftIh fun x => toOption_bind rightIh fun y =>
        Typing.binary_placeless _ _ _ _ _ _ op x y
  | logical location op left right leftIh rightIh =>
      exact toOption_bind leftIh fun x => toOption_bind rightIh fun y =>
        Typing.logical_placeless _ _ _ _ _ _ op x y
  | ascription location operand unit operandIh unitIh =>
      exact toOption_bind operandIh fun x => toOption_bind unitIh fun y =>
        Typing.ascription_placeless _ _ _ _ _ _ x y
  | conversion location operand unit operandIh unitIh =>
      exact toOption_bind operandIh fun x => toOption_bind unitIh fun y =>
        Typing.conversion_placeless _ _ _ _ _ _ x y

theorem eval_bare (values : String → Option Value) (e : Expr) :
    (e.bare.eval values).toOption = (e.eval values).toOption := by
  induction e with
  | number | bool => rfl
  | typeWord location word => cases word <;> rfl
  | name location text =>
      simp only [bare, eval]
      cases values text <;> rfl
  | paren location inner ih => exact ih
  | sign location op operand ih =>
      exact toOption_bind ih fun arg => Evaluation.sign_placeless _ _ _ _ op arg
  | power location base exponent ih =>
      exact toOption_bind ih fun arg => Evaluation.power_placeless _ _ _ _ arg exponent
  | binary location op left right leftIh rightIh =>
      exact toOption_bind leftIh fun x => toOption_bind rightIh fun y =>
        Evaluation.binary_placeless _ _ _ _ _ _ op x y
  | logical location op left right leftIh rightIh =>
      refine toOption_bind leftIh fun x => toOption_bind (Evaluation.truth_placeless _ _ x) ?_
      intro known
      split
      next => rfl
      next =>
        exact toOption_bind rightIh fun y =>
          toOption_bind (Evaluation.truth_placeless _ _ y) fun truth => rfl
  | ascription location operand unit operandIh unitIh =>
      exact toOption_bind operandIh fun x => toOption_bind unitIh fun y =>
        Evaluation.ascription_placeless _ _ _ _ _ _ x y
  | conversion location operand unit operandIh unitIh =>
      exact toOption_bind operandIh fun x => toOption_bind unitIh fun y =>
        Evaluation.conversion_placeless _ _ _ _ _ _ x y

variable {e other : Expr}

theorem infer_eq_of_bare (same : e.bare = other.bare) (types : String → Option Value) :
    (e.infer types).toOption = (other.infer types).toOption := by
  rw [← infer_bare, same, infer_bare]

theorem infer_of_bare {types : String → Option Value} {type : Value} (bare : e.bare = other)
    (inferred : other.infer types = .ok type) : e.infer types = .ok type :=
  eq_ok_of_toOption (by rw [← bare, infer_bare]) inferred

theorem eval_of_bare {values : String → Option Value} {v : Value} (bare : e.bare = other)
    (evaluated : other.eval values = .ok v) : e.eval values = .ok v :=
  eq_ok_of_toOption (by rw [← bare, eval_bare]) evaluated

theorem eval_eq_of_bare (same : e.bare = other.bare) (values : String → Option Value) :
    (e.eval values).toOption = (other.eval values).toOption := by
  rw [← eval_bare, same, eval_bare]

end Expr

end Quantities
