import Quantities.Evaluation
import Quantities.Proofs.Founded.Law
import Quantities.Proofs.Grounded.Exponents

/-!
Values of expressions in which no exponent is rounded. If the values of the names follow a law, then so
does the value of the expression.
-/

namespace Quantities

namespace Evaluation

variable {location leftLocation rightLocation : Location} {left right operand v : Value}

theorem kind_sign {op : SignOp} (ran : sign location leftLocation op operand = .ok v) :
    Kind.sign op operand.kind = some v.kind := by
  unfold sign at ran
  cases op with
  | not =>
      simp only at ran
      split at ran
      next =>
        cases ran
        rfl
      next => cases ran
  | plus =>
      obtain ⟨fits, ⟨⟩⟩ : isNumberOrUnit operand = true ∧ Except.ok operand = Except.ok v := by
        simp only at ran
        split at ran
        next fits => exact ⟨fits, ran⟩
        next => cases ran
      cases operand with
      | quantity q | unitConstructor unit => rfl
      | _ => cases fits
  | minus =>
      simp only at ran
      split at ran
      next => exact Value.kind_negate (defined_eq_ok.mp ran)
      next => cases ran

theorem kind_power {n : Float} (ran : power location leftLocation operand n = .ok v) :
    Kind.power n operand.kind = some v.kind := by
  unfold power at ran
  split at ran
  next => exact Value.kind_power (defined_eq_ok.mp ran)
  next => cases ran

theorem kind_binary {op : BinaryOp}
    (ran : binary location leftLocation rightLocation op left right = .ok v) :
    Kind.binary op left.kind right.kind = some v.kind := by
  obtain ⟨-, -, ran⟩ := Result.bind_eq_ok.mp ran
  split at ran
  next found =>
    cases ran
    exact Value.kind_binary found
  next => cases ran

theorem kind_ascription
    (ran : ascription location leftLocation rightLocation operand right = .ok v) :
    Kind.ascribe operand.kind right.kind = some v.kind := by
  unfold ascription at ran
  split at ran
  next q =>
    split at ran
    next => cases ran
    next =>
      split at ran
      next => cases ran
      next => exact Value.kind_ascribe (defined_eq_ok.mp ran)
  next => cases ran

theorem kind_conversion
    (ran : conversion location leftLocation rightLocation operand right = .ok v) :
    Kind.convert operand.kind right.kind = some v.kind := by
  unfold conversion at ran
  split at ran
  next q target _ =>
    split at ran
    next => cases ran
    next => exact Value.kind_convert (defined_eq_ok.mp ran)
  next => cases ran
  next => cases ran

end Evaluation

namespace Expr

variable {values : String → Option Value} {law : String → String →₀ ℚ} {labels : Set String}

/-- No exponent is rounded where the operation itself is evaluated. -/
def UnroundedAt (values : String → Option Value) : Expr → Prop
  | .power _ base n => ∀ v, base.eval values = .ok v → v.kind.PowersExactly n
  | .binary _ op left right =>
    ∀ x, left.eval values = .ok x → ∀ y, right.eval values = .ok y →
      Kind.ScalesExactly op x.kind y.kind
  | _ => True

/-- No exponent is rounded when the expression is evaluated. -/
def Unrounded (values : String → Option Value) (e : Expr) : Prop :=
  ∀ part ∈ e.parts, part.UnroundedAt values

/-- The names in the expression have values that follow the law, and no exponent is rounded. -/
structure Follows (law : String → String →₀ ℚ) (labels : Set String) (values : String → Option Value)
    (e : Expr) : Prop where
  names : ∀ location text, .name location text ∈ e.parts →
    ∀ w, values text = some w → w.kind.Founded law labels
  unrounded : e.Unrounded values

theorem Follows.of_parts {e inner : Expr} (follows : e.Follows law labels values)
    (inside : ∀ part ∈ inner.parts, part ∈ e.parts) : inner.Follows law labels values :=
  ⟨fun location text member => follows.names location text (inside _ member),
    fun part member => follows.unrounded part (inside part member)⟩

/-- If the values of the names in it follow the law, then so does the value of an expression. -/
theorem eval_founded {e : Expr} {v : Value} (follows : e.Follows law labels values)
    (evaluated : e.eval values = .ok v) : v.kind.Founded law labels := by
  induction e generalizing v with
  | number location x =>
      cases evaluated
      exact Dimensions.Founded.scalar
  | bool location truth =>
      cases evaluated
      trivial
  | typeWord location word =>
      cases word with
      | boolean =>
          cases evaluated
          trivial
      | scalar =>
          cases evaluated
          exact Dimensions.Founded.scalar
  | name location text =>
      rw [eval] at evaluated
      split at evaluated
      next found =>
        cases evaluated
        exact follows.names location text (mem_parts_self _) v found
      next => cases evaluated
  | paren location inner ih =>
      exact ih (follows.of_parts fun _ => List.mem_cons_of_mem _) evaluated
  | sign location op operand ih =>
      obtain ⟨arg, operandValue, evaluated⟩ := Result.bind_eq_ok.mp evaluated
      have founded := ih (follows.of_parts fun _ => List.mem_cons_of_mem _) operandValue
      exact founded.sign (Evaluation.kind_sign evaluated)
  | power location base exponent ih =>
      have exact := follows.unrounded _ (mem_parts_self _)
      obtain ⟨arg, baseValue, evaluated⟩ := Result.bind_eq_ok.mp evaluated
      have founded := ih (follows.of_parts fun _ => List.mem_cons_of_mem _) baseValue
      exact founded.power (exact arg baseValue) (Evaluation.kind_power evaluated)
  | binary location op left right leftIh rightIh =>
      have exact := follows.unrounded _ (mem_parts_self _)
      obtain ⟨x, leftValue, evaluated⟩ := Result.bind_eq_ok.mp evaluated
      obtain ⟨y, rightValue, evaluated⟩ := Result.bind_eq_ok.mp evaluated
      have founded := leftIh (follows.of_parts fun _ inside => by simp [parts, inside]) leftValue
      have other := rightIh (follows.of_parts fun _ inside => by simp [parts, inside]) rightValue
      exact founded.binary other (exact x leftValue y rightValue) (Evaluation.kind_binary evaluated)
  | logical location op left right leftIh rightIh =>
      obtain ⟨x, -, evaluated⟩ := Result.bind_eq_ok.mp evaluated
      obtain ⟨known, -, evaluated⟩ := Result.bind_eq_ok.mp evaluated
      split at evaluated
      next =>
        cases evaluated
        trivial
      next =>
        obtain ⟨y, -, evaluated⟩ := Result.bind_eq_ok.mp evaluated
        obtain ⟨truth, -, evaluated⟩ := Result.bind_eq_ok.mp evaluated
        cases evaluated
        trivial
  | ascription location operand unit operandIh unitIh =>
      obtain ⟨x, -, evaluated⟩ := Result.bind_eq_ok.mp evaluated
      obtain ⟨y, unitValue, evaluated⟩ := Result.bind_eq_ok.mp evaluated
      have founded := unitIh (follows.of_parts fun _ inside => by simp [parts, inside]) unitValue
      exact founded.instance? (Kind.instance_of_ascribe (Evaluation.kind_ascription evaluated))
  | conversion location operand unit operandIh unitIh =>
      obtain ⟨x, -, evaluated⟩ := Result.bind_eq_ok.mp evaluated
      obtain ⟨y, unitValue, evaluated⟩ := Result.bind_eq_ok.mp evaluated
      have founded := unitIh (follows.of_parts fun _ inside => by simp [parts, inside]) unitValue
      exact founded.instance? (Kind.instance_of_convert (Evaluation.kind_conversion evaluated))

end Expr

/-! Whether exponents are rounded can be computed, and it does not depend on locations. -/

namespace Kind

instance (n : Float) (kind : Kind) : Decidable (kind.PowersExactly n) :=
  match kind with
  | .number dims base | .unit dims base =>
    inferInstanceAs (Decidable (dims.PowersExactly n ∧ base.PowersExactly n))
  | .boolean | .booleanConstructor => inferInstanceAs (Decidable True)

instance (op : BinaryOp) (left right : Kind) : Decidable (ScalesExactly op left right) :=
  match left, right with
  | .number .., .number .. | .unit .., .unit .. => inferInstanceAs (Decidable ((_ → _) ∧ (_ → _)))
  | .number .., .unit .. => inferInstanceAs (Decidable (_ → _))
  | .unit .., .number .. | .number .., .boolean | .number .., .booleanConstructor | .unit .., .boolean
  | .unit .., .booleanConstructor | .boolean, _ | .booleanConstructor, _ =>
    inferInstanceAs (Decidable True)

end Kind

namespace Expr

variable {values : String → Option Value}

instance (e : Expr) : Decidable (e.UnroundedAt values) :=
  match e with
  | .power _ base n =>
    inferInstanceAs (Decidable (∀ v, base.eval values = .ok v → v.kind.PowersExactly n))
  | .binary _ op left right =>
    inferInstanceAs (Decidable (∀ x, left.eval values = .ok x → ∀ y, right.eval values = .ok y →
      Kind.ScalesExactly op x.kind y.kind))
  | .number .. | .bool .. | .typeWord .. | .name .. | .paren .. | .sign .. | .logical ..
  | .ascription .. | .conversion .. => inferInstanceAs (Decidable True)

instance (e : Expr) : Decidable (e.Unrounded values) :=
  inferInstanceAs (Decidable (∀ part ∈ e.parts, part.UnroundedAt values))

theorem forall_eval_bare (e : Expr) {holds : Value → Prop} :
    (∀ v, e.bare.eval values = .ok v → holds v) ↔ ∀ v, e.eval values = .ok v → holds v := by
  rw [Result.forall_eq_ok_iff, eval_bare, ← Result.forall_eq_ok_iff]

theorem unroundedAt_bare (e : Expr) : e.bare.UnroundedAt values ↔ e.UnroundedAt values := by
  cases e with
  | power location base exponent => exact base.forall_eval_bare
  | binary location op left right =>
      exact left.forall_eval_bare.trans (forall₂_congr fun x _ => right.forall_eval_bare)
  | _ => exact Iff.rfl

theorem unrounded_bare (e : Expr) : e.bare.Unrounded values ↔ e.Unrounded values := by
  unfold Unrounded
  rw [parts_bare, List.forall_mem_map]
  exact forall₂_congr fun part _ => part.unroundedAt_bare

end Expr

end Quantities
