import Quantities.Proofs.Exact.Expression
import Quantities.Proofs.Foretold.Operations

/-!
Expressions whose names have foretold values. What the checker accepts has a value, and the type that
was inferred foretells it. To check an expression with the values for types comes to its value, so
it is enough to follow the rules of the checker from types to values.
-/

namespace Quantities

open Value

/-- Every name with a type has a value, and its type, out of its holes, foretells it. -/
def Foretold (types values : String → Option Value) : Prop :=
  ∀ name type, types name = some type → ∃ v, values name = some v ∧ type.unwrap.Foretells v

theorem defined_foretold {location : Location} {found given : Option Value} {type : Value}
    (foretold : ∀ result, found = some result → ∃ r, given = some r ∧ result.Foretells r)
    (accepted : defined location found = .ok type) :
    ∃ r, defined location given = .ok r ∧ type.Foretells r := by
  obtain ⟨r, gave, foretells⟩ := foretold type (defined_eq_ok.mp accepted)
  exact ⟨r, defined_eq_ok.mpr gave, foretells⟩

namespace Typing

variable {location leftLocation rightLocation : Location} {left right x y type : Value}

theorem isNumberOrUnit_eq (foretells : left.Foretells x) :
    isNumberOrUnit left = isNumberOrUnit x := by
  rw [isNumberOrUnit, isNumberOrUnit, isNumber, isNumber, foretells.numberUnit?_eq,
    foretells.unit?_eq]

theorem sign_foretold {op : SignOp} (foretells : left.Foretells x)
    (accepted : sign location leftLocation op left = .ok type) :
    ∃ r, sign location leftLocation op x = .ok r ∧ type.Foretells r := by
  cases op with
  | not =>
      simp only [sign, ← foretells.isBoolean_eq] at accepted ⊢
      split at accepted
      next boolean =>
        rw [if_pos boolean]
        exact defined_foretold (fun _ => not_foretold foretells) accepted
      next => cases accepted
  | plus =>
      simp only [sign, ← isNumberOrUnit_eq foretells] at accepted ⊢
      split at accepted
      next fits =>
        cases accepted
        exact ⟨x, if_pos fits, foretells⟩
      next => cases accepted
  | minus =>
      simp only [sign, ← isNumberOrUnit_eq foretells] at accepted ⊢
      split at accepted
      next fits =>
        rw [if_pos fits]
        exact defined_foretold (fun _ => negate_foretold foretells) accepted
      next => cases accepted

theorem power_foretold {n : Float} (foretells : left.Foretells x)
    (accepted : power location leftLocation left n = .ok type) :
    ∃ r, power location leftLocation x n = .ok r ∧ type.Foretells r := by
  simp only [power, ← isNumberOrUnit_eq foretells] at accepted ⊢
  split at accepted
  next fits =>
    rw [if_pos fits]
    exact defined_foretold (fun _ => Value.power_foretold foretells) accepted
  next => cases accepted

/-- Whether operands are refused depends on their units alone. -/
theorem checkOperands_foretold {op : BinaryOp} (leftForetells : left.Foretells x)
    (rightForetells : right.Foretells y)
    (passed : checkOperands location leftLocation rightLocation op left right = .ok ()) :
    checkOperands location leftLocation rightLocation op x y = .ok () := by
  unfold checkOperands at passed ⊢
  rw [leftForetells.numberUnit?_eq, leftForetells.unit?_eq, rightForetells.numberUnit?_eq,
    rightForetells.unit?_eq] at passed
  split at passed
  next => exact if_neg (not_refused passed)
  next => exact if_neg (not_refused passed)
  next => exact if_neg (not_refused passed)
  next => rfl

theorem binary_foretold {op : BinaryOp} (leftForetells : left.Foretells x)
    (rightForetells : right.Foretells y)
    (accepted : binary location leftLocation rightLocation op left right = .ok type) :
    ∃ r, binary location leftLocation rightLocation op x y = .ok r ∧ type.Foretells r := by
  obtain ⟨_, passed, accepted⟩ := Result.bind_eq_ok.mp accepted
  split at accepted
  next result found =>
    cases accepted
    obtain ⟨r, gave, foretells⟩ := Value.binary_foretold leftForetells rightForetells found
    refine ⟨r, ?_, foretells⟩
    rw [binary, checkOperands_foretold leftForetells rightForetells passed, gave]
    rfl
  next => cases accepted

theorem logical_foretold {op : LogicalOp} (leftForetells : left.Foretells x)
    (rightForetells : right.Foretells y)
    (accepted : logical location leftLocation rightLocation op left right = .ok type) :
    ∃ r, logical location leftLocation rightLocation op x y = .ok r ∧ type.Foretells r := by
  simp only [logical, ← leftForetells.isBoolean_eq, ← rightForetells.isBoolean_eq] at accepted ⊢
  split at accepted
  next => cases accepted
  next leftBoolean =>
    split at accepted
    next => cases accepted
    next rightBoolean =>
      rw [if_neg leftBoolean, if_neg rightBoolean]
      exact defined_foretold (fun _ => Value.logical_foretold leftForetells rightForetells) accepted

theorem ascription_foretold (leftForetells : left.Foretells x) (rightForetells : right.Foretells y)
    (accepted : ascription location leftLocation rightLocation left right = .ok type) :
    ∃ r, ascription location leftLocation rightLocation x y = .ok r ∧ type.Foretells r := by
  simp only [ascription, leftForetells.numberUnit?_eq, rightForetells.unit?_eq] at accepted ⊢
  split at accepted
  next => cases accepted
  next plain =>
    split at accepted
    next => cases accepted
    next unit =>
      rw [if_neg plain, if_neg unit]
      exact defined_foretold (fun _ => ascribe_foretold leftForetells rightForetells) accepted

theorem conversion_foretold (leftForetells : left.Foretells x) (rightForetells : right.Foretells y)
    (accepted : conversion location leftLocation rightLocation left right = .ok type) :
    ∃ r, conversion location leftLocation rightLocation x y = .ok r ∧ type.Foretells r := by
  simp only [conversion, leftForetells.numberUnit?_eq, rightForetells.unit?_eq] at accepted ⊢
  split at accepted
  next => cases accepted
  next => cases accepted
  next =>
    split at accepted
    next => cases accepted
    next fits =>
      rw [if_neg fits]
      exact defined_foretold (fun _ => convert_foretold leftForetells rightForetells) accepted

end Typing

namespace Expr

variable {types values : String → Option Value}

/-- What is accepted of types is accepted of values that they foretell. -/
theorem infer_foretold (foretold : Foretold types values)
    {e : Expr} {type : Value} (inferred : e.infer types = .ok type) :
    ∃ v, e.infer values = .ok v ∧ type.Foretells v := by
  induction e generalizing type with
  | number location x | bool location truth =>
      cases inferred
      exact ⟨_, rfl, .of_known rfl⟩
  | typeWord location word =>
      cases word <;> cases inferred <;> exact ⟨_, rfl, .of_known rfl⟩
  | name location text =>
      rw [infer] at inferred ⊢
      split at inferred
      next declared bound =>
        cases inferred
        obtain ⟨v, found, foretells⟩ := foretold text declared bound
        refine ⟨v, ?_, foretells⟩
        rw [found]
        exact congrArg Except.ok foretells.bare
      next => cases inferred
  | paren location inner ih => exact ih inferred
  | sign location op operand ih =>
      obtain ⟨arg, argInferred, accepted⟩ := Result.bind_eq_ok.mp inferred
      obtain ⟨x, argFollows, argForetells⟩ := ih argInferred
      rw [infer, argFollows]
      exact Typing.sign_foretold argForetells accepted
  | power location base exponent ih =>
      obtain ⟨arg, argInferred, accepted⟩ := Result.bind_eq_ok.mp inferred
      obtain ⟨x, argFollows, argForetells⟩ := ih argInferred
      rw [infer, argFollows]
      exact Typing.power_foretold argForetells accepted
  | binary location op left right leftIh rightIh =>
      obtain ⟨lhs, leftInferred, inferred⟩ := Result.bind_eq_ok.mp inferred
      obtain ⟨rhs, rightInferred, accepted⟩ := Result.bind_eq_ok.mp inferred
      obtain ⟨x, leftFollows, leftForetells⟩ := leftIh leftInferred
      obtain ⟨y, rightFollows, rightForetells⟩ := rightIh rightInferred
      rw [infer, leftFollows, rightFollows]
      exact Typing.binary_foretold leftForetells rightForetells accepted
  | logical location op left right leftIh rightIh =>
      obtain ⟨lhs, leftInferred, inferred⟩ := Result.bind_eq_ok.mp inferred
      obtain ⟨rhs, rightInferred, accepted⟩ := Result.bind_eq_ok.mp inferred
      obtain ⟨x, leftFollows, leftForetells⟩ := leftIh leftInferred
      obtain ⟨y, rightFollows, rightForetells⟩ := rightIh rightInferred
      rw [infer, leftFollows, rightFollows]
      exact Typing.logical_foretold leftForetells rightForetells accepted
  | ascription location operand unit operandIh unitIh =>
      obtain ⟨lhs, leftInferred, inferred⟩ := Result.bind_eq_ok.mp inferred
      obtain ⟨rhs, rightInferred, accepted⟩ := Result.bind_eq_ok.mp inferred
      obtain ⟨x, leftFollows, leftForetells⟩ := operandIh leftInferred
      obtain ⟨y, rightFollows, rightForetells⟩ := unitIh rightInferred
      rw [infer, leftFollows, rightFollows]
      exact Typing.ascription_foretold leftForetells rightForetells accepted
  | conversion location operand unit operandIh unitIh =>
      obtain ⟨lhs, leftInferred, inferred⟩ := Result.bind_eq_ok.mp inferred
      obtain ⟨rhs, rightInferred, accepted⟩ := Result.bind_eq_ok.mp inferred
      obtain ⟨x, leftFollows, leftForetells⟩ := operandIh leftInferred
      obtain ⟨y, rightFollows, rightForetells⟩ := unitIh rightInferred
      rw [infer, leftFollows, rightFollows]
      exact Typing.conversion_foretold leftForetells rightForetells accepted

/-- An expression with a type has a value, which is the type itself if that is known, and is
otherwise of that type. -/
theorem eval_of_infer (foretold : Foretold types values) {e : Expr} {type : Value}
    (inferred : e.infer types = .ok type) :
    ∃ v, e.eval values = .ok v ∧ type.Foretells v := by
  -- The values of names without a type are not looked at, and they may be anything.
  let known (name : String) : Option Value := (types name).bind fun _ => values name
  have follows : Foretold types known := by
    intro name declared bound
    obtain ⟨v, found, foretells⟩ := foretold name declared bound
    refine ⟨v, ?_, foretells⟩
    simp only [known, bound, Option.bind_some, found]
  have exact : Exact known values := by
    intro name v found _
    obtain ⟨declared, bound, found⟩ := Option.bind_eq_some_iff.mp found
    obtain ⟨w, same, foretells⟩ := foretold name declared bound
    rw [found] at same
    cases same
    rw [found, foretells.bare]
  obtain ⟨v, accepted, foretells⟩ := infer_foretold follows inferred
  exact ⟨v, (infer_exact exact accepted).2 foretells.known, foretells⟩

/-- A truth and a length that are not known when they are checked are connected and compared. -/
theorem late_or_near_evaluates :
    let metre := Measure.fresh "m"
    let types (name : String) : Option Value :=
      if name = "late" then some (.hole "late" .booleanType)
      else if name = "way" then some (.hole "way" (.quantityType metre)) else none
    let values (name : String) : Option Value :=
      if name = "late" then some (.boolean false) else some (.quantity ⟨20, metre⟩)
    let near : Expr := .logical .nowhere .or (.name .nowhere "late")
      (.binary .nowhere .less (.name .nowhere "way") (.name .nowhere "way"))
    Foretold types values ∧ near.infer types = .ok .booleanType ∧
      ∃ v, near.eval values = .ok v ∧ Foretells .booleanType v := by
  intro metre types values near
  have foretold : Foretold types values := by
    intro name type bound
    by_cases late : name = "late"
    · rw [show types name = some (.hole "late" .booleanType) from if_pos late] at bound
      cases bound
      exact ⟨_, if_pos late, .truth false⟩
    · by_cases way : name = "way"
      · rw [show types name = some (.hole "way" (.quantityType metre)) from
          (if_neg late).trans (if_pos way)] at bound
        cases bound
        exact ⟨_, if_neg late, .magnitude ⟨20, metre⟩⟩
      · rw [show types name = none from (if_neg late).trans (if_neg way)] at bound
        cases bound
  have sameDims : (metre.dims == metre.dims) = true := by decide +kernel
  have inferred : near.infer types = .ok .booleanType := by
    simp [near, types, infer, Typing.binary, Typing.checkOperands, Typing.logical, Value.binary,
      Value.compare, Value.logical, connect, Value.unwrap, numberUnit?, givenUnit?, isBoolean,
      BinaryOp.isComparison, BinaryOp.relation?, bne, sameDims, defined, bind, Except.bind]
  exact ⟨foretold, inferred, eval_of_infer foretold inferred⟩

end Expr

end Quantities
