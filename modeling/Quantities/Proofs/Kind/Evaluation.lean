import Quantities.Evaluation
import Quantities.Proofs.Kind.Operations
import Quantities.Proofs.Result

/-!
Evaluation against kinds. An expression with a kind evaluates to a value of that kind, or it fails
at a node that came upon a variable without a value.
-/

namespace Quantities

namespace Value

/-- What a variable holds until it is assigned. -/
def isUnset : Value → Bool
  | .hole _ .booleanType | .hole _ (.quantityType _) => true
  | _ => false

/-- Whether a value of the kind may be bound to a name while a program runs. A variable without a
value is of the kind of the type in its hole. -/
structure HasKind (v : Value) (kind : Kind) : Prop where
  complete : v.isKnown = true ∨ v.isUnset = true
  kind_eq : v.kind = kind

theorem known_hasKind {v : Value} (known : v.isKnown = true) : v.HasKind v.kind :=
  ⟨.inl known, rfl⟩

theorem hole_of_isUnset {v : Value} (unset : v.isUnset = true) :
    ∃ name type, v = .hole name type := by
  cases v with
  | hole name type => exact ⟨name, type, rfl⟩
  | _ => cases unset

end Value

namespace Expr

/-- The operands of a node whose evaluation begins. The second one is left alone when the first one
fails or decides. -/
def reached (values : String → Option Value) : Expr → List Expr
  | .paren _ inner => [inner]
  | .sign _ _ operand => [operand]
  | .power _ base _ => [base]
  | .binary _ _ left right | .ascription _ left right | .conversion _ left right =>
    match left.eval values with
    | .ok _ => [left, right]
    | .error _ => [left]
  | .logical _ op left right =>
    match left.eval values with
    | .ok (.boolean truth) => if Evaluation.decides op truth then [left] else [left, right]
    | _ => [left]
  | .number .. | .bool .. | .typeWord .. | .name .. => []

/-- The evaluation fails at a node all of whose operands have values, one of them that of a variable
without a value. -/
inductive FailsOnHole (values : String → Option Value) (fault : Fault) : Expr → Prop where
  | here {e operand : Expr} {v : Value}
      (failed : e.eval values = .error fault)
      (operands : ∀ other ∈ e.reached values, ∃ result, other.eval values = .ok result)
      (member : operand ∈ e.reached values)
      (evaluated : operand.eval values = .ok v)
      (unset : v.isUnset = true) :
      FailsOnHole values fault e
  | inside {e operand : Expr}
      (member : operand ∈ e.reached values)
      (fails : FailsOnHole values fault operand) :
      FailsOnHole values fault e

/-- The expression comes to a value of the kind, or fails for want of the value of a variable. -/
def Comes (values : String → Option Value) (kind : Kind) (e : Expr) : Prop :=
  (∃ v, e.eval values = .ok v ∧ v.HasKind kind) ∨
    ∃ fault, e.eval values = .error fault ∧ e.FailsOnHole values fault

end Expr

namespace Evaluation

/-- A node comes to a value of the kind, or fails for want of the value of an operand. -/
def NodeComes (result : Except Fault Value) (operands : List Value) (kind : Kind) : Prop :=
  (∃ v, result = .ok v ∧ v.HasKind kind) ∨
    (∃ fault, result = .error fault) ∧ ∃ operand ∈ operands, operand.isUnset = true

theorem sign_comes {location operandLocation : Location} {op : SignOp} {operand : Value}
    {operandKind kind : Kind} (hasKind : operand.HasKind operandKind)
    (fits : Kind.sign op operandKind = some kind) :
    NodeComes (sign location operandLocation op operand) [operand] kind := by
  obtain ⟨known | unset, rfl⟩ := hasKind
  · cases operand with
    | boolean truth =>
        cases op with
        | not =>
            cases fits
            exact .inl ⟨_, rfl, .inl rfl, rfl⟩
        | plus | minus => cases fits
    | quantity q =>
        cases op with
        | not => cases fits
        | plus | minus =>
            cases fits
            exact .inl ⟨_, rfl, .inl rfl, rfl⟩
    | unitConstructor unit =>
        cases op with
        | not => cases fits
        | plus | minus =>
            cases fits
            exact .inl ⟨_, rfl, .inl rfl, rfl⟩
    | booleanConstructor => cases op <;> cases fits
    | _ => cases known
  · obtain ⟨name, type, rfl⟩ := Value.hole_of_isUnset unset
    refine .inr ⟨?_, _, List.mem_singleton_self _, unset⟩
    cases op <;> exact ⟨_, rfl⟩

theorem power_comes {location baseLocation : Location} {base : Value} {exponent : Float}
    {baseKind kind : Kind} (hasKind : base.HasKind baseKind)
    (fits : Kind.power exponent baseKind = some kind) :
    NodeComes (power location baseLocation base exponent) [base] kind := by
  obtain ⟨known | unset, rfl⟩ := hasKind
  · cases base with
    | quantity q | unitConstructor unit =>
        cases fits
        exact .inl ⟨_, rfl, .inl rfl, rfl⟩
    | boolean truth | booleanConstructor => cases fits
    | _ => cases known
  · obtain ⟨name, type, rfl⟩ := Value.hole_of_isUnset unset
    exact .inr ⟨⟨_, rfl⟩, _, List.mem_singleton_self _, unset⟩

theorem checkOperands_ok {location leftLocation rightLocation : Location} {op : BinaryOp}
    {left right : Value} {kind : Kind} (fits : Kind.binary op left.kind right.kind = some kind) :
    checkOperands location leftLocation rightLocation op left right = .ok () := by
  unfold checkOperands
  split
  next x y =>
    have allowed : op.isScaling = true ∨ x.sameDims y = true := by
      cases op with
      | times | divide => exact .inl rfl
      | _ => exact .inr (Option.ite_none_right_eq_some.mp fits).1
    rcases allowed with scaling | sameDims
    · simp [scaling]
    · simp [sameDims]
  next x unit =>
    have allowed : op.isScaling = false ∨ x.isScalar = true := by
      cases op with
      | times | divide => exact .inr (Option.ite_none_right_eq_some.mp fits).1
      | _ => exact .inl rfl
    rcases allowed with scaling | plain
    · simp [scaling]
    · simp [plain]
  next unit y =>
    have allowed : op.isScaling = false ∨ y.isScalar = true := by
      cases op with
      | times | divide => exact .inr (Option.ite_none_right_eq_some.mp fits).1
      | _ => exact .inl rfl
    rcases allowed with scaling | plain
    · simp [scaling]
    · simp [plain]
  next => rfl

theorem binary_comes {location leftLocation rightLocation : Location} {op : BinaryOp}
    {left right : Value} {leftKind rightKind kind : Kind} (leftHas : left.HasKind leftKind)
    (rightHas : right.HasKind rightKind) (fits : Kind.binary op leftKind rightKind = some kind) :
    NodeComes (binary location leftLocation rightLocation op left right) [left, right] kind := by
  obtain ⟨leftComplete, rfl⟩ := leftHas
  obtain ⟨rightComplete, rfl⟩ := rightHas
  have checked : checkOperands location leftLocation rightLocation op left right = .ok () :=
    checkOperands_ok fits
  have missing (undefined : Value.binary op left right = none) :
      ∃ fault, binary location leftLocation rightLocation op left right = .error fault := by
    refine ⟨⟨location, .operationNotDefined op.symbol left right⟩, ?_⟩
    rw [binary, checked, undefined]
    rfl
  rcases leftComplete with leftKnown | leftUnset
  · rcases rightComplete with rightKnown | rightUnset
    · obtain ⟨v, found, known⟩ := Value.binary_known leftKnown rightKnown fits
      have sameKind : v.kind = kind :=
        Option.some.inj ((Value.kind_binary found).symm.trans fits)
      refine .inl ⟨v, ?_, .inl known, sameKind⟩
      rw [binary, checked, found]
      rfl
    · obtain ⟨name, type, rfl⟩ := Value.hole_of_isUnset rightUnset
      exact .inr ⟨missing (Value.binary_hole_right op left name type), _, by simp, rightUnset⟩
  · obtain ⟨name, type, rfl⟩ := Value.hole_of_isUnset leftUnset
    exact .inr ⟨missing (Value.binary_hole_left op name type right), _, by simp, leftUnset⟩

theorem ascription_comes {location operandLocation unitLocation : Location}
    {operand unit : Value} {operandKind unitKind kind : Kind}
    (operandHas : operand.HasKind operandKind) (unitHas : unit.HasKind unitKind)
    (fits : Kind.ascribe operandKind unitKind = some kind) :
    NodeComes (ascription location operandLocation unitLocation operand unit)
      [operand, unit] kind := by
  obtain ⟨operandKnown | operandUnset, rfl⟩ := operandHas
  · obtain ⟨unitKnown | unitUnset, rfl⟩ := unitHas
    · cases operand with
      | quantity q =>
          cases unit with
          | unitConstructor target =>
              obtain ⟨plain, same⟩ := Option.ite_none_right_eq_some.mp fits
              have plain : q.isScalar = true := plain
              cases same
              refine .inl ⟨.quantity ⟨q.magnitude, target⟩, ?_, .inl rfl, rfl⟩
              simp [ascription, Value.unit?, Value.ascribe, Quantity.ascribe, plain, defined]
          | boolean truth | booleanConstructor | quantity other => cases fits
          | _ => cases unitKnown
      | boolean truth | booleanConstructor | unitConstructor other => cases fits
      | _ => cases operandKnown
    · obtain ⟨name, type, rfl⟩ := Value.hole_of_isUnset unitUnset
      refine .inr ⟨?_, _, by simp, unitUnset⟩
      cases operand with
      | quantity q =>
          by_cases plain : q.isScalar = true
          · exact ⟨_, by simp [ascription, plain, Value.unit?, refuse]; rfl⟩
          · exact ⟨_, by simp [ascription, plain, refuse]; rfl⟩
      | _ => exact ⟨_, rfl⟩
  · obtain ⟨name, type, rfl⟩ := Value.hole_of_isUnset operandUnset
    exact .inr ⟨⟨_, rfl⟩, _, by simp, operandUnset⟩

theorem conversion_comes {location operandLocation unitLocation : Location}
    {operand unit : Value} {operandKind unitKind kind : Kind}
    (operandHas : operand.HasKind operandKind) (unitHas : unit.HasKind unitKind)
    (fits : Kind.convert operandKind unitKind = some kind) :
    NodeComes (conversion location operandLocation unitLocation operand unit)
      [operand, unit] kind := by
  obtain ⟨operandKnown | operandUnset, rfl⟩ := operandHas
  · obtain ⟨unitKnown | unitUnset, rfl⟩ := unitHas
    · cases operand with
      | quantity q =>
          cases unit with
          | unitConstructor target =>
              obtain ⟨allowed, same⟩ := Option.ite_none_right_eq_some.mp fits
              cases same
              have converted : ∃ result, q.convert target = some result ∧ result.unit = target := by
                by_cases sameBase : (q.unit.base == target.base) = true
                · exact ⟨_, if_pos sameBase, rfl⟩
                · have plain : q.isScalar = true :=
                    (Bool.or_eq_true_iff.mp allowed).resolve_left sameBase
                  exact ⟨_, (if_neg sameBase).trans (if_pos plain), rfl⟩
              obtain ⟨result, found, rfl⟩ := converted
              refine .inl ⟨.quantity result, ?_, .inl rfl, rfl⟩
              have passed : (q.unit.base != result.unit.base && !q.isScalar) = false := by
                rcases Bool.or_eq_true_iff.mp allowed with sameBase | plain
                · simp [bne, sameBase]
                · have plain : q.isScalar = true := plain
                  simp [plain]
              simp [conversion, Value.unit?, passed, Value.convert, found, defined]
          | boolean truth | booleanConstructor | quantity other => cases fits
          | _ => cases unitKnown
      | boolean truth | booleanConstructor | unitConstructor other => cases fits
      | _ => cases operandKnown
    · obtain ⟨name, type, rfl⟩ := Value.hole_of_isUnset unitUnset
      refine .inr ⟨?_, _, by simp, unitUnset⟩
      cases operand <;> exact ⟨_, rfl⟩
  · obtain ⟨name, type, rfl⟩ := Value.hole_of_isUnset operandUnset
    refine .inr ⟨?_, _, by simp, operandUnset⟩
    cases unit <;> exact ⟨_, rfl⟩

end Evaluation

namespace Expr

variable {values : String → Option Value}

theorem comes_of_oneOperand {e operand : Expr} {combine : Value → Except Fault Value}
    {operandKind kind : Kind} (reached : e.reached values = [operand])
    (evaluated : e.eval values = (operand.eval values >>= combine))
    (operandComes : operand.Comes values operandKind)
    (node : ∀ v, v.HasKind operandKind → Evaluation.NodeComes (combine v) [v] kind) :
    e.Comes values kind := by
  rcases operandComes with ⟨v, operandValue, hasKind⟩ | ⟨fault, operandFault, fails⟩
  · have combined : e.eval values = combine v := by rw [evaluated, operandValue]; rfl
    rcases node v hasKind with ⟨result, found, resultKind⟩ | ⟨⟨fault, failed⟩, _, member, unset⟩
    · exact .inl ⟨result, combined.trans found, resultKind⟩
    · rw [List.mem_singleton] at member
      subst member
      refine .inr ⟨fault, combined.trans failed, .here (combined.trans failed) ?_ ?_ operandValue unset⟩
      · intro other member
        rw [reached, List.mem_singleton] at member
        exact ⟨_, member ▸ operandValue⟩
      · simp [reached]
  · refine .inr ⟨fault, ?_, .inside ?_ fails⟩
    · rw [evaluated, operandFault]
      rfl
    · simp [reached]

/-- For the nodes that evaluate both operands before they look at either. -/
theorem comes_of_twoOperands {e left right : Expr} {combine : Value → Value → Except Fault Value}
    {leftKind rightKind kind : Kind}
    (reached : e.reached values =
      match left.eval values with
      | .ok _ => [left, right]
      | .error _ => [left])
    (evaluated : e.eval values = (do combine (← left.eval values) (← right.eval values)))
    (leftComes : left.Comes values leftKind) (rightComes : right.Comes values rightKind)
    (node : ∀ lhs rhs, lhs.HasKind leftKind → rhs.HasKind rightKind →
      Evaluation.NodeComes (combine lhs rhs) [lhs, rhs] kind) :
    e.Comes values kind := by
  rcases leftComes with ⟨lhs, leftValue, leftHas⟩ | ⟨fault, leftFault, fails⟩
  · rw [leftValue] at reached evaluated
    rcases rightComes with ⟨rhs, rightValue, rightHas⟩ | ⟨fault, rightFault, fails⟩
    · have combined : e.eval values = combine lhs rhs := by rw [evaluated, rightValue]; rfl
      rcases node lhs rhs leftHas rightHas with
        ⟨result, found, resultKind⟩ | ⟨⟨fault, failed⟩, operand, member, unset⟩
      · exact .inl ⟨result, combined.trans found, resultKind⟩
      · have operands : ∀ other ∈ e.reached values, ∃ result, other.eval values = .ok result := by
          intro other member
          simp only [reached, List.mem_cons, List.not_mem_nil, or_false] at member
          rcases member with rfl | rfl
          · exact ⟨lhs, leftValue⟩
          · exact ⟨rhs, rightValue⟩
        refine .inr ⟨fault, combined.trans failed, ?_⟩
        simp only [List.mem_cons, List.not_mem_nil, or_false] at member
        rcases member with rfl | rfl
        · exact .here (combined.trans failed) operands (by simp [reached]) leftValue unset
        · exact .here (combined.trans failed) operands (by simp [reached]) rightValue unset
    · refine .inr ⟨fault, ?_, .inside (by simp [reached]) fails⟩
      rw [evaluated, rightFault]
      rfl
  · rw [leftFault] at reached evaluated
    exact .inr ⟨fault, evaluated, .inside (by simp [reached]) fails⟩

theorem truth_of_boolean {v : Value} (hasKind : v.HasKind .boolean) :
    (∃ truth, v = .boolean truth) ∨ v.isUnset = true ∧ ∃ name type, v = .hole name type := by
  obtain ⟨known | unset, boolean⟩ := hasKind
  · cases v with
    | boolean truth => exact .inl ⟨truth, rfl⟩
    | quantity q | booleanConstructor | unitConstructor unit => cases boolean
    | _ => cases known
  · exact .inr ⟨unset, Value.hole_of_isUnset unset⟩

theorem logical_comes {location : Location} {op : LogicalOp} {left right : Expr}
    (leftComes : left.Comes values .boolean) (rightComes : right.Comes values .boolean) :
    (logical location op left right).Comes values .boolean := by
  rcases leftComes with ⟨lhs, leftValue, leftHas⟩ | ⟨fault, leftFault, fails⟩
  · rcases truth_of_boolean leftHas with ⟨known, rfl⟩ | ⟨unset, name, type, rfl⟩
    · by_cases decided : Evaluation.decides op known = true
      · refine .inl ⟨.boolean known, ?_, .inl rfl, rfl⟩
        simp [eval, leftValue, Evaluation.truth, decided, bind, Except.bind, pure, Except.pure]
      · have reached : (logical location op left right).reached values = [left, right] := by
          simp [Expr.reached, leftValue, decided]
        have evaluated : (logical location op left right).eval values = (do
            let rhs ← right.eval values
            return .boolean (← Evaluation.truth right.location rhs)) := by
          simp [eval, leftValue, Evaluation.truth, decided, bind, Except.bind]
        rcases rightComes with ⟨rhs, rightValue, rightHas⟩ | ⟨fault, rightFault, fails⟩
        · rw [rightValue] at evaluated
          rcases truth_of_boolean rightHas with ⟨truth, rfl⟩ | ⟨unset, name, type, rfl⟩
          · exact .inl ⟨.boolean truth, evaluated, .inl rfl, rfl⟩
          · refine .inr ⟨_, evaluated, .here evaluated ?_ (by simp [reached]) rightValue unset⟩
            intro other member
            simp only [reached, List.mem_cons, List.not_mem_nil, or_false] at member
            rcases member with rfl | rfl
            · exact ⟨_, leftValue⟩
            · exact ⟨_, rightValue⟩
        · rw [rightFault] at evaluated
          exact .inr ⟨fault, evaluated, .inside (by simp [reached]) fails⟩
    · have reached : (logical location op left right).reached values = [left] := by
        simp [Expr.reached, leftValue]
      have evaluated : (logical location op left right).eval values =
          .error ⟨left.location, .notBoolean (.hole name type)⟩ := by
        simp [eval, leftValue, Evaluation.truth, refuse, bind, Except.bind]
      refine .inr ⟨_, evaluated, .here evaluated ?_ (by simp [reached]) leftValue unset⟩
      intro other member
      rw [reached, List.mem_singleton] at member
      exact ⟨_, member ▸ leftValue⟩
  · have reached : (logical location op left right).reached values = [left] := by
      simp [Expr.reached, leftFault]
    have evaluated : (logical location op left right).eval values = .error fault := by
      simp [eval, leftFault, bind, Except.bind]
    exact .inr ⟨fault, evaluated, .inside (by simp [reached]) fails⟩

/-- An expression of a kind comes to a value of the kind, if its names do. -/
theorem comes {kinds : String → Option Kind}
    (names : ∀ name kind, kinds name = some kind → ∃ v, values name = some v ∧ v.HasKind kind)
    {e : Expr} {kind : Kind} (fits : e.kind? kinds = some kind) : e.Comes values kind := by
  induction e generalizing kind with
  | number location x | bool location truth =>
      cases fits
      exact .inl ⟨_, rfl, .inl rfl, rfl⟩
  | typeWord location word =>
      cases word <;> cases fits <;> exact .inl ⟨_, rfl, .inl rfl, rfl⟩
  | name location text =>
      obtain ⟨v, found, hasKind⟩ := names text kind fits
      refine .inl ⟨v, ?_, hasKind⟩
      simp [eval, found]
  | paren location inner ih =>
      rcases ih fits with comes | ⟨fault, failed, fails⟩
      · exact .inl comes
      · exact .inr ⟨fault, failed, .inside (List.mem_singleton_self _) fails⟩
  | sign location op operand ih =>
      obtain ⟨operandKind, operandFits, fits⟩ := Option.bind_eq_some_iff.mp fits
      exact comes_of_oneOperand rfl rfl (ih operandFits)
        fun _ hasKind => Evaluation.sign_comes hasKind fits
  | power location base exponent ih =>
      obtain ⟨baseKind, baseFits, fits⟩ := Option.bind_eq_some_iff.mp fits
      exact comes_of_oneOperand rfl rfl (ih baseFits)
        fun _ hasKind => Evaluation.power_comes hasKind fits
  | binary location op left right leftIh rightIh =>
      obtain ⟨leftKind, leftFits, fits⟩ := Option.bind_eq_some_iff.mp fits
      obtain ⟨rightKind, rightFits, fits⟩ := Option.bind_eq_some_iff.mp fits
      exact comes_of_twoOperands rfl rfl (leftIh leftFits) (rightIh rightFits)
        fun _ _ leftHas rightHas => Evaluation.binary_comes leftHas rightHas fits
  | logical location op left right leftIh rightIh =>
      obtain ⟨leftKind, leftFits, fits⟩ := Option.bind_eq_some_iff.mp fits
      obtain ⟨rightKind, rightFits, fits⟩ := Option.bind_eq_some_iff.mp fits
      cases leftKind <;> cases rightKind <;> cases fits
      exact logical_comes (leftIh leftFits) (rightIh rightFits)
  | ascription location operand unit operandIh unitIh =>
      obtain ⟨operandKind, operandFits, fits⟩ := Option.bind_eq_some_iff.mp fits
      obtain ⟨unitKind, unitFits, fits⟩ := Option.bind_eq_some_iff.mp fits
      exact comes_of_twoOperands rfl rfl (operandIh operandFits) (unitIh unitFits)
        fun _ _ operandHas unitHas => Evaluation.ascription_comes operandHas unitHas fits
  | conversion location operand unit operandIh unitIh =>
      obtain ⟨operandKind, operandFits, fits⟩ := Option.bind_eq_some_iff.mp fits
      obtain ⟨unitKind, unitFits, fits⟩ := Option.bind_eq_some_iff.mp fits
      exact comes_of_twoOperands rfl rfl (operandIh operandFits) (unitIh unitFits)
        fun _ _ operandHas unitHas => Evaluation.conversion_comes operandHas unitHas fits

end Expr

end Quantities
