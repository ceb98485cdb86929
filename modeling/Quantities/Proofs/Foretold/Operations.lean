import Quantities.Proofs.Exact.Operations
import Quantities.Proofs.Known.Expression

/-!
Operations on types and on values of these types. A type foretells its values: one with a known
truth or magnitude has no value but itself, and the others leave the truth or the magnitude open.
What an operation makes of types foretells what it makes of their values, and there it always has a
result.
-/

namespace Quantities

namespace Value

/-- The second value is complete, and the first one says of it what a type without holes can say. -/
structure Foretells (type v : Value) : Prop where
  known : v.isKnown = true
  exact : type.isKnown = true → v = type
  forgotten : type.isKnown = false → v.abstractType = type

namespace Foretells

variable {type v : Value}

theorem of_known (known : v.isKnown = true) : v.Foretells v :=
  ⟨known, fun _ => rfl, fun unknown => by rw [known] at unknown; cases unknown⟩

theorem truth (truth : Bool) : Foretells .booleanType (.boolean truth) :=
  ⟨rfl, (absurd · Bool.false_ne_true), fun _ => rfl⟩

theorem magnitude (q : Quantity) : Foretells (.quantityType q.unit) (.quantity q) :=
  ⟨rfl, (absurd · Bool.false_ne_true), fun _ => rfl⟩

/-- A type is the value, or it leaves open a truth, or a magnitude. -/
theorem cases (foretells : type.Foretells v) :
    type = v ∨ (∃ truth, type = .booleanType ∧ v = .boolean truth) ∨
      ∃ q : Quantity, type = .quantityType q.unit ∧ v = .quantity q := by
  cases known : type.isKnown with
  | true => exact .inl (foretells.exact known).symm
  | false =>
      have abstract := foretells.forgotten known
      cases v with
      | boolean truth => exact .inr (.inl ⟨truth, abstract.symm, rfl⟩)
      | quantity q => exact .inr (.inr ⟨q, abstract.symm, rfl⟩)
      | booleanConstructor | unitConstructor unit => exact .inl abstract.symm
      | _ => cases foretells.known

theorem bare (foretells : type.Foretells v) : v.unwrap = v := by
  have known := foretells.known
  cases v with
  | hole name inner => cases known
  | _ => rfl

theorem kind_eq (foretells : type.Foretells v) : type.kind = v.kind := by
  rcases foretells.cases with rfl | ⟨truth, rfl, rfl⟩ | ⟨q, rfl, rfl⟩ <;> rfl

theorem isBoolean_eq (foretells : type.Foretells v) : type.isBoolean = v.isBoolean := by
  rcases foretells.cases with rfl | ⟨truth, rfl, rfl⟩ | ⟨q, rfl, rfl⟩ <;> rfl

theorem numberUnit?_eq (foretells : type.Foretells v) : type.numberUnit? = v.numberUnit? := by
  rcases foretells.cases with rfl | ⟨truth, rfl, rfl⟩ | ⟨q, rfl, rfl⟩ <;> rfl

theorem unit?_eq (foretells : type.Foretells v) : type.unit? = v.unit? := by
  rcases foretells.cases with rfl | ⟨truth, rfl, rfl⟩ | ⟨q, rfl, rfl⟩ <;> rfl

theorem quantity_of_givenUnit (foretells : type.Foretells v) {unit : Measure}
    (given : type.givenUnit? = some unit) : ∃ q : Quantity, v = .quantity q ∧ q.unit = unit := by
  rcases foretells.cases with rfl | ⟨truth, rfl, rfl⟩ | ⟨q, rfl, rfl⟩
  · have known := foretells.known
    cases type with
    | quantity q => exact ⟨q, rfl, Option.some.inj given⟩
    | quantityType unit => cases known
    | _ => cases given
  · cases given
  · exact ⟨q, rfl, Option.some.inj given⟩

theorem boolean_of_isBoolean (foretells : type.Foretells v) (boolean : type.isBoolean = true) :
    ∃ truth, v = .boolean truth := by
  rw [foretells.isBoolean_eq] at boolean
  have known := foretells.known
  cases v with
  | boolean truth => exact ⟨truth, rfl⟩
  | booleanType | hole name inner => cases known
  | _ => cases boolean

end Foretells

variable {type v left right x y result : Value}

theorem not_foretold (foretells : type.Foretells v) (found : type.not = some result) :
    ∃ r, v.not = some r ∧ result.Foretells r := by
  rcases foretells.cases with rfl | ⟨truth, rfl, rfl⟩ | ⟨q, rfl, rfl⟩
  · have known := foretells.known
    cases type with
    | boolean truth =>
        cases found
        exact ⟨_, rfl, .of_known rfl⟩
    | booleanType => cases known
    | _ => cases found
  · cases found
    exact ⟨_, rfl, .truth _⟩
  · cases found

theorem negate_foretold (foretells : type.Foretells v) (found : type.negate = some result) :
    ∃ r, v.negate = some r ∧ result.Foretells r := by
  rcases foretells.cases with rfl | ⟨truth, rfl, rfl⟩ | ⟨q, rfl, rfl⟩
  · exact ⟨result, found, .of_known (known_of_negate foretells.known found)⟩
  · cases found
  · cases found
    exact ⟨_, rfl, .magnitude q.negate⟩

theorem power_foretold {n : Float} (foretells : type.Foretells v)
    (found : type.power n = some result) : ∃ r, v.power n = some r ∧ result.Foretells r := by
  rcases foretells.cases with rfl | ⟨truth, rfl, rfl⟩ | ⟨q, rfl, rfl⟩
  · exact ⟨result, found, .of_known (known_of_power foretells.known found)⟩
  · cases found
  · cases found
    exact ⟨_, rfl, .magnitude (q.power n)⟩

/-- With a magnitude open, a product or quotient is one of numbers. -/
theorem abstractScaling_foretold {combine : Measure → Measure → Measure}
    (leftForetells : left.Foretells x) (rightForetells : right.Foretells y)
    (found : abstractScaling combine left right = some result) :
    ∃ p q : Quantity, x = .quantity p ∧ y = .quantity q ∧
      result = .quantityType (combine p.unit q.unit) := by
  obtain ⟨leftUnit, rightUnit, leftGiven, rightGiven, rfl⟩ := abstractScaling_eq_some found
  obtain ⟨p, rfl, rfl⟩ := leftForetells.quantity_of_givenUnit leftGiven
  obtain ⟨q, rfl, rfl⟩ := rightForetells.quantity_of_givenUnit rightGiven
  exact ⟨p, q, rfl, rfl, rfl⟩

theorem times_of_unknown (unknown : (left.isKnown && right.isKnown) = false) :
    left.times right = abstractScaling Measure.times left right := by
  cases left <;> cases right <;> first | rfl | cases unknown

theorem divide_of_unknown (unknown : (left.isKnown && right.isKnown) = false) :
    left.divide right = abstractScaling Measure.divide left right := by
  cases left <;> cases right <;> first | rfl | cases unknown

theorem additive_of_unknown {op : Quantity → Quantity → Option Quantity}
    (unknown : (left.isKnown && right.isKnown) = false)
    (found : additive op left right = some result) :
    ∃ leftUnit rightUnit, left.givenUnit? = some leftUnit ∧ right.givenUnit? = some rightUnit ∧
      (leftUnit.dims == rightUnit.dims) = true ∧ result = .quantityType leftUnit := by
  unfold additive at found
  split at found
  next => cases unknown
  next =>
    split at found
    next leftUnit rightUnit leftGiven rightGiven =>
      obtain ⟨sameDims, same⟩ := Option.ite_none_right_eq_some.mp found
      cases same
      exact ⟨leftUnit, rightUnit, leftGiven, rightGiven, sameDims, rfl⟩
    next => cases found

theorem additive_foretold {op : Float → Float → Float} (leftForetells : left.Foretells x)
    (rightForetells : right.Foretells y) (unknown : (left.isKnown && right.isKnown) = false)
    (found : additive (Quantity.additive op) left right = some result) :
    ∃ r, additive (Quantity.additive op) x y = some r ∧ result.Foretells r := by
  obtain ⟨leftUnit, rightUnit, leftGiven, rightGiven, sameDims, rfl⟩ :=
    additive_of_unknown unknown found
  obtain ⟨p, rfl, rfl⟩ := leftForetells.quantity_of_givenUnit leftGiven
  obtain ⟨q, rfl, rfl⟩ := rightForetells.quantity_of_givenUnit rightGiven
  have sum : Quantity.additive op p q = some ⟨op p.magnitude q.magnitude, p.unit⟩ :=
    if_pos sameDims
  exact ⟨_, congrArg (Option.map quantity) sum,
    .magnitude ⟨op p.magnitude q.magnitude, p.unit⟩⟩

theorem compare_foretold {op : BinaryOp} (comparison : op.isComparison = true)
    (leftForetells : left.Foretells x) (rightForetells : right.Foretells y)
    (unknown : (left.isKnown && right.isKnown) = false)
    (found : Value.compare op left right = some result) :
    ∃ r, Value.compare op x y = some r ∧ result.Foretells r := by
  have settles := Settles.compare found
  have fits := kind_compare found
  have resultBoolean := Kind.compare_boolean fits
  rw [leftForetells.kind_eq, rightForetells.kind_eq] at fits
  obtain ⟨r, ran, known⟩ :=
    compare_known comparison leftForetells.known rightForetells.known fits
  have ranBoolean := Kind.compare_boolean (kind_compare ran)
  have resultOpen : result = .booleanType := by
    cases result with
    | booleanType => rfl
    | boolean truth =>
        obtain ⟨leftKnown, rightKnown⟩ := settles.known rfl
        rw [leftKnown, rightKnown] at unknown
        cases unknown
    | hole name inner => exact absurd settles.bare (unwrap_ne_hole _ _ _)
    | _ => cases resultBoolean
  cases r with
  | boolean truth =>
      rw [resultOpen]
      exact ⟨_, ran, .truth truth⟩
  | booleanType | hole name inner => cases known
  | _ => cases ranBoolean

theorem binary_foretold {op : BinaryOp} (leftForetells : left.Foretells x)
    (rightForetells : right.Foretells y) (found : binary op left right = some result) :
    ∃ r, binary op x y = some r ∧ result.Foretells r := by
  cases unknown : left.isKnown && right.isKnown with
  | true =>
      obtain ⟨leftKnown, rightKnown⟩ := Bool.and_eq_true_iff.mp unknown
      rw [leftForetells.exact leftKnown, rightForetells.exact rightKnown]
      exact ⟨result, found, .of_known (known_of_binary leftKnown rightKnown found)⟩
  | false =>
      cases op with
      | times =>
          obtain ⟨p, q, rfl, rfl, rfl⟩ := abstractScaling_foretold leftForetells rightForetells
            ((times_of_unknown unknown).symm.trans found)
          exact ⟨_, rfl, .magnitude (p.times q)⟩
      | divide =>
          obtain ⟨p, q, rfl, rfl, rfl⟩ := abstractScaling_foretold leftForetells rightForetells
            ((divide_of_unknown unknown).symm.trans found)
          exact ⟨_, rfl, .magnitude (p.divide q)⟩
      | modulo | plus | minus =>
          exact additive_foretold leftForetells rightForetells unknown found
      | equal | notEqual | atMost | atLeast | less | greater =>
          exact compare_foretold rfl leftForetells rightForetells unknown found

theorem connect_foretold {op : Bool → Bool → Bool} (leftForetells : left.Foretells x)
    (rightForetells : right.Foretells y) (found : connect op left right = some result) :
    ∃ r, connect op x y = some r ∧ result.Foretells r := by
  unfold connect at found
  split at found
  next a b =>
    cases found
    rw [leftForetells.exact rfl, rightForetells.exact rfl]
    exact ⟨_, rfl, .of_known rfl⟩
  next =>
    obtain ⟨booleans, same⟩ := Option.ite_none_right_eq_some.mp found
    cases same
    obtain ⟨leftBoolean, rightBoolean⟩ := Bool.and_eq_true_iff.mp booleans
    obtain ⟨a, rfl⟩ := leftForetells.boolean_of_isBoolean leftBoolean
    obtain ⟨b, rfl⟩ := rightForetells.boolean_of_isBoolean rightBoolean
    exact ⟨_, rfl, .truth _⟩

theorem logical_foretold {op : LogicalOp} (leftForetells : left.Foretells x)
    (rightForetells : right.Foretells y) (found : logical op left right = some result) :
    ∃ r, logical op x y = some r ∧ result.Foretells r := by
  cases op with
  | and => exact connect_foretold leftForetells rightForetells found
  | or => exact connect_foretold leftForetells rightForetells found

/-- A unit is never open, and so the unit of an ascription or conversion is the one foretold. -/
theorem Foretells.unitConstructor {unit : Measure} (foretells : Foretells (.unitConstructor unit) v) :
    v = .unitConstructor unit := foretells.exact rfl

theorem ascribe_foretold (leftForetells : left.Foretells x) (rightForetells : right.Foretells y)
    (found : left.ascribe right = some result) :
    ∃ r, x.ascribe y = some r ∧ result.Foretells r := by
  unfold ascribe at found
  split at found
  next q unit =>
    rw [leftForetells.exact rfl, rightForetells.unitConstructor]
    obtain ⟨p, -, rfl⟩ := Option.map_eq_some_iff.mp found
    exact ⟨_, found, .of_known rfl⟩
  next type unit =>
    obtain ⟨plain, same⟩ := Option.ite_none_right_eq_some.mp found
    cases same
    obtain ⟨q, rfl, rfl⟩ := leftForetells.quantity_of_givenUnit rfl
    rw [rightForetells.unitConstructor]
    have given : q.ascribe unit = some ⟨q.magnitude, unit⟩ := if_pos plain
    exact ⟨_, congrArg (Option.map quantity) given, .magnitude ⟨q.magnitude, unit⟩⟩
  next => cases found

theorem convert_foretold (leftForetells : left.Foretells x) (rightForetells : right.Foretells y)
    (found : left.convert right = some result) :
    ∃ r, x.convert y = some r ∧ result.Foretells r := by
  unfold convert at found
  split at found
  next q unit =>
    rw [leftForetells.exact rfl, rightForetells.unitConstructor]
    obtain ⟨p, -, rfl⟩ := Option.map_eq_some_iff.mp found
    exact ⟨_, found, .of_known rfl⟩
  next type unit =>
    obtain ⟨fits, same⟩ := Option.ite_none_right_eq_some.mp found
    cases same
    obtain ⟨q, rfl, rfl⟩ := leftForetells.quantity_of_givenUnit rfl
    rw [rightForetells.unitConstructor]
    have given : ∃ p : Quantity, q.convert unit = some p ∧ p.unit = unit := by
      unfold Quantity.convert
      split
      next => exact ⟨_, rfl, rfl⟩
      next differ =>
        have plain : q.unit.isScalar = true :=
          (Bool.or_eq_true_iff.mp fits).resolve_left differ
        exact ⟨_, if_pos plain, rfl⟩
    obtain ⟨p, converted, rfl⟩ := given
    exact ⟨_, congrArg (Option.map quantity) converted, .magnitude p⟩
  next => cases found

end Value

end Quantities
