import Mathlib.LinearAlgebra.Finsupp.LinearCombination
import Quantities.Proofs.Dimensions.Vector
import Quantities.Proofs.Kind.Subtype
import Quantities.Proofs.Kind.Typing

/-!
Base dimensions that follow from the dimensions beside them. A law says what each label stands for in
base units. The kinds in which the base dimensions are what the law makes of the dimensions are
closed under all operations, as long as the exponents are small whole numbers.
-/

namespace Quantities

/-- What each label stands for in base units. -/
abbrev Law := String → (String →₀ ℤ)

namespace Dimensions

/-- The base dimensions are what the law makes of the dimensions. -/
def Grounded (law : Law) (dims base : Dimensions) : Prop :=
  ∃ vector, dims.Counts vector ∧ base.Counts (Finsupp.linearCombination ℤ law vector)

namespace Grounded

variable {law : Law} {dims base otherDims otherBase : Dimensions}

theorem base_eq (grounded : Grounded law dims base) (other : Grounded law otherDims otherBase)
    (same : (dims == otherDims) = true) : base = otherBase := by
  obtain ⟨vector, counts, baseCounts⟩ := grounded
  obtain ⟨otherVector, otherCounts, otherBaseCounts⟩ := other
  obtain rfl := counts.zeroFree.eq_of_beq same
  obtain rfl := counts.vector_eq otherCounts
  exact baseCounts.unique otherBaseCounts

theorem base_beq (grounded : Grounded law dims base) (other : Grounded law otherDims otherBase)
    (same : (dims == otherDims) = true) : (base == otherBase) = true := by
  obtain rfl := grounded.base_eq other same
  obtain ⟨vector, -, counts⟩ := grounded
  exact counts.beq_self

theorem scalar (law : Law) : Grounded law .scalar .scalar :=
  ⟨0, .scalar, by simpa using Counts.scalar⟩

theorem single {label : String} (counts : base.Counts (law label)) :
    Grounded law (.single label) base :=
  ⟨Finsupp.single label 1, .single label, by simpa using counts⟩

theorem times (grounded : Grounded law dims base) (other : Grounded law otherDims otherBase)
    (small : (dims.times otherDims).Small ∧ (base.times otherBase).Small) :
    Grounded law (dims.times otherDims) (base.times otherBase) := by
  obtain ⟨vector, counts, baseCounts⟩ := grounded
  obtain ⟨otherVector, otherCounts, otherBaseCounts⟩ := other
  refine ⟨vector + otherVector, counts.times otherCounts small.1, ?_⟩
  rw [map_add]
  exact baseCounts.times otherBaseCounts small.2

theorem divide (grounded : Grounded law dims base) (other : Grounded law otherDims otherBase)
    (small : (dims.divide otherDims).Small ∧ (base.divide otherBase).Small) :
    Grounded law (dims.divide otherDims) (base.divide otherBase) := by
  obtain ⟨vector, counts, baseCounts⟩ := grounded
  obtain ⟨otherVector, otherCounts, otherBaseCounts⟩ := other
  refine ⟨vector - otherVector, counts.divide otherCounts small.1, ?_⟩
  rw [map_sub]
  exact baseCounts.divide otherBaseCounts small.2

theorem power {n : Float} {count : ℤ} (grounded : Grounded law dims base)
    (whole : Number.Whole n count) (small : (dims.power n).Small ∧ (base.power n).Small) :
    Grounded law (dims.power n) (base.power n) := by
  obtain ⟨vector, counts, baseCounts⟩ := grounded
  refine ⟨count • vector, counts.power whole small.1, ?_⟩
  rw [map_smul]
  exact baseCounts.power whole small.2

theorem power_scalar (grounded : Grounded law dims base) (plain : dims.isScalar = true) (n : Float) :
    Grounded law (dims.power n) (base.power n) := by
  obtain ⟨entries⟩ := dims
  obtain rfl : entries = [] := List.isEmpty_iff.mp plain
  obtain rfl := base_eq (scalar law) grounded rfl
  exact scalar law

end Grounded

end Dimensions

namespace Kind

/-- The exponents are small whole numbers. -/
def Small : Kind → Prop
  | .number dims base | .unit dims base => dims.Small ∧ base.Small
  | .boolean | .booleanConstructor => True

/-- The base dimensions, if there are any, are what the law makes of the dimensions. -/
def Grounded (law : Law) : Kind → Prop
  | .number dims base | .unit dims base => dims.Grounded law base
  | .boolean | .booleanConstructor => True

/-- The exponent is a small whole number, unless it is that of a plain number. -/
def WholePower (n : Float) : Kind → Prop
  | .number dims _ | .unit dims _ => dims.isScalar = true ∨ ∃ count, Number.Whole n count
  | .boolean | .booleanConstructor => True

namespace Grounded

variable {law : Law} {left right result : Kind}

theorem sign {op : SignOp} (grounded : left.Grounded law)
    (found : Kind.sign op left = some result) : result.Grounded law := by
  cases op <;> cases left <;> cases found <;> exact grounded

theorem power {n : Float} (grounded : left.Grounded law) (whole : left.WholePower n)
    (found : Kind.power n left = some result) (small : result.Small) : result.Grounded law := by
  cases left with
  | number dims base | unit dims base =>
      cases found
      rcases whole with plain | ⟨count, whole⟩
      · exact grounded.power_scalar plain n
      · exact grounded.power whole small
  | boolean | booleanConstructor => cases found

theorem scale {combine : Dimensions → Dimensions → Dimensions} {under : Dimensions → Dimensions}
    (combined : ∀ {dims base otherDims otherBase : Dimensions}, dims.Grounded law base →
      otherDims.Grounded law otherBase →
      (combine dims otherDims).Small ∧ (combine base otherBase).Small →
      (combine dims otherDims).Grounded law (combine base otherBase))
    (scaled : ∀ {dims base : Dimensions}, dims.Grounded law base →
      (under dims).Small ∧ (under base).Small → (under dims).Grounded law (under base))
    (grounded : left.Grounded law) (other : right.Grounded law)
    (found : Kind.scale combine under left right = some result) (small : result.Small) :
    result.Grounded law := by
  cases scales_of_scale found with
  | numbers | units => exact combined grounded other small
  | numberUnit => exact scaled other small
  | unitNumber => exact grounded

theorem add (grounded : left.Grounded law) (found : Kind.add left right = some result) :
    result.Grounded law := by
  unfold Kind.add at found
  split at found
  next =>
    obtain ⟨-, ⟨⟩⟩ := Option.ite_none_right_eq_some.mp found
    exact grounded
  next => cases found

theorem binary {op : BinaryOp} (grounded : left.Grounded law) (other : right.Grounded law)
    (found : Kind.binary op left right = some result) (small : result.Small) :
    result.Grounded law := by
  cases op with
  | times => exact scale .times (fun under _ => under) grounded other found small
  | divide =>
      exact scale .divide (fun under small => under.power Number.whole_neg_one small) grounded other
        found small
  | modulo | plus | minus => exact grounded.add found
  | _ =>
      obtain rfl := compare_boolean found
      trivial

theorem instance? (grounded : left.Grounded law) (found : left.instance? = some result) :
    result.Grounded law := by
  cases left with
  | booleanConstructor =>
      cases found
      trivial
  | unit dims base =>
      cases found
      exact grounded
  | boolean | number dims base => cases found

end Grounded

end Kind

namespace Value

variable {v w result : Value} {unit other : Measure}

theorem grounded_of_measure {law : Law} (grounded : v.kind.Grounded law)
    (found : v.measure? = some unit) : unit.dims.Grounded law unit.base := by
  rcases kind_of_measure found with kind | kind
  all_goals
    rw [kind] at grounded
    exact grounded

/-- Numbers that are compared, or added, have equal dimensions. Units are not added at all. -/
theorem sameDims_of_binary {op : BinaryOp} (adds : op.isScaling = false)
    (found : v.measure? = some unit) (otherFound : w.measure? = some other)
    (defined : Value.binary op v w = some result) : (unit.dims == other.dims) = true := by
  have kinds := kind_binary defined
  rcases kind_of_measure found with left | left <;>
    rcases kind_of_measure otherFound with right | right <;> rw [left, right] at kinds
  · cases op with
    | times | divide => cases adds
    | _ => exact (Option.ite_none_right_eq_some.mp kinds).1
  all_goals
    cases op with
    | times | divide => cases adds
    | _ => cases kinds

end Value

namespace Expr

/-- The expression and all expressions in it. -/
def parts (e : Expr) : List Expr :=
  e :: match e with
    | .paren _ inner => inner.parts
    | .sign _ _ operand => operand.parts
    | .power _ base _ => base.parts
    | .binary _ _ left right | .logical _ _ left right => left.parts ++ right.parts
    | .ascription _ operand unit | .conversion _ operand unit => operand.parts ++ unit.parts
    | .number .. | .bool .. | .typeWord .. | .name .. => []

/-- The type of the expression itself has small whole exponents, and so has a power. -/
def WholeAt (types : String → Option Value) (e : Expr) : Prop :=
  (∀ type, e.infer types = .ok type → type.kind.Small) ∧
    match e with
    | .power _ base n => ∀ type, base.infer types = .ok type → type.kind.WholePower n
    | _ => True

/-- All exponents in the types of the parts are small whole numbers. -/
def WholeExponents (types : String → Option Value) (e : Expr) : Prop :=
  ∀ part ∈ e.parts, part.WholeAt types

variable {types : String → Option Value}

theorem mem_parts_self (e : Expr) : e ∈ e.parts := by
  cases e <;> exact List.mem_cons_self ..

theorem WholeExponents.of_parts {e inner : Expr} (whole : e.WholeExponents types)
    (inside : ∀ part ∈ inner.parts, part ∈ e.parts) : inner.WholeExponents types :=
  fun part member => whole part (inside part member)

theorem WholeExponents.of_binary {location : Location} {op : BinaryOp} {left right : Expr}
    (whole : (Expr.binary location op left right).WholeExponents types) :
    left.WholeExponents types ∧ right.WholeExponents types :=
  ⟨whole.of_parts fun _ inside => by simp [parts, inside],
    whole.of_parts fun _ inside => by simp [parts, inside]⟩

theorem infer_of_part {e part : Expr} {type : Value} (accepted : e.infer types = .ok type)
    (member : part ∈ e.parts) : ∃ given, part.infer types = .ok given := by
  induction e generalizing type with
  | number | bool | typeWord | name =>
      obtain rfl := List.mem_singleton.mp member
      exact ⟨type, accepted⟩
  | paren location inner ih =>
      rcases List.mem_cons.mp member with rfl | inside
      · exact ⟨type, accepted⟩
      · exact ih accepted inside
  | sign location op operand ih | power location operand exponent ih =>
      rcases List.mem_cons.mp member with rfl | inside
      · exact ⟨type, accepted⟩
      · obtain ⟨arg, operandType, -⟩ := Result.bind_eq_ok.mp accepted
        exact ih operandType inside
  | binary location op left right leftIh rightIh | logical location op left right leftIh rightIh
  | ascription location left right leftIh rightIh
  | conversion location left right leftIh rightIh =>
      rcases List.mem_cons.mp member with rfl | inside
      · exact ⟨type, accepted⟩
      · obtain ⟨lhs, leftType, accepted⟩ := Result.bind_eq_ok.mp accepted
        obtain ⟨rhs, rightType, -⟩ := Result.bind_eq_ok.mp accepted
        rcases List.mem_append.mp inside with inside | inside
        · exact leftIh leftType inside
        · exact rightIh rightType inside

/-- If the types of names are grounded, then so is the type of an expression. -/
theorem infer_grounded {law : Law}
    (names : ∀ name type, types name = some type → type.kind.Grounded law) {e : Expr} {type : Value}
    (whole : e.WholeExponents types) (accepted : e.infer types = .ok type) :
    type.kind.Grounded law := by
  induction e generalizing type with
  | number location x =>
      cases accepted
      exact Dimensions.Grounded.scalar law
  | bool location truth =>
      cases accepted
      trivial
  | typeWord location word =>
      cases word with
      | boolean =>
          cases accepted
          trivial
      | scalar =>
          cases accepted
          exact Dimensions.Grounded.scalar law
  | name location text =>
      rw [infer] at accepted
      split at accepted
      next bound found =>
        cases accepted
        rw [Value.kind_unwrap]
        exact names text bound found
      next => cases accepted
  | paren location inner ih => exact ih (whole.of_parts fun _ => List.mem_cons_of_mem _) accepted
  | sign location op operand ih =>
      have inner : operand.WholeExponents types := whole.of_parts fun _ => List.mem_cons_of_mem _
      obtain ⟨arg, operandType, accepted⟩ := Result.bind_eq_ok.mp accepted
      exact (ih inner operandType).sign (Typing.kind_sign accepted)
  | power location base exponent ih =>
      have inner : base.WholeExponents types := whole.of_parts fun _ => List.mem_cons_of_mem _
      obtain ⟨small, power⟩ := whole _ (mem_parts_self _)
      have small := small type accepted
      obtain ⟨arg, baseType, accepted⟩ := Result.bind_eq_ok.mp accepted
      exact (ih inner baseType).power (power arg baseType) (Typing.kind_power accepted) small
  | binary location op left right leftIh rightIh =>
      obtain ⟨leftWhole, rightWhole⟩ := whole.of_binary
      have small := (whole _ (mem_parts_self _)).1 type accepted
      obtain ⟨lhs, leftType, accepted⟩ := Result.bind_eq_ok.mp accepted
      obtain ⟨rhs, rightType, accepted⟩ := Result.bind_eq_ok.mp accepted
      exact (leftIh leftWhole leftType).binary (rightIh rightWhole rightType)
        (Typing.kind_binary accepted) small
  | logical location op left right leftIh rightIh =>
      obtain ⟨lhs, leftType, accepted⟩ := Result.bind_eq_ok.mp accepted
      obtain ⟨rhs, rightType, accepted⟩ := Result.bind_eq_ok.mp accepted
      rw [Kind.logical_boolean (Typing.kind_logical accepted)]
      trivial
  | ascription location operand unit operandIh unitIh =>
      obtain ⟨lhs, operandType, accepted⟩ := Result.bind_eq_ok.mp accepted
      obtain ⟨rhs, unitType, accepted⟩ := Result.bind_eq_ok.mp accepted
      have grounded := unitIh (whole.of_parts fun _ inside => by simp [parts, inside]) unitType
      exact grounded.instance? (Kind.instance_of_ascribe (Typing.kind_ascription accepted))
  | conversion location operand unit operandIh unitIh =>
      obtain ⟨lhs, operandType, accepted⟩ := Result.bind_eq_ok.mp accepted
      obtain ⟨rhs, unitType, accepted⟩ := Result.bind_eq_ok.mp accepted
      have grounded := unitIh (whole.of_parts fun _ inside => by simp [parts, inside]) unitType
      exact grounded.instance? (Kind.instance_of_convert (Typing.kind_conversion accepted))

end Expr

end Quantities
