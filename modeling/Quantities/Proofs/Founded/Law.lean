import Mathlib.LinearAlgebra.Finsupp.LinearCombination
import Mathlib.LinearAlgebra.Finsupp.Supported
import Quantities.Proofs.Dimensions.Weight
import Quantities.Proofs.Kind.Operations
import Quantities.Proofs.Kind.ZeroFree

/-!
Base dimensions that follow from the dimensions beside them, with exponents of any size that are not
rounded. A law says what each label stands for in base units. The kinds in which the base dimensions
are what the law makes of the dimensions are closed under all operations that do not round.
-/

namespace Quantities

variable {law : String → String →₀ ℚ} {labels : Set String}

namespace Dimensions

/-- The base dimensions are what the law makes of the dimensions, and all labels are among these. -/
def Founded (law : String → String →₀ ℚ) (labels : Set String) (dims base : Dimensions) : Prop :=
  ∃ vector ∈ Finsupp.supported ℚ ℚ labels,
    dims.Weighs vector ∧ base.Weighs (Finsupp.linearCombination ℚ law vector)

namespace Founded

variable {dims base otherDims otherBase : Dimensions}

theorem base_eq (founded : Founded law labels dims base) (other : Founded law labels dims otherBase) :
    base = otherBase := by
  obtain ⟨vector, -, weighs, baseWeighs⟩ := founded
  obtain ⟨otherVector, -, otherWeighs, otherBaseWeighs⟩ := other
  obtain rfl := weighs.vector_eq otherWeighs
  exact baseWeighs.unique otherBaseWeighs

theorem mem_labels (founded : Founded law labels dims base) {entry : String × Float}
    (member : entry ∈ dims.entries) : entry.1 ∈ labels := by
  obtain ⟨vector, supported, weighs, -⟩ := founded
  exact supported (Finsupp.mem_support_iff.mpr (weighs.entry member).1)

theorem isFinite (founded : Founded law labels dims base) {entry : String × Float}
    (member : entry ∈ dims.entries) : entry.2.isFinite = true := by
  obtain ⟨vector, -, weighs, -⟩ := founded
  exact Number.isFinite_of_rational (weighs.entry member).2

theorem scalar : Founded law labels .scalar .scalar :=
  ⟨0, Submodule.zero_mem _, .scalar, by simpa using Weighs.scalar⟩

theorem single {label : String} (member : label ∈ labels) (weighs : base.Weighs (law label)) :
    Founded law labels (.single label) base :=
  ⟨Finsupp.single label 1, Finsupp.single_mem_supported ℚ 1 member, .single label, by simpa using weighs⟩

theorem times (founded : Founded law labels dims base) (other : Founded law labels otherDims otherBase)
    (exact : dims.CombinesExactly 1 otherDims ∧ base.CombinesExactly 1 otherBase) :
    Founded law labels (dims.times otherDims) (base.times otherBase) := by
  obtain ⟨vector, supported, weighs, baseWeighs⟩ := founded
  obtain ⟨otherVector, otherSupported, otherWeighs, otherBaseWeighs⟩ := other
  refine ⟨vector + otherVector, Submodule.add_mem _ supported otherSupported,
    weighs.times otherWeighs exact.1, ?_⟩
  rw [map_add]
  exact baseWeighs.times otherBaseWeighs exact.2

theorem divide (founded : Founded law labels dims base)
    (other : Founded law labels otherDims otherBase)
    (exact : dims.CombinesExactly (-1) otherDims ∧ base.CombinesExactly (-1) otherBase) :
    Founded law labels (dims.divide otherDims) (base.divide otherBase) := by
  obtain ⟨vector, supported, weighs, baseWeighs⟩ := founded
  obtain ⟨otherVector, otherSupported, otherWeighs, otherBaseWeighs⟩ := other
  refine ⟨vector - otherVector, Submodule.sub_mem _ supported otherSupported,
    weighs.divide otherWeighs exact.1, ?_⟩
  rw [map_sub]
  exact baseWeighs.divide otherBaseWeighs exact.2

theorem power {n : Float} (founded : Founded law labels dims base)
    (exact : dims.PowersExactly n ∧ base.PowersExactly n) :
    Founded law labels (dims.power n) (base.power n) := by
  obtain ⟨vector, supported, weighs, baseWeighs⟩ := founded
  refine ⟨_, Submodule.smul_mem _ _ supported, weighs.power exact.1, ?_⟩
  rw [map_smul]
  exact baseWeighs.power exact.2

end Founded

end Dimensions

namespace Kind

/-- The base dimensions, if there are any, are what the law makes of the dimensions. -/
def Founded (law : String → String →₀ ℚ) (labels : Set String) : Kind → Prop
  | .number dims base | .unit dims base => dims.Founded law labels base
  | .boolean | .booleanConstructor => True

/-- No exponent is rounded in the power. -/
def PowersExactly (n : Float) : Kind → Prop
  | .number dims base | .unit dims base => dims.PowersExactly n ∧ base.PowersExactly n
  | .boolean | .booleanConstructor => True

/-- No exponent is rounded in a product or quotient. A number over a unit takes its inverse. -/
def ScalesExactly (op : BinaryOp) (left right : Kind) : Prop :=
  match left, right with
  | .number dims base, .number otherDims otherBase | .unit dims base, .unit otherDims otherBase =>
    (op = .times → dims.CombinesExactly 1 otherDims ∧ base.CombinesExactly 1 otherBase) ∧
    (op = .divide → dims.CombinesExactly (-1) otherDims ∧ base.CombinesExactly (-1) otherBase)
  | .number _ _, .unit dims base =>
    op = .divide → dims.PowersExactly (-1) ∧ base.PowersExactly (-1)
  | _, _ => True

namespace Founded

variable {left right result : Kind}

theorem sign {op : SignOp} (founded : left.Founded law labels)
    (found : Kind.sign op left = some result) : result.Founded law labels := by
  cases op <;> cases left <;> cases found <;> exact founded

theorem power {n : Float} (founded : left.Founded law labels) (exact : left.PowersExactly n)
    (found : Kind.power n left = some result) : result.Founded law labels := by
  cases left with
  | number dims base | unit dims base =>
      cases found
      exact Dimensions.Founded.power founded exact
  | boolean | booleanConstructor => cases found

theorem times (founded : left.Founded law labels) (other : right.Founded law labels)
    (exact : ScalesExactly .times left right) (found : Kind.binary .times left right = some result) :
    result.Founded law labels := by
  cases scales_of_scale found with
  | numbers | units => exact Dimensions.Founded.times founded other (exact.1 rfl)
  | numberUnit => exact other
  | unitNumber => exact founded

theorem divide (founded : left.Founded law labels) (other : right.Founded law labels)
    (exact : ScalesExactly .divide left right)
    (found : Kind.binary .divide left right = some result) : result.Founded law labels := by
  cases scales_of_scale found with
  | numbers | units => exact Dimensions.Founded.divide founded other (exact.2 rfl)
  | numberUnit => exact Dimensions.Founded.power other (exact rfl)
  | unitNumber => exact founded

theorem add (founded : left.Founded law labels) (found : Kind.add left right = some result) :
    result.Founded law labels := by
  unfold Kind.add at found
  split at found
  next =>
    obtain ⟨-, ⟨⟩⟩ := Option.ite_none_right_eq_some.mp found
    exact founded
  next => cases found

theorem binary {op : BinaryOp} (founded : left.Founded law labels) (other : right.Founded law labels)
    (exact : ScalesExactly op left right) (found : Kind.binary op left right = some result) :
    result.Founded law labels := by
  cases op with
  | times => exact founded.times other exact found
  | divide => exact founded.divide other exact found
  | modulo | plus | minus => exact founded.add found
  | _ =>
      obtain rfl := compare_boolean found
      trivial

theorem instance? (founded : left.Founded law labels) (found : left.instance? = some result) :
    result.Founded law labels := by
  cases left with
  | booleanConstructor =>
      cases found
      trivial
  | unit dims base =>
      cases found
      exact founded
  | boolean | number dims base => cases found

end Founded

end Kind

end Quantities
