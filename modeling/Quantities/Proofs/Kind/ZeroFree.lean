import Quantities.Proofs.Dimensions.ZeroFree
import Quantities.Proofs.Kind

/-!
The dimensions in the kinds of expressions store no zeros, if those in the kinds of names do not.
-/

namespace Quantities

namespace Kind

def ZeroFree : Kind → Prop
  | .number dims base | .unit dims base => dims.ZeroFree ∧ base.ZeroFree
  | .boolean | .booleanConstructor => True

theorem scalar_zeroFree : Dimensions.scalar.ZeroFree ∧ Dimensions.scalar.ZeroFree :=
  ⟨Dimensions.scalar_zeroFree, Dimensions.scalar_zeroFree⟩

theorem ZeroFree.sign {op : SignOp} {operand result : Kind} (zeroFree : operand.ZeroFree)
    (found : Kind.sign op operand = some result) : result.ZeroFree := by
  cases op <;> cases operand <;> cases found <;> exact zeroFree

theorem power_zeroFree {exponent : Float} {base result : Kind}
    (found : Kind.power exponent base = some result) : result.ZeroFree := by
  cases base with
  | number dims base | unit dims base =>
      cases found
      exact ⟨Dimensions.power_zeroFree _ _, Dimensions.power_zeroFree _ _⟩
  | boolean | booleanConstructor => cases found

/-- What a product or quotient makes of which kinds. -/
inductive Scales (combine : Dimensions → Dimensions → Dimensions) (under : Dimensions → Dimensions) :
    Kind → Kind → Kind → Prop where
  | numbers (dims base otherDims otherBase : Dimensions) :
      Scales combine under (.number dims base) (.number otherDims otherBase)
        (.number (combine dims otherDims) (combine base otherBase))
  | numberUnit (numberDims numberBase dims base : Dimensions) :
      Scales combine under (.number numberDims numberBase) (.unit dims base)
        (.unit (under dims) (under base))
  | unitNumber (dims base numberDims numberBase : Dimensions) :
      Scales combine under (.unit dims base) (.number numberDims numberBase) (.unit dims base)
  | units (dims base otherDims otherBase : Dimensions) :
      Scales combine under (.unit dims base) (.unit otherDims otherBase)
        (.unit (combine dims otherDims) (combine base otherBase))

theorem scales_of_scale {combine : Dimensions → Dimensions → Dimensions}
    {under : Dimensions → Dimensions} {left right result : Kind}
    (found : Kind.scale combine under left right = some result) :
    Scales combine under left right result := by
  unfold Kind.scale at found
  split at found
  next =>
    cases found
    exact .numbers _ _ _ _
  next =>
    obtain ⟨-, ⟨⟩⟩ := Option.ite_none_right_eq_some.mp found
    exact .numberUnit _ _ _ _
  next =>
    obtain ⟨-, ⟨⟩⟩ := Option.ite_none_right_eq_some.mp found
    exact .unitNumber _ _ _ _
  next =>
    cases found
    exact .units _ _ _ _
  next => cases found

theorem ZeroFree.scale {combine : Dimensions → Dimensions → Dimensions}
    {under : Dimensions → Dimensions} {left right result : Kind}
    (combined : ∀ {dims}, dims.ZeroFree → ∀ other, (combine dims other).ZeroFree)
    (scaled : ∀ {dims}, dims.ZeroFree → (under dims).ZeroFree)
    (leftFree : left.ZeroFree) (rightFree : right.ZeroFree)
    (found : Kind.scale combine under left right = some result) : result.ZeroFree := by
  cases scales_of_scale found with
  | numbers | units => exact ⟨combined leftFree.1 _, combined leftFree.2 _⟩
  | numberUnit => exact ⟨scaled rightFree.1, scaled rightFree.2⟩
  | unitNumber => exact leftFree

theorem ZeroFree.add {left right result : Kind} (zeroFree : left.ZeroFree)
    (found : Kind.add left right = some result) : result.ZeroFree := by
  unfold Kind.add at found
  split at found
  next =>
    obtain ⟨-, ⟨⟩⟩ := Option.ite_none_right_eq_some.mp found
    exact zeroFree
  next => cases found

theorem compare_boolean {op : BinaryOp} {left right result : Kind}
    (found : Kind.compare op left right = some result) : result = .boolean := by
  unfold Kind.compare at found
  split at found
  next => exact (Option.some.inj (Option.ite_none_right_eq_some.mp found).2).symm
  next => exact (Option.some.inj (Option.ite_none_right_eq_some.mp found).2).symm
  next => cases found

theorem ZeroFree.binary {op : BinaryOp} {left right result : Kind} (leftFree : left.ZeroFree)
    (rightFree : right.ZeroFree) (found : Kind.binary op left right = some result) :
    result.ZeroFree := by
  cases op with
  | times => exact leftFree.scale .times id rightFree found
  | divide => exact leftFree.scale .divide (fun _ => Dimensions.power_zeroFree _ _) rightFree found
  | modulo | plus | minus => exact leftFree.add found
  | _ =>
      have boolean := compare_boolean found
      subst boolean
      trivial

theorem logical_boolean {left right result : Kind}
    (found : Kind.logical left right = some result) : result = .boolean := by
  cases left <;> cases right <;> cases found
  rfl

theorem instance_of_ascribe {operand unit result : Kind}
    (found : Kind.ascribe operand unit = some result) : unit.instance? = some result := by
  unfold Kind.ascribe at found
  split at found
  next => exact (Option.ite_none_right_eq_some.mp found).2
  next => cases found

theorem instance_of_convert {operand unit result : Kind}
    (found : Kind.convert operand unit = some result) : unit.instance? = some result := by
  unfold Kind.convert at found
  split at found
  next => exact (Option.ite_none_right_eq_some.mp found).2
  next => cases found

theorem ZeroFree.instance? {constructor result : Kind} (zeroFree : constructor.ZeroFree)
    (found : constructor.instance? = some result) : result.ZeroFree := by
  cases constructor with
  | booleanConstructor =>
      cases found
      trivial
  | unit dims base =>
      cases found
      exact zeroFree
  | boolean | number dims base => cases found

end Kind

theorem Expr.kind?_zeroFree {kinds : String → Option Kind}
    (names : ∀ name kind, kinds name = some kind → kind.ZeroFree) {e : Expr} {kind : Kind}
    (found : e.kind? kinds = some kind) : kind.ZeroFree := by
  induction e generalizing kind with
  | number location x =>
      cases found
      exact Kind.scalar_zeroFree
  | bool location truth =>
      cases found
      trivial
  | typeWord location word =>
      cases word with
      | boolean =>
          cases found
          trivial
      | scalar =>
          cases found
          exact Kind.scalar_zeroFree
  | name location text => exact names text kind found
  | paren location inner ih => exact ih found
  | sign location op operand ih =>
      obtain ⟨operandKind, operandFound, found⟩ := Option.bind_eq_some_iff.mp found
      exact (ih operandFound).sign found
  | power location base exponent ih =>
      obtain ⟨baseKind, baseFound, found⟩ := Option.bind_eq_some_iff.mp found
      exact Kind.power_zeroFree found
  | binary location op left right leftIh rightIh =>
      obtain ⟨leftKind, leftFound, found⟩ := Option.bind_eq_some_iff.mp found
      obtain ⟨rightKind, rightFound, found⟩ := Option.bind_eq_some_iff.mp found
      exact (leftIh leftFound).binary (rightIh rightFound) found
  | logical location op left right leftIh rightIh =>
      obtain ⟨leftKind, leftFound, found⟩ := Option.bind_eq_some_iff.mp found
      obtain ⟨rightKind, rightFound, found⟩ := Option.bind_eq_some_iff.mp found
      rw [Kind.logical_boolean found]
      trivial
  | ascription location operand unit operandIh unitIh =>
      obtain ⟨operandKind, operandFound, found⟩ := Option.bind_eq_some_iff.mp found
      obtain ⟨unitKind, unitFound, found⟩ := Option.bind_eq_some_iff.mp found
      exact (unitIh unitFound).instance? (Kind.instance_of_ascribe found)
  | conversion location operand unit operandIh unitIh =>
      obtain ⟨operandKind, operandFound, found⟩ := Option.bind_eq_some_iff.mp found
      obtain ⟨unitKind, unitFound, found⟩ := Option.bind_eq_some_iff.mp found
      exact (unitIh unitFound).instance? (Kind.instance_of_convert found)

end Quantities
