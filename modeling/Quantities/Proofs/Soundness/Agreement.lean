import Quantities.Proofs.Context.Bounded
import Quantities.Proofs.Kind.Evaluation
import Quantities.Proofs.Kind.Typing
import Quantities.Proofs.Kind.Subtype

/-!
Agreement of the types of names with their values. A program that runs may write to the cells that
lie under a scope, but only values of the kinds that are there, and so the scope still agrees when
it is found again.
-/

namespace Quantities

/-- Every name with a type has a value of the kind of the type. -/
def Agree (types values : String → Option Value) : Prop :=
  ∀ name type, types name = some type → ∃ v, values name = some v ∧ v.HasKind type.kind

/-- A context for a checker: the bindings lead to cells in use, and the dimensions of the types
store no zeros. -/
structure Context.Checkable (context : Context) : Prop where
  bounded : context.Bounded
  zeroFree : ∀ name type, context.getType? name = some type → type.kind.ZeroFree

/-- Every cell of the first context is there in the second one, with a value of the same kinds. -/
def Context.KeepsKinds (before after : Context) : Prop :=
  ∀ (cell : Nat) (v : Value), before.cells[cell]? = some v →
    ∃ later, after.cells[cell]? = some later ∧ ∀ kind, v.HasKind kind → later.HasKind kind

namespace Context

variable {context before middle after : Context}

theorem Checkable.addType (checkable : context.Checkable) {type : Value}
    (zeroFree : type.kind.ZeroFree) (name : String) : (context.addType name type).Checkable := by
  refine ⟨checkable.bounded.addType name type, ?_⟩
  intro other bound found
  rw [checkable.bounded.getType?_addType] at found
  split at found
  next =>
    cases found
    exact zeroFree
  next => exact checkable.zeroFree other bound found

theorem empty_checkable : empty.Checkable :=
  ⟨empty_bounded, fun _ _ found => by cases found⟩

theorem KeepsKinds.refl (context : Context) : context.KeepsKinds context :=
  fun _ v found => ⟨v, found, fun _ hasKind => hasKind⟩

theorem KeepsKinds.trans (first : before.KeepsKinds middle) (second : middle.KeepsKinds after) :
    before.KeepsKinds after := by
  intro cell v found
  obtain ⟨next, foundNext, keptFirst⟩ := first cell v found
  obtain ⟨later, foundLater, keptSecond⟩ := second cell next foundNext
  exact ⟨later, foundLater, fun kind hasKind => keptSecond kind (keptFirst kind hasKind)⟩

theorem lt_size_of_getElem? {cell : Nat} {v : Value} (found : context.cells[cell]? = some v) :
    cell < context.cells.size := (Array.getElem?_eq_some_iff.mp found).1

theorem keepsKinds_addValue (context : Context) (name : String) (v : Value) :
    context.KeepsKinds (context.addValue name v) := by
  intro cell old found
  have kept : (context.addValue name v).cells[cell]? = some old := by
    change (context.cells.push v)[cell]? = some old
    rw [getElem?_push_of_lt (lt_size_of_getElem? found), found]
  exact ⟨old, kept, fun _ hasKind => hasKind⟩

/-- What is done to the cells under a scope stays when the scope is left. -/
theorem KeepsKinds.leave (kept : before.KeepsKinds after) (scope : Scope) :
    before.KeepsKinds (after.leave ⟨scope, before.cells.size⟩) := by
  intro cell v found
  obtain ⟨later, foundLater, sameKinds⟩ := kept cell v found
  refine ⟨later, ?_, sameKinds⟩
  have bound := lt_size_of_getElem? found
  have laterBound := lt_size_of_getElem? foundLater
  simp only [Context.leave, Array.take_eq_extract]
  rw [Array.getElem?_extract, if_pos (by omega), Nat.zero_add]
  exact foundLater

theorem keepsKinds_setValue? {name : String} {present v : Value}
    (found : before.getValue? name = some present)
    (sameKinds : ∀ kind, present.HasKind kind → v.HasKind kind)
    (written : before.setValue? name v = some after) : before.KeepsKinds after := by
  obtain ⟨cell, bound, cellFound⟩ := Option.bind_eq_some_iff.mp found
  simp only [setValue?, bound, Option.bind_eq_bind, Option.bind_some, Option.pure_def,
    Option.some.injEq] at written
  subst written
  intro other old oldFound
  by_cases same : cell = other
  · subst same
    have size := lt_size_of_getElem? oldFound
    refine ⟨v, by simp [size], ?_⟩
    rw [cellFound] at oldFound
    cases oldFound
    exact sameKinds
  · refine ⟨old, ?_, fun _ hasKind => hasKind⟩
    simp only [Array.getElem?_setIfInBounds_ne same]
    exact oldFound

end Context

namespace Agree

variable {types : String → Option Value} {before after : Context}

theorem names {values : String → Option Value} (agree : Agree types values) (name : String)
    (kind : Kind) (found : kindsOf types name = some kind) :
    ∃ v, values name = some v ∧ v.HasKind kind := by
  obtain ⟨type, bound, rfl⟩ := Option.map_eq_some_iff.mp found
  exact agree name type bound

theorem of_keepsKinds (agree : Agree types before.getValue?) (kept : before.KeepsKinds after)
    (sameScope : after.scope.values = before.scope.values) : Agree types after.getValue? := by
  intro name type bound
  obtain ⟨v, found, hasKind⟩ := agree name type bound
  obtain ⟨cell, cellBound, cellFound⟩ := Option.bind_eq_some_iff.mp found
  obtain ⟨later, laterFound, sameKinds⟩ := kept cell v cellFound
  refine ⟨later, ?_, sameKinds type.kind hasKind⟩
  simp [Context.getValue?, sameScope, cellBound, laterFound]

theorem declare {checker evaluator : Context} (checkable : checker.Checkable)
    (agree : Agree checker.getType? evaluator.getValue?) {type v : Value}
    (hasKind : v.HasKind type.kind) (name : String) :
    Agree (checker.addType name type).getType? (evaluator.addValue name v).getValue? := by
  intro other bound found
  rw [checkable.bounded.getType?_addType] at found
  by_cases same : other = name
  · subst same
    rw [if_pos rfl] at found
    cases found
    refine ⟨v, ?_, hasKind⟩
    simp [Context.getValue?, Context.addValue]
  · rw [if_neg same] at found
    obtain ⟨old, oldFound, oldKind⟩ := agree other bound found
    obtain ⟨cell, cellBound, cellFound⟩ := Option.bind_eq_some_iff.mp oldFound
    refine ⟨old, ?_, oldKind⟩
    have kept : (evaluator.cells.push v)[cell]? = some old := by
      rw [Context.getElem?_push_of_lt (Context.lt_size_of_getElem? cellFound), cellFound]
    simp [Context.getValue?, Context.addValue, Scope.lookup_cons, same, cellBound, kept]

end Agree

end Quantities
