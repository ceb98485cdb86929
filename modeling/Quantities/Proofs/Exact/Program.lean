import Quantities.Proofs.Exact.Frozen

/-!
Whole programs. What is known of types is what a run computes, at every statement that it comes to,
exactly as long as no assignment turns the sign of a zero. The two zeros compare equal, and so such
an assignment is accepted although the quotients by them differ.
-/

namespace Quantities

/-- What is known of types in the first context is so in the second one. -/
structure Folds (checker evaluator : Context) : Prop where
  names : Exact checker.getType? evaluator.getValue?
  expressions : ∀ (e : Expr) (type : Value), e.infer checker.getType? = .ok type →
    type.isKnown = true → e.eval evaluator.getValue? = .ok type

/-- Wherever a run comes to a statement, at any depth and in any round of a loop, and when that
statement has run. -/
def FoldsThroughout (program : List Stmt) (checker evaluator : Context) : Prop :=
  ∀ found inner outer, Visits program checker evaluator found inner outer →
    Folds inner outer ∧ ∀ rounds v after, found.run rounds outer = some ⟨.ok v, after⟩ →
      Folds (found.check inner).context after

variable {program : List Stmt} {checker evaluator inner outer : Context} {found : Stmt}

theorem Exact.folds (exact : Exact checker.getType? evaluator.getValue?) :
    Folds checker evaluator :=
  ⟨exact, fun _ _ inferred => (Expr.infer_exact exact inferred).2⟩

namespace Visits

theorem accepted (visits : Visits program checker evaluator found inner outer)
    {last type : Option Value} (checkable : checker.Checkable)
    (checked : (Stmt.checkAll program last checker).result = .ok type) :
    inner.Checkable ∧ ∃ given, (found.check inner).result = .ok given :=
  (visits.keep (fun types _ => types.Checkable)
    (fun _ _ holds _ => Stmt.check_checkable holds _) (fun _ _ _ holds _ => holds) checkable
    checked).symm

theorem trans {within : Stmt} {innermost outermost : Context}
    (visits : Visits program checker evaluator found inner outer)
    (further : Visits [found] inner outer within innermost outermost) :
    Visits program checker evaluator within innermost outermost := by
  induction visits with
  | first => exact further.weaken
  | later ran visits ih => exact .later ran (ih further)
  | block visits ih => exact .block (ih further)
  | yes holds visits ih => exact .yes holds (ih further)
  | no fails visits ih => exact .no fails (ih further)
  | round holds visits ih => exact .round holds (ih further)
  | nextRound holds ran visits ih => exact .nextRound holds ran (ih further)

theorem frozen (visits : Visits program checker evaluator found inner outer) {cells : Set Nat}
    {last type : Option Value} (frozen : Frozen cells checker evaluator)
    (checkable : checker.Checkable) (wellFormed : evaluator.WellFormed)
    (checked : (Stmt.checkAll program last checker).result = .ok type)
    (keeps : Stmt.AllKeepZeros program checker evaluator) :
    outer.WellFormed ∧ ∃ cells, Frozen cells inner outer := by
  have inside {stmt : Stmt} {types values : Context}
      (reached : Visits program checker evaluator stmt types values) :
      Stmt.AllKeepZeros [stmt] types values :=
    fun within innermost outermost further => keeps within innermost outermost (reached.trans further)
  refine (visits.keep (fun types values =>
    types.Checkable ∧ values.WellFormed ∧ ∃ cells, Frozen cells types values) ?_ ?_
    ⟨checkable, wellFormed, cells, frozen⟩ checked).2.2
  · intro stmt types values after given v rounds reached stmtOk holds ran
    obtain ⟨typesCheckable, valuesFormed, cells, frozen⟩ := holds
    obtain ⟨-, more, -, frozenMore⟩ :=
      Stmt.run_stays stmt frozen typesCheckable valuesFormed stmtOk (inside reached) ran
    exact ⟨Stmt.check_checkable typesCheckable stmt, (Stmt.run_grows stmt valuesFormed ran).wellFormed,
      more, frozenMore⟩
  · intro location condition body types values after given v rounds reached goesOn bodyOk holds ran
    obtain ⟨typesCheckable, valuesFormed, cells, frozen⟩ := holds
    have stays := Stmt.run_stays body frozen typesCheckable valuesFormed bodyOk
      (inside (reached.trans (.round goesOn .first))) ran
    exact ⟨typesCheckable, ((Stmt.run_grows body valuesFormed ran).leave valuesFormed).wellFormed,
      cells, frozen.of_unchanged (frozen.leave stays.1).1 rfl⟩

end Visits

namespace Value

/-- What may replace a known value may also be kept where any value of its type is expected. -/
theorem isSubtypeOf_abstractType {v present : Value} (bare : v.unwrap = v)
    (known : present.isKnown = true) (subtype : v.isSubtypeOf present = true) :
    v.isKnown = true ∧ v.isSubtypeOf present.abstractType = true := by
  cases v with
  | hole name inner => exact absurd bare (unwrap_ne_hole _ _ _)
  | boolean truth =>
      cases present with
      | booleanType | quantityType unit | hole name inner => cases known
      | boolean other => exact ⟨rfl, rfl⟩
      | _ => cases subtype
  | booleanConstructor =>
      cases present with
      | booleanType | quantityType unit | hole name inner => cases known
      | booleanConstructor => exact ⟨rfl, rfl⟩
      | _ => cases subtype
  | quantity q =>
      cases present with
      | booleanType | quantityType unit | hole name inner => cases known
      | quantity other => exact ⟨rfl, (Bool.and_eq_true_iff.mp subtype).2⟩
      | _ => cases subtype
  | unitConstructor unit =>
      cases present with
      | booleanType | quantityType unit | hole name inner => cases known
      | unitConstructor other => exact ⟨rfl, subtype⟩
      | _ => cases subtype
  | booleanType | quantityType unit =>
      cases present with
      | booleanType | quantityType unit | hole name inner => cases known
      | _ => cases subtype

theorem keepsZeros_of_unknown (v : Value) {present : Value} (unknown : present.isKnown = false) :
    v.KeepsZeros present := by
  cases present with
  | booleanType | quantityType unit | hole name inner => cases v <;> trivial
  | _ => cases unknown

end Value

/-- An assignment after which the names are as known as before has not turned the sign of a zero. -/
theorem Stmt.keepsZeros_of_folds {given : Option Value} (before : Folds inner outer)
    (accepted : (found.check inner).result = .ok given)
    (afterwards : ∀ rounds v after, found.run rounds outer = some ⟨.ok v, after⟩ →
      Folds (found.check inner).context after) : found.KeepsZeros inner.getType? := by
  cases found with
  | assign location name rhs =>
      intro declared type bound inferred
      change (Typing.assignmentType inner.getType? location name rhs).map some = .ok given at accepted
      obtain ⟨assigned, typed, -⟩ := Result.map_eq_ok.mp accepted
      obtain ⟨declared', bound', inferred', subtype⟩ := assignmentType_eq_ok typed
      cases Option.some.inj (bound.symm.trans bound')
      cases Except.ok.inj (inferred.symm.trans inferred')
      cases known : declared.unwrap.isKnown with
      | false => exact type.keepsZeros_of_unknown known
      | true =>
          obtain ⟨typeKnown, fits⟩ := Value.isSubtypeOf_abstractType
            (Expr.infer_exact before.names inferred).1 known subtype
          have evaluated := before.expressions rhs type inferred typeKnown
          have present := before.names name declared bound known
          obtain ⟨cell, found, held⟩ := Option.bind_eq_some_iff.mp present
          have value : Evaluation.assignedValue outer.getValue? location name rhs = .ok type := by
            simp [Evaluation.assignedValue, present, evaluated, fits, bind, Except.bind, pure,
              Except.pure]
          have wrote : outer.setValue? name type =
              some { outer with cells := outer.cells.setIfInBounds cell type } := by
            simp [Context.setValue?, found]
          have ran : (Stmt.assign location name rhs).run 0 outer =
              some ⟨.ok (some type),
                { outer with cells := outer.cells.setIfInBounds cell type }⟩ := by
            rw [run, value, Evaluation.assign]
            simp only [wrote]
          have after := (afterwards _ _ _ ran).names name declared bound known
          have reads : Context.getValue?
              { outer with cells := outer.cells.setIfInBounds cell type } name = some type := by
            have inUse := Context.lt_size_of_getElem? held
            simp [Context.getValue?, found, inUse]
          rw [← Option.some.inj (reads.symm.trans after)]
          exact .refl type
  | _ => trivial

/-- What the check knows holds throughout a run exactly when no assignment that the run comes to
turns the sign of a zero. -/
theorem foldsThroughout_iff_allKeepZeros {type : Option Value} (checkable : checker.Checkable)
    (wellFormed : evaluator.WellFormed) (exact : Exact checker.getType? evaluator.getValue?)
    (accepted : (Stmt.checkAll program none checker).result = .ok type) :
    FoldsThroughout program checker evaluator ↔ Stmt.AllKeepZeros program checker evaluator := by
  constructor
  · intro folds found inner outer visits
    obtain ⟨before, afterwards⟩ := folds found inner outer visits
    obtain ⟨-, given, foundOk⟩ := visits.accepted checkable accepted
    exact Stmt.keepsZeros_of_folds before foundOk afterwards
  · intro keeps found inner outer visits
    obtain ⟨cells, frozen⟩ := Frozen.of_exact wellFormed exact
    obtain ⟨innerCheckable, given, foundOk⟩ := visits.accepted checkable accepted
    obtain ⟨outerFormed, cells, outerFrozen⟩ :=
      visits.frozen frozen checkable wellFormed accepted keeps
    refine ⟨outerFrozen.exact.folds, fun rounds v after ran => ?_⟩
    obtain ⟨-, more, -, frozenMore⟩ :=
      Stmt.run_stays found outerFrozen innerCheckable outerFormed foundOk
        (fun within innermost outermost further =>
          keeps within innermost outermost (visits.trans further)) ran
    exact frozenMore.exact.folds

/-- A name that is bound to zero and then assigned the zero with a minus sign. -/
def turned : List Stmt :=
  let here := Location.nowhere
  let zero := Expr.number here 0
  [.constant here "x" zero, .assign here "x" (.sign here .minus zero),
    .constant here "above"
      (.binary here .greater (.binary here .divide (.number here 1) (.name here "x")) zero)]

theorem turned_folds_iff :
    Context.empty.Checkable ∧ Context.empty.WellFormed ∧
      (Stmt.checkAll turned none .empty).result = .ok (some (.boolean true)) ∧
      (FoldsThroughout turned .empty .empty ↔ Stmt.AllKeepZeros turned .empty .empty) := by
  have exact : Exact Context.empty.getType? Context.empty.getValue? := by
    intro name type found
    cases found
  have accepted : (Stmt.checkAll turned none .empty).result = .ok (some (.boolean true)) := rfl
  exact ⟨Context.empty_checkable, Context.empty_wellFormed, accepted,
    foldsThroughout_iff_allKeepZeros Context.empty_checkable Context.empty_wellFormed exact
      accepted⟩

theorem turned_differs :
    (Stmt.checkAll turned none .empty).result = .ok (some (.boolean true)) ∧
      (Stmt.checkAll turned none .empty).context.getType? "above" = some (.boolean true) ∧
      ∃ after, Stmt.runAll 0 turned none .empty = some ⟨.ok (some (.boolean false)), after⟩ ∧
        after.getValue? "above" = some (.boolean false) ∧
        ¬ Exact (Stmt.checkAll turned none .empty).context.getType? after.getValue? := by
  refine ⟨rfl, rfl, _, rfl, rfl, fun exact => ?_⟩
  have same := exact "above" (.boolean true) rfl rfl
  cases same

end Quantities
