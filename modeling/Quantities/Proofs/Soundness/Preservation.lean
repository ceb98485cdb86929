import Quantities.Proofs.Context.Checking
import Quantities.Proofs.Context.Running
import Quantities.Proofs.Soundness.Statement

/-!
What a statement does that was checked and ends well. It comes to what its type says, the values
agree with the types again, and the cells under a scope keep their kinds, so that the outer scope
agrees when it is found again.
-/

namespace Quantities

/-- A statement has a value exactly when it has a type, and then one of the kind of the type. -/
inductive Matches : Option Value → Option Value → Prop where
  | nothing : Matches none none
  | value {v type : Value} (hasKind : v.HasKind type.kind) : Matches (some v) (some type)

namespace Agree

variable {checker before after : Context}

/-- A nested scope is left with the values of the outer scope as they agreed before. -/
theorem leave (agree : Agree checker.getType? before.getValue?) (kept : before.KeepsKinds after) :
    Agree checker.getType? (after.leave before.mark).getValue? ∧
      before.KeepsKinds (after.leave before.mark) :=
  have left := kept.leave before.scope
  ⟨agree.of_keepsKinds left rfl, left⟩

end Agree

namespace Stmt

theorem unitType_zeroFree {types : String → Option Value}
    (zeroFree : ∀ name type, types name = some type → type.kind.ZeroFree) {name : String}
    {definition : Option Expr} {type : Value}
    (accepted : Typing.unitType types name definition = .ok type) : type.kind.ZeroFree := by
  cases definition with
  | none =>
      cases accepted
      exact ⟨Dimensions.single_zeroFree name, Dimensions.single_zeroFree name⟩
  | some e =>
      obtain ⟨given, inferred, accepted⟩ := Result.bind_eq_ok.mp accepted
      have givenFree := Expr.infer_zeroFree zeroFree inferred
      split at accepted
      next worth found =>
        cases accepted
        rcases Value.definedUnit?_kind found with number | unit
        · rw [number] at givenFree
          exact ⟨Dimensions.single_zeroFree name, givenFree.2⟩
        · rw [unit] at givenFree
          exact ⟨Dimensions.single_zeroFree name, givenFree.2⟩
      next => split at accepted <;> cases accepted

theorem check_zeroFree {context : Context} (checkable : context.Checkable) {stmt : Stmt}
    {name : String} {type : Value} (declares : stmt.declaredName? = some name)
    (accepted : (stmt.check context).result = .ok (some type)) : type.kind.ZeroFree := by
  have zeroFree := checkable.zeroFree
  have bound (result : Except Fault Value) (add : Value → Context)
      (accepted : (Step.bind context result add).result = .ok (some type)) : result = .ok type := by
    cases result <;> cases accepted
    rfl
  cases stmt with
  | var location name declared initial =>
      cases Typing.variableType_eq_ok (bound _ _ accepted) with
      | both constructed declares inferred subtype =>
          have sameKind := Value.kind_eq_of_isSubtypeOf (Expr.infer_zeroFree zeroFree inferred) subtype
          rw [← sameKind]
          exact Expr.infer_zeroFree zeroFree inferred
      | declared constructed declares =>
          have constructorFree := Expr.infer_zeroFree zeroFree constructed
          exact constructorFree.instance? (Value.instanceType?_eq_some declares).1
      | initial inferred =>
          rw [Value.kind_abstractType]
          exact Expr.infer_zeroFree zeroFree inferred
  | unit location name definition => exact unitType_zeroFree zeroFree (bound _ _ accepted)
  | constant location name rhs => exact Expr.infer_zeroFree zeroFree (bound _ _ accepted)
  | _ => cases declares

theorem check_checkable {context : Context} (checkable : context.Checkable) (stmt : Stmt) :
    (stmt.check context).context.Checkable := by
  rw [check_context]
  unfold Context.declare
  split
  next name type declares accepted =>
    exact checkable.addType (check_zeroFree checkable declares accepted) name
  next => exact checkable

/-- How a statement or a program ends that was checked to end in the context `checked`: with what
its type says, in agreement, and with cells of the kinds that they were. -/
structure AsChecked (checked evaluator : Context) (type v : Option Value) (after : Context) :
    Prop where
  fits : Matches v type
  agree : Agree checked.getType? after.getValue?
  kept : evaluator.KeepsKinds after

variable {checker evaluator after : Context} {v : Option Value}

theorem value_of_comes {stmt : Stmt} {values : String → Option Value} {kind : Kind}
    {result : Except Fault Value} (comes : stmt.Comes values kind result) {given : Value}
    (ended : result = .ok given) : given.HasKind kind := by
  rcases comes with ⟨other, found, hasKind⟩ | ⟨fault, failed, -⟩
  · rw [found] at ended
    cases ended
    exact hasKind
  · rw [failed] at ended
    cases ended

theorem bind_asChecked (checkable : checker.Checkable)
    (agree : Agree checker.getType? evaluator.getValue?) {stmt : Stmt} {name : String}
    {typing result : Except Fault Value} {type : Option Value}
    (accepted : (Step.bind checker typing (checker.addType name)).result = .ok type)
    (comes : ∀ given, typing = .ok given →
      stmt.Comes evaluator.getValue? given.kind result)
    (ran : Step.bind evaluator result (evaluator.addValue name) = ⟨.ok v, after⟩) :
    AsChecked (Step.bind checker typing (checker.addType name)).context evaluator type v after := by
  cases typing with
  | error fault => cases accepted
  | ok given =>
      cases accepted
      cases result with
      | error fault => cases ran
      | ok found =>
          cases ran
          have hasKind := value_of_comes (comes given rfl) rfl
          exact ⟨.value hasKind, agree.declare checkable hasKind name,
            Context.keepsKinds_addValue evaluator name found⟩

theorem scoped_asChecked (agree : Agree checker.getType? evaluator.getValue?) {inner : Context}
    (kept : evaluator.KeepsKinds inner) :
    AsChecked checker evaluator none none (inner.leave evaluator.mark) := by
  obtain ⟨leftAgree, leftKept⟩ := agree.leave kept
  exact ⟨.nothing, leftAgree, leftKept⟩

theorem assign_asChecked (checkable : checker.Checkable)
    (agree : Agree checker.getType? evaluator.getValue?) {location : Location} {name : String}
    {rhs : Expr} {type : Value}
    (accepted : Typing.assignmentType checker.getType? location name rhs = .ok type)
    (ran : Evaluation.assign location name
      (Evaluation.assignedValue evaluator.getValue? location name rhs) evaluator =
        ⟨.ok v, after⟩) :
    AsChecked checker evaluator (some type) v after := by
  have comes := assign_comes agree checkable.zeroFree accepted
  obtain ⟨declared, bound, inferred, subtype⟩ := assignmentType_eq_ok accepted
  obtain ⟨sameKind, -⟩ := assignment_kind checkable.zeroFree inferred subtype
  obtain ⟨present, found, presentKind⟩ := agree name declared bound
  cases result : Evaluation.assignedValue evaluator.getValue? location name rhs with
  | error fault =>
      rw [result] at ran
      cases ran
  | ok given =>
      have hasKind := value_of_comes comes result
      rw [result, Evaluation.assign] at ran
      split at ran
      next written wrote =>
        cases ran
        have kept := Context.keepsKinds_setValue? found (fun kind old => by
          rw [← old.kind_eq, presentKind.kind_eq, ← sameKind]
          exact hasKind) wrote
        refine ⟨.value hasKind, agree.of_keepsKinds kept ?_, kept⟩
        obtain ⟨cell, -, ⟨⟩⟩ := Option.bind_eq_some_iff.mp wrote
        rfl
      next => cases ran

mutual

theorem run_asChecked (stmt : Stmt) {checker evaluator after : Context} {rounds : Nat}
    {type v : Option Value} (checkable : checker.Checkable)
    (agree : Agree checker.getType? evaluator.getValue?)
    (accepted : (stmt.check checker).result = .ok type)
    (ran : stmt.run rounds evaluator = some ⟨.ok v, after⟩) :
    AsChecked (stmt.check checker).context evaluator type v after := by
  cases stmt with
  | empty location =>
      cases accepted
      cases ran
      exact ⟨.nothing, agree, .refl evaluator⟩
  | block location body =>
      rw [check_context]
      obtain ⟨rfl, last, bodyOk⟩ := check_block_eq_ok.mp accepted
      rw [run] at ran
      obtain ⟨rfl, result, inner, bodyRan, rfl⟩ := Step.scoped_eq_ok ran
      exact scoped_asChecked agree (runAll_asChecked body checkable agree bodyOk bodyRan .nothing).kept
  | branch location condition yes no =>
      rw [check_context]
      obtain ⟨rfl, conditionOk, ⟨yesLast, yesOk⟩, noOk⟩ := check_branch_eq_ok.mp accepted
      rw [run_branch] at ran
      split at ran
      next => cases ran
      next =>
        obtain ⟨rfl, result, inner, yesRan, rfl⟩ := Step.scoped_eq_ok ran
        exact scoped_asChecked agree (run_asChecked yes checkable agree yesOk yesRan).kept
      next =>
        cases no with
        | none =>
            cases ran
            exact ⟨.nothing, agree, .refl evaluator⟩
        | some no =>
            obtain ⟨noLast, noOk⟩ := noOk no rfl
            obtain ⟨rfl, result, inner, noRan, rfl⟩ := Step.scoped_eq_ok ran
            exact scoped_asChecked agree (run_asChecked no checkable agree noOk noRan).kept
  | loop location condition body =>
      rw [check_context]
      obtain ⟨rfl, conditionOk, last, bodyOk⟩ := check_loop_eq_ok.mp accepted
      rw [run] at ran
      -- Each round starts in a context that agrees with the one check of the body.
      obtain ⟨rfl, ended, kept⟩ := Evaluation.repeatWhile_ok
        (fun now => Agree checker.getType? now.getValue? ∧ evaluator.KeepsKinds now)
        (fun {before v between} holds _ ran => by
          obtain ⟨now, kept⟩ := holds
          obtain ⟨inner, bodyRan, rfl⟩ := Step.left_eq_some ran
          have bodyEnds := run_asChecked body checkable now bodyOk bodyRan
          obtain ⟨leftAgree, leftKept⟩ := now.leave bodyEnds.kept
          exact ⟨leftAgree, kept.trans leftKept⟩)
        ⟨agree, .refl evaluator⟩ ran
      exact ⟨.nothing, ended, kept⟩
  | var location name declared initial =>
      exact bind_asChecked checkable agree accepted
        (fun _ typed => var_comes agree checkable.zeroFree typed) (Option.some.inj ran)
  | unit location name definition =>
      exact bind_asChecked checkable agree accepted
        (fun _ typed => unit_comes agree location typed) (Option.some.inj ran)
  | assign location name rhs =>
      change (Typing.assignmentType checker.getType? location name rhs).map some = .ok type at accepted
      obtain ⟨given, typed, rfl⟩ := Result.map_eq_ok.mp accepted
      exact assign_asChecked checkable agree typed (Option.some.inj ran)
  | constant location name rhs =>
      exact bind_asChecked checkable agree accepted
        (fun _ typed => comes_of_expression agree (constant location name rhs)
          (List.mem_singleton_self rhs) typed)
        (Option.some.inj ran)
  | expr location e =>
      change (e.infer checker.getType?).map some = .ok type at accepted
      obtain ⟨given, typed, rfl⟩ := Result.map_eq_ok.mp accepted
      have comes := comes_of_expression agree (expr location e)
        (List.mem_singleton_self e) typed
      have ended : Step.yield evaluator (e.eval evaluator.getValue?) = ⟨.ok v, after⟩ :=
        Option.some.inj ran
      cases result : e.eval evaluator.getValue? with
      | error fault =>
          rw [result] at ended
          cases ended
      | ok found =>
          rw [result] at ended
          cases ended
          exact ⟨.value (value_of_comes comes result), agree, .refl evaluator⟩

theorem runAll_asChecked (body : List Stmt) {checker evaluator after : Context} {rounds : Nat}
    {lastType last type v : Option Value} (checkable : checker.Checkable)
    (agree : Agree checker.getType? evaluator.getValue?)
    (accepted : (checkAll body lastType checker).result = .ok type)
    (ran : runAll rounds body last evaluator = some ⟨.ok v, after⟩)
    (fits : Matches last lastType) :
    AsChecked (checkAll body lastType checker).context evaluator type v after := by
  cases body with
  | nil =>
      cases accepted
      cases ran
      exact ⟨fits, agree, .refl evaluator⟩
  | cons first rest =>
      obtain ⟨given, firstOk, continues⟩ := checkAll_cons_eq_ok accepted
      rw [continues] at accepted ⊢
      rw [runAll] at ran
      rcases Evaluation.andThen_eq_some ran with
        ⟨result, between, firstRan, restRan⟩ | ⟨fault, between, -, failed⟩
      · have firstEnds := run_asChecked first checkable agree firstOk firstRan
        have restEnds := runAll_asChecked rest (check_checkable checkable first) firstEnds.agree
          accepted restRan firstEnds.fits
        exact ⟨restEnds.fits, restEnds.agree, firstEnds.kept.trans restEnds.kept⟩
      · cases failed

end

end Stmt

end Quantities
