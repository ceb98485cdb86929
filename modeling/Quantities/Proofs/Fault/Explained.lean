import Quantities.Evaluation.Statement
import Quantities.Proofs.Context.Checking
import Quantities.Proofs.Context.Running
import Quantities.Proofs.Fault.Origin
import Quantities.Typing.Statement

/-!
Every fault tells what is wrong. The operations on values have no result for some operands and do not
say why, but the rules of checking and of evaluation look at the operands first: an operation is reached
only with operands for which it has a result, whatever the names are bound to.
-/

namespace Quantities

/-- An operation that has failed has a code of its own in each phase. -/
theorem Fault.explained_iff_code (fault : Fault) :
    fault.Explained ↔ ∀ phase, (fault.diagnostic phase).code ∉ ["E2011", "E6011"] := by
  obtain ⟨location, problem⟩ := fault
  cases problem with
  | operationFailed reason =>
      refine iff_of_false Bool.false_ne_true fun codes => ?_
      exact codes .typing List.mem_cons_self
  | _ =>
      refine iff_of_true rfl fun phase => ?_
      simp only [diagnostic, Problem.code, Problem.codePhase, Problem.number]
      cases phase <;> decide

open Fault (Explained)

namespace Expr

theorem infer_explained (types : String → Option Value) (e : Expr) :
    FailsOnly Explained (e.infer types) := (infer_leftToRight types).explained e

theorem eval_explained (values : String → Option Value) (e : Expr) :
    FailsOnly Explained (e.eval values) := (eval_leftToRight values).explained e

end Expr

theorem instanceType_explained {location : Location} {v : Value} :
    FailsOnly Explained (instanceType location v) := by
  unfold instanceType
  split
  · exact .ok
  · exact .refuse rfl

namespace Typing

variable {types : String → Option Value}

theorem optional_explained (e? : Option Expr) : FailsOnly Explained (optional types e?) := by
  cases e? with
  | none => exact .ok
  | some e => exact (e.infer_explained types).map

theorem condition_explained (e : Expr) : FailsOnly Explained (condition types e) :=
  .bind (e.infer_explained types) fun _ _ => .ite (fun _ => .ok) fun _ => .refuse rfl

theorem declaredType_explained (e? : Option Expr) : FailsOnly Explained (declaredType types e?) := by
  cases e? with
  | none => exact .ok
  | some e =>
      exact .bind (e.infer_explained types) fun _ _ => .bind instanceType_explained fun _ _ => .ok

theorem variableType_explained (location : Location) (declared initial : Option Expr) :
    FailsOnly Explained (variableType types location declared initial) := by
  refine .bind (declaredType_explained declared) fun _ _ =>
    .bind (optional_explained initial) fun _ _ => ?_
  split
  · exact .ite (fun _ => .ok) fun _ => .refuse rfl
  · exact .ok
  · exact .ok
  · exact .refuse rfl

theorem unitType_explained (name : String) (definition : Option Expr) :
    FailsOnly Explained (unitType types name definition) := by
  cases definition with
  | none => exact .ok
  | some e =>
      refine .bind (e.infer_explained types) fun _ _ => ?_
      split
      · exact .ok
      · split
        · exact .refuse rfl
        · exact .refuse rfl

theorem assignmentType_explained (location : Location) (name : String) (rhs : Expr) :
    FailsOnly Explained (assignmentType types location name rhs) := by
  unfold assignmentType
  split
  · exact .refuse rfl
  · exact .bind (rhs.infer_explained types) fun _ _ => .ite (fun _ => .ok) fun _ => .refuse rfl

end Typing

namespace Evaluation

variable {values : String → Option Value}

theorem optional_explained (e? : Option Expr) : FailsOnly Explained (optional values e?) := by
  cases e? with
  | none => exact .ok
  | some e => exact (e.eval_explained values).map

theorem condition_explained (e : Expr) : FailsOnly Explained (condition values e) :=
  .bind (e.eval_explained values) fun _ _ =>
    truth_accounted.imp fun _ accounted => accounted.explained

theorem declaredType_explained (e? : Option Expr) :
    FailsOnly Explained (declaredType values e?) := by
  cases e? with
  | none => exact .ok
  | some e =>
      exact .bind (e.eval_explained values) fun _ _ => .bind instanceType_explained fun _ _ => .ok

theorem variableValue_explained (location : Location) (name : String)
    (declared initial : Option Expr) :
    FailsOnly Explained (variableValue values location name declared initial) := by
  refine .bind (declaredType_explained declared) fun _ _ =>
    .bind (optional_explained initial) fun _ _ => ?_
  split
  · exact .ite (fun _ => .ok) fun _ => .refuse rfl
  · exact .ok
  · exact .ok
  · exact .refuse rfl

theorem unitValue_explained (name : String) (definition : Option Expr) :
    FailsOnly Explained (unitValue values name definition) := by
  cases definition with
  | none => exact .ok
  | some e =>
      refine .bind (e.eval_explained values) fun _ _ => ?_
      split
      · exact .ok
      · exact .refuse rfl

theorem assignedValue_explained (location : Location) (name : String) (rhs : Expr) :
    FailsOnly Explained (assignedValue values location name rhs) := by
  unfold assignedValue
  split
  · exact .refuse rfl
  · exact .bind (rhs.eval_explained values) fun _ _ => .ite (fun _ => .ok) fun _ => .refuse rfl

theorem assign_explained {location : Location} {name : String} {result : Except Fault Value}
    {context : Context} (explained : FailsOnly Explained result) :
    FailsOnly Explained (assign location name result context).result := by
  unfold assign
  split
  next fault => exact .error (explained fault rfl)
  next =>
    split
    · exact .ok
    · exact .refuse rfl

end Evaluation

namespace Step

variable {α β : Type} {context : Context} {result : Except Fault Value}

theorem andThen_explained {step : Step α} {next : α → Context → Step β}
    (explained : FailsOnly Explained step.result)
    (nextExplained : ∀ v context, FailsOnly Explained (next v context).result) :
    FailsOnly Explained (step.andThen next).result := by
  unfold andThen
  split
  next => exact nextExplained _ _
  next fault failed => exact .error (explained fault failed)

theorem bind_explained (explained : FailsOnly Explained result) (add : Value → Context) :
    FailsOnly Explained (bind context result add).result := by
  rw [bind_result]
  exact explained.map

end Step

namespace Stmt

mutual

theorem check_explained (stmt : Stmt) (context : Context) :
    FailsOnly Explained (stmt.check context).result := by
  cases stmt with
  | empty location => exact .ok
  | block location body => exact (checkAll_explained body none context).map
  | branch location condition yes no =>
      rw [check]
      split
      next fault refused => exact .error (Typing.condition_explained condition fault refused)
      next =>
        refine Step.andThen_explained (check_explained yes context) fun _ inner => ?_
        cases no with
        | none => exact .ok
        | some no => exact (check_explained no inner).map
  | loop location condition body =>
      rw [check]
      split
      next fault refused => exact .error (Typing.condition_explained condition fault refused)
      next => exact (check_explained body context).map
  | var location name declared initial =>
      exact Step.bind_explained (Typing.variableType_explained location declared initial) _
  | unit location name definition =>
      exact Step.bind_explained (Typing.unitType_explained name definition) _
  | assign location name rhs => exact (Typing.assignmentType_explained location name rhs).map
  | constant location name rhs => exact Step.bind_explained (rhs.infer_explained _) _
  | expr location e => exact (e.infer_explained _).map

theorem checkAll_explained (body : List Stmt) (last : Option Value) (context : Context) :
    FailsOnly Explained (checkAll body last context).result := by
  cases body with
  | nil => exact .ok
  | cons first rest =>
      exact Step.andThen_explained (check_explained first context) fun v inner =>
        checkAll_explained rest v inner

end

mutual

theorem run_explained (rounds : Nat) (stmt : Stmt) (context : Context) {step : Step (Option Value)}
    (ran : stmt.run rounds context = some step) : FailsOnly Explained step.result := by
  cases stmt with
  | empty location =>
      cases ran
      exact .ok
  | block location body =>
      rw [run] at ran
      obtain ⟨inner, bodyRan, rfl⟩ := Option.map_eq_some_iff.mp ran
      exact (runAll_explained rounds body none context bodyRan).map
  | branch location condition yes no =>
      rw [run_branch] at ran
      split at ran
      next fault refused =>
        cases ran
        exact .error (Evaluation.condition_explained condition fault refused)
      next =>
        obtain ⟨inner, yesRan, rfl⟩ := Option.map_eq_some_iff.mp ran
        exact (run_explained rounds yes context yesRan).map
      next =>
        cases no with
        | none =>
            cases ran
            exact .ok
        | some no =>
            obtain ⟨inner, noRan, rfl⟩ := Option.map_eq_some_iff.mp ran
            exact (run_explained rounds no context noRan).map
  | loop location condition body =>
      rw [run] at ran
      obtain ⟨result, after⟩ := step
      rintro fault rfl
      obtain ⟨start, -, ⟨refused, -⟩ | ⟨-, bodyRan⟩⟩ :=
        Evaluation.repeatWhile_error (fun _ => True) (fun _ _ _ => trivial) trivial ran
      · exact Evaluation.condition_explained condition fault refused
      · obtain ⟨inner, innerRan, -⟩ := Step.left_eq_some bodyRan
        exact run_explained rounds body start innerRan fault rfl
  | var location name declared initial =>
      cases ran
      exact Step.bind_explained (Evaluation.variableValue_explained location name declared initial) _
  | unit location name definition =>
      cases ran
      exact Step.bind_explained (Evaluation.unitValue_explained name definition) _
  | assign location name rhs =>
      cases ran
      exact Evaluation.assign_explained (Evaluation.assignedValue_explained location name rhs)
  | constant location name rhs =>
      cases ran
      exact Step.bind_explained (rhs.eval_explained _) _
  | expr location e =>
      cases ran
      exact (e.eval_explained _).map

theorem runAll_explained (rounds : Nat) (body : List Stmt) (last : Option Value) (context : Context)
    {step : Step (Option Value)} (ran : runAll rounds body last context = some step) :
    FailsOnly Explained step.result := by
  cases body with
  | nil =>
      cases ran
      exact .ok
  | cons first rest =>
      rw [runAll] at ran
      rcases Evaluation.andThen_eq_some ran with
        ⟨v, inner, firstRan, restRan⟩ | ⟨fault, inner, firstRan, rfl⟩
      · exact runAll_explained rounds rest v inner restRan
      · exact run_explained rounds first context firstRan

end

/-- An operation on values never fails without a reason that was found before it is reached, neither in
checking nor in running, whatever is bound to the names. A type that is inferred is no hole. -/
theorem faults_explained :
    (∀ fault : Fault, fault.Explained ↔
      ∀ phase, (fault.diagnostic phase).code ∉ ["E2011", "E6011"]) ∧
    (∀ (types : String → Option Value) (e : Expr),
      FailsOnly Explained (e.infer types) ∧
        ∀ (name : String) (type : Value), e.infer types ≠ .ok (.hole name type)) ∧
    (∀ (values : String → Option Value) (e : Expr), FailsOnly Explained (e.eval values)) ∧
    (∀ (stmt : Stmt) (context : Context), FailsOnly Explained (stmt.check context).result) ∧
    ∀ (rounds : Nat) (stmt : Stmt) (context : Context) (step : Step (Option Value)),
      stmt.run rounds context = some step → FailsOnly Explained step.result :=
  ⟨Fault.explained_iff_code,
    fun types e => ⟨e.infer_explained types, fun name type inferred =>
      Value.unwrap_ne_hole type name type (Expr.unwrap_of_infer inferred)⟩,
    fun values e => e.eval_explained values, check_explained,
    fun rounds stmt context _ ran => run_explained rounds stmt context ran⟩

/-- A name may be bound to a hole even where a program runs. No sign goes in front of one, and the fault
says so. -/
theorem negated_hole_explained :
    let context := Context.empty.addValue "x" (.hole "y" .booleanType)
    let negated : Stmt := .expr .nowhere (.sign .nowhere .minus (.name .nowhere "x"))
    let fault : Fault := ⟨.nowhere, .notNumberOrUnit (.hole "y" .booleanType)⟩
    negated.run 0 context = some ⟨.error fault, context⟩ ∧ fault.Explained := by
  intro context negated fault
  have ran : negated.run 0 context = some ⟨.error fault, context⟩ := rfl
  obtain ⟨-, -, -, -, runs⟩ := faults_explained
  exact ⟨ran, runs 0 negated context _ ran fault rfl⟩

end Stmt

end Quantities
