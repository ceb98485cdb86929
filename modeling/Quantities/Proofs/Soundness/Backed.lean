import Quantities.Proofs.Soundness.Points

/-!
Names with values and names with types. A run binds values to the names to which the check binds
types, so that a name with a value has a type wherever a run comes.
-/

namespace Quantities

/-- Every name with a value has a type. -/
def Backed (checker evaluator : Context) : Prop :=
  evaluator.scope.values.map (·.1) ⊆ checker.scope.types.map (·.1)

namespace Stmt

variable {checker before after : Context}

theorem bind_names {name : String} {result : Except Fault Value} {v : Option Value}
    (ran : Step.bind before result (before.addValue name) = ⟨.ok v, after⟩) :
    after.scope.values.map (·.1) = name :: before.scope.values.map (·.1) := by
  cases result with
  | error fault => cases ran
  | ok given =>
      cases ran
      rfl

theorem scoped_names {answer : Option (Step (Option Value))} {v : Option Value}
    (ran : (answer.map fun step => (step.leave before.mark).silent) = some ⟨.ok v, after⟩) :
    after.scope.values.map (·.1) = before.scope.values.map (·.1) := by
  obtain ⟨-, -, -, -, rfl⟩ := Step.scoped_eq_ok ran
  rfl

/-- A statement that ends well has bound its own name and no other one. -/
theorem run_names (stmt : Stmt) {rounds : Nat} {v : Option Value}
    (ran : stmt.run rounds before = some ⟨.ok v, after⟩) :
    after.scope.values.map (·.1) =
      stmt.declaredName?.toList ++ before.scope.values.map (·.1) := by
  cases stmt with
  | empty location =>
      cases ran
      rfl
  | block location body =>
      rw [run] at ran
      exact scoped_names ran
  | branch location condition yes no =>
      rw [run_branch] at ran
      split at ran
      next => cases ran
      next =>
        exact scoped_names ran
      next =>
        cases no with
        | none =>
            cases ran
            rfl
        | some no =>
            exact scoped_names ran
  | loop location condition body =>
      rw [run] at ran
      have ended := Evaluation.repeatWhile_ok
        (fun now => now.scope.values.map (·.1) = before.scope.values.map (·.1))
        (fun {now} last between same _ round => by
          obtain ⟨inner, -, rfl⟩ := Step.left_eq_some round
          exact same) rfl ran
      exact ended.2
  | var location name declared initial => exact bind_names (Option.some.inj ran)
  | unit location name definition => exact bind_names (Option.some.inj ran)
  | constant location name rhs => exact bind_names (Option.some.inj ran)
  | assign location name rhs =>
      have ran := Option.some.inj ran
      unfold Evaluation.assign at ran
      split at ran
      next => cases ran
      next =>
        split at ran
        next context wrote =>
          cases ran
          obtain ⟨cell, -, same⟩ := Option.bind_eq_some_iff.mp wrote
          cases same
          rfl
        next => cases ran
  | expr location e =>
      have ended := congrArg Step.context (Option.some.inj ran)
      cases ended
      rfl

theorem check_names (stmt : Stmt) (accepted : stmt.Accepted checker) :
    (stmt.check checker).context.scope.types.map (·.1) =
      stmt.declaredName?.toList ++ checker.scope.types.map (·.1) := by
  obtain ⟨type, accepted⟩ := accepted
  have bind_names (name : String) {result : Except Fault Value}
      (accepted : (Step.bind checker result (checker.addType name)).result = .ok type) :
      (Step.bind checker result (checker.addType name)).context.scope.types.map (·.1) =
        name :: checker.scope.types.map (·.1) := by
    cases result with
    | error fault => cases accepted
    | ok given => rfl
  cases stmt with
  | var location name declared initial => exact bind_names name accepted
  | unit location name definition => exact bind_names name accepted
  | constant location name rhs => exact bind_names name accepted
  | _ =>
      rw [check_context]
      rfl

theorem run_backed (stmt : Stmt) {rounds : Nat} {v : Option Value}
    (backed : Backed checker before) (accepted : stmt.Accepted checker)
    (ran : stmt.run rounds before = some ⟨.ok v, after⟩) :
    Backed (stmt.check checker).context after := by
  rw [Backed, run_names stmt ran, check_names stmt accepted]
  exact List.append_subset.mpr ⟨List.subset_append_left _ _,
    List.Subset.trans backed (List.subset_append_right _ _)⟩

theorem runAll_backed {body : List Stmt} {rounds : Nat} {last type given v : Option Value}
    (backed : Backed checker before) (accepted : (checkAll body given checker).result = .ok type)
    (ran : runAll rounds body last before = some ⟨.ok v, after⟩) :
    Backed (checkAll body given checker).context after := by
  induction body generalizing checker before last given with
  | nil =>
      cases ran
      exact backed
  | cons first rest ih =>
      obtain ⟨firstType, firstOk, continues⟩ := checkAll_cons_eq_ok accepted
      rw [runAll] at ran
      rcases Evaluation.andThen_eq_some ran with
        ⟨result, between, firstRan, restRan⟩ | ⟨fault, between, -, failed⟩
      · rw [continues] at accepted ⊢
        exact ih (run_backed first backed ⟨firstType, firstOk⟩ firstRan) accepted restRan
      · cases failed

end Stmt

namespace Visits

variable {program : List Stmt} {found : Stmt} {checker evaluator inner outer : Context}

theorem backed (visits : Visits program checker evaluator found inner outer)
    (backed : Backed checker evaluator) {last type : Option Value}
    (accepted : (Stmt.checkAll program last checker).result = .ok type) : Backed inner outer :=
  (visits.keep Backed (fun _ stmtOk holds ran => Stmt.run_backed _ holds ⟨_, stmtOk⟩ ran)
    (fun _ _ _ holds _ => holds) backed accepted).2

/-- Wherever a run comes, there are new values on the old ones, and the types are as they were. -/
theorem grows (visits : Visits program checker evaluator found inner outer)
    (wellFormed : evaluator.WellFormed) : evaluator.Grows outer := by
  induction visits with
  | first => exact .refl wellFormed
  | later ran visits ih =>
      have grown := Stmt.run_grows _ wellFormed ran
      exact grown.trans (ih grown.wellFormed)
  | block visits ih | yes holds visits ih | no fails visits ih | round holds visits ih =>
      exact ih wellFormed
  | nextRound holds ran visits ih =>
      have grown := (Stmt.run_grows _ wellFormed ran).leave wellFormed
      exact grown.trans (ih grown.wellFormed)

end Visits

end Quantities
