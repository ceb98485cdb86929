import Quantities.Proofs.Context.Growth
import Quantities.Proofs.Placeless.Statement

/-!
Running programs that differ in locations only, in contexts with the same values. If one of them
succeeds then so does the other, with the same value, and the same values are bound in the end,
even if the cells are others and more rounds are allowed.
-/

namespace Quantities

namespace Context

/-- The contexts hold the same values, and their cells are in order. -/
structure Alike (a b : Context) : Prop where
  left : a.WellFormed
  right : b.WellFormed
  sameStack : a.valueStack = b.valueStack

variable {a b after otherAfter : Context}

theorem Alike.getValue? (alike : a.Alike b) : a.getValue? = b.getValue? :=
  getValue?_of_stack alike.sameStack

theorem Alike.addValue (alike : a.Alike b) (name : String) (v : Value) :
    (a.addValue name v).Alike (b.addValue name v) := by
  refine ⟨alike.left.addValue name v, alike.right.addValue name v, ?_⟩
  rw [alike.left.bounded.valueStack_addValue, alike.right.bounded.valueStack_addValue, alike.sameStack]

theorem Alike.setValue? (alike : a.Alike b) {name : String} {v : Value}
    (written : a.setValue? name v = some after) :
    ∃ otherAfter, b.setValue? name v = some otherAfter ∧ after.Alike otherAfter := by
  obtain ⟨cell, found, -⟩ := Option.bind_eq_some_iff.mp written
  -- The stacks are the same, and so the name leads to a cell in both contexts or in neither.
  have there := Stack.lookup_read a.cells a.scope.values name
  have same : a.valueStack.lookup name = b.valueStack.lookup name := by rw [alike.sameStack]
  rw [valueStack, valueStack, Stack.lookup_read, Stack.lookup_read, found] at same
  cases otherFound : b.scope.values.lookup name with
  | none =>
      rw [otherFound] at same
      cases same
  | some otherCell =>
      have otherWritten : b.setValue? name v =
          some { b with cells := b.cells.setIfInBounds otherCell v } := by
        simp [Context.setValue?, otherFound]
      refine ⟨_, otherWritten, (Grows.setValue? alike.left written).wellFormed,
        (Grows.setValue? alike.right otherWritten).wellFormed, ?_⟩
      obtain ⟨-, -, -, stack⟩ := alike.left.setValue? written
      obtain ⟨-, -, -, otherStack⟩ := alike.right.setValue? otherWritten
      rw [stack, otherStack, alike.sameStack]

theorem Alike.leave (alike : a.Alike b) (grows : a.Grows after) (otherGrows : b.Grows otherAfter)
    (inner : after.Alike otherAfter) : (after.leave a.mark).Alike (otherAfter.leave b.mark) := by
  refine ⟨(grows.leave alike.left).wellFormed, (otherGrows.leave alike.right).wellFormed, ?_⟩
  rw [grows.valueStack_leave alike.left, otherGrows.valueStack_leave alike.right, inner.sameStack,
    alike.sameStack]

end Context

namespace Evaluation

variable {α β : Type} {condition otherCondition : Context → Except Fault Bool}
  {body : Context → Option (Step α)} {otherBody : Context → Option (Step β)}

/-- Two loops go round in step as long as each round keeps their contexts alike. -/
theorem repeatWhile_alike
    (conditions : ∀ {a b : Context} {truth : Bool}, a.Alike b → condition a = .ok truth →
      otherCondition b = .ok truth)
    (bodies : ∀ {a b after : Context} {v : α}, a.Alike b → body a = some ⟨.ok v, after⟩ →
      ∃ w otherAfter, otherBody b = some ⟨.ok w, otherAfter⟩ ∧ after.Alike otherAfter)
    {rounds more : Nat} (fewer : rounds ≤ more) {a b after : Context} {v : Option Value}
    (alike : a.Alike b) (ran : repeatWhile condition body rounds a = some ⟨.ok v, after⟩) :
    ∃ otherAfter, repeatWhile otherCondition otherBody more b = some ⟨.ok v, otherAfter⟩ ∧
      after.Alike otherAfter := by
  induction rounds generalizing more a b with
  | zero =>
      rw [repeatWhile] at ran
      split at ran
      next => cases ran
      next stops =>
        cases ran
        refine ⟨b, ?_, alike⟩
        cases more <;> rw [repeatWhile, conditions alike stops] <;> rfl
      next => cases ran
  | succ rounds ih =>
      rw [repeatWhile] at ran
      split at ran
      next => cases ran
      next stops =>
        cases ran
        refine ⟨b, ?_, alike⟩
        cases more <;> rw [repeatWhile, conditions alike stops] <;> rfl
      next goesOn =>
        split at ran
        next => cases ran
        next => cases ran
        next result between bodyRan =>
          obtain ⟨w, otherBetween, otherRan, inner⟩ := bodies alike bodyRan
          cases more with
          | zero => omega
          | succ more =>
              obtain ⟨otherAfter, restRan, ended⟩ := ih (Nat.le_of_succ_le_succ fewer) inner ran
              refine ⟨otherAfter, ?_, ended⟩
              rw [repeatWhile, conditions alike goesOn]
              simp only [otherRan]
              exact restRan

end Evaluation

section

variable {a b after : Context} {v : Option Value}

theorem Step.bind_alike (alike : a.Alike b) {name : String} {result other : Except Fault Value}
    (same : result.toOption = other.toOption)
    (ran : bind a result (a.addValue name) = ⟨.ok v, after⟩) :
    ∃ otherAfter, bind b other (b.addValue name) = ⟨.ok v, otherAfter⟩ ∧
      after.Alike otherAfter := by
  cases result with
  | error fault => cases ran
  | ok given =>
      cases ran
      rw [Result.eq_ok_of_toOption same rfl]
      exact ⟨b.addValue name given, rfl, alike.addValue name given⟩

theorem Step.yield_alike (alike : a.Alike b) {result other : Except Fault Value}
    (same : result.toOption = other.toOption) (ran : yield a result = ⟨.ok v, after⟩) :
    ∃ otherAfter, yield b other = ⟨.ok v, otherAfter⟩ ∧ after.Alike otherAfter := by
  cases result with
  | error fault => cases ran
  | ok given =>
      cases ran
      rw [Result.eq_ok_of_toOption same rfl]
      exact ⟨b, rfl, alike⟩

theorem Evaluation.assign_alike (alike : a.Alike b) {location place : Location} {name : String}
    {result other : Except Fault Value} (same : result.toOption = other.toOption)
    (ran : assign location name result a = ⟨.ok v, after⟩) :
    ∃ otherAfter, assign place name other b = ⟨.ok v, otherAfter⟩ ∧ after.Alike otherAfter := by
  cases result with
  | error fault => cases ran
  | ok given =>
      rw [Result.eq_ok_of_toOption same rfl]
      rw [assign] at ran
      split at ran
      next written wrote =>
        cases ran
        obtain ⟨otherAfter, otherWrote, ended⟩ := alike.setValue? wrote
        refine ⟨otherAfter, ?_, ended⟩
        rw [assign, otherWrote]
      next => cases ran

theorem Step.scoped_alike (alike : a.Alike b) {answer other : Option (Step (Option Value))}
    (inner : ∀ {last within}, answer = some ⟨.ok last, within⟩ → a.Grows within ∧
      ∃ otherWithin, other = some ⟨.ok last, otherWithin⟩ ∧ b.Grows otherWithin ∧
        within.Alike otherWithin)
    (ran : (answer.map fun step => (step.leave a.mark).silent) = some ⟨.ok v, after⟩) :
    ∃ otherAfter, other.map (fun step => (step.leave b.mark).silent) =
        some ⟨.ok v, otherAfter⟩ ∧ after.Alike otherAfter := by
  obtain ⟨rfl, last, within, ended, rfl⟩ := Step.scoped_eq_ok ran
  obtain ⟨grows, otherWithin, rfl, otherGrows, innerAlike⟩ := inner ended
  exact ⟨otherWithin.leave b.mark, rfl, alike.leave grows otherGrows innerAlike⟩

end

namespace Stmt

mutual

theorem run_alike (stmt : Stmt) {other : Stmt} (same : stmt.bare = other.bare) {rounds more : Nat}
    (fewer : rounds ≤ more) {a b after : Context} {v : Option Value} (alike : a.Alike b)
    (ran : stmt.run rounds a = some ⟨.ok v, after⟩) :
    ∃ otherAfter, other.run more b = some ⟨.ok v, otherAfter⟩ ∧ after.Alike otherAfter := by
  have values := alike.getValue?
  cases twins_of_bare same with
  | empty =>
      cases ran
      exact ⟨b, by rw [run]; rfl, alike⟩
  | @block location place body others bodies =>
      rw [run] at ran ⊢
      refine Step.scoped_alike alike (fun bodyRan => ?_) ran
      obtain ⟨otherAfter, otherRan, ended⟩ := runAll_alike body bodies fewer alike bodyRan
      exact ⟨runAll_grows body alike.left bodyRan, otherAfter, otherRan,
        runAll_grows others alike.right otherRan, ended⟩
  | @branch location place condition other yes otherYes no otherNo conditions yeses noes =>
      have holds {truth : Bool} (found : Evaluation.condition a.getValue? condition = .ok truth) :
          Evaluation.condition b.getValue? other = .ok truth := by
        rw [← values]
        exact Result.eq_ok_of_toOption (Evaluation.condition_of_bare conditions _) found
      rw [run_branch] at ran ⊢
      split at ran
      next => cases ran
      next found =>
        rw [holds found]
        refine Step.scoped_alike alike (fun yesRan => ?_) ran
        obtain ⟨otherAfter, otherRan, ended⟩ := run_alike yes yeses fewer alike yesRan
        exact ⟨run_grows yes alike.left yesRan, otherAfter, otherRan,
          run_grows otherYes alike.right otherRan, ended⟩
      next found =>
        rw [holds found]
        cases no with
        | none =>
            cases otherNo with
            | none =>
                cases ran
                exact ⟨b, rfl, alike⟩
            | some otherNo => cases noes
        | some no =>
            cases otherNo with
            | none => cases noes
            | some otherNo =>
                refine Step.scoped_alike alike (fun noRan => ?_) ran
                obtain ⟨otherAfter, otherRan, ended⟩ :=
                  run_alike no (Option.some.inj noes) fewer alike noRan
                exact ⟨run_grows no alike.left noRan, otherAfter, otherRan,
                  run_grows otherNo alike.right otherRan, ended⟩
  | @loop location place condition other body otherBody conditions bodies =>
      rw [run] at ran ⊢
      refine Evaluation.repeatWhile_alike ?_ ?_ fewer alike ran
      · intro a b truth alike found
        rw [← alike.getValue?]
        exact Result.eq_ok_of_toOption (Evaluation.condition_of_bare conditions _) found
      · intro a b after last alike ran
        obtain ⟨inner, bodyRan, rfl⟩ := Step.left_eq_some ran
        obtain ⟨otherAfter, otherRan, ended⟩ := run_alike body bodies fewer alike bodyRan
        refine ⟨last, otherAfter.leave b.mark, by rw [otherRan]; rfl, ?_⟩
        exact alike.leave (run_grows body alike.left bodyRan)
          (run_grows otherBody alike.right otherRan) ended
  | var declared initials =>
      obtain ⟨otherAfter, otherRan, ended⟩ := Step.bind_alike alike
        (Evaluation.variableValue_of_bare _ _ _ declared initials _) (Option.some.inj ran)
      rw [values] at otherRan
      exact ⟨otherAfter, congrArg some otherRan, ended⟩
  | unit definitions =>
      obtain ⟨otherAfter, otherRan, ended⟩ := Step.bind_alike alike
        (Evaluation.unitValue_of_bare _ definitions _) (Option.some.inj ran)
      rw [values] at otherRan
      exact ⟨otherAfter, congrArg some otherRan, ended⟩
  | assign sides =>
      obtain ⟨otherAfter, otherRan, ended⟩ := Evaluation.assign_alike alike
        (Evaluation.assignedValue_of_bare _ _ _ sides _) (Option.some.inj ran)
      rw [values] at otherRan
      exact ⟨otherAfter, congrArg some otherRan, ended⟩
  | constant sides =>
      obtain ⟨otherAfter, otherRan, ended⟩ := Step.bind_alike alike
        (Expr.eval_eq_of_bare sides _) (Option.some.inj ran)
      rw [values] at otherRan
      exact ⟨otherAfter, congrArg some otherRan, ended⟩
  | expr expressions =>
      obtain ⟨otherAfter, otherRan, ended⟩ := Step.yield_alike alike
        (Expr.eval_eq_of_bare expressions _) (Option.some.inj ran)
      rw [values] at otherRan
      exact ⟨otherAfter, congrArg some otherRan, ended⟩

theorem runAll_alike (body : List Stmt) {others : List Stmt}
    (same : body.map bare = others.map bare) {rounds more : Nat} (fewer : rounds ≤ more)
    {a b after : Context} {last v : Option Value} (alike : a.Alike b)
    (ran : runAll rounds body last a = some ⟨.ok v, after⟩) :
    ∃ otherAfter, runAll more others last b = some ⟨.ok v, otherAfter⟩ ∧
      after.Alike otherAfter := by
  cases body with
  | nil =>
      cases others with
      | nil =>
          cases ran
          exact ⟨b, by rw [runAll], alike⟩
      | cons => cases same
  | cons first rest =>
      cases others with
      | nil => cases same
      | cons other others =>
          obtain ⟨firsts, rests⟩ := List.cons.inj same
          rw [runAll] at ran ⊢
          rcases Evaluation.andThen_eq_some ran with
            ⟨result, between, firstRan, restRan⟩ | ⟨fault, between, -, failed⟩
          · obtain ⟨otherBetween, otherRan, inner⟩ := run_alike first firsts fewer alike firstRan
            rw [otherRan]
            exact runAll_alike rest rests fewer inner restRan
          · cases failed

end

end Stmt

end Quantities
