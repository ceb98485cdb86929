import Quantities.Proofs.Alike.Checking
import Quantities.Proofs.Context.Growth
import Quantities.Session

/-!
The sessions that come about: those at the start, and those that inputs, `forget?` and `reset` make
of others. Their cells are in order.
-/

namespace Quantities

/-- Where the check of a program leaves off. -/
def Context.checked (context : Context) (program : List Stmt) : Context :=
  (Stmt.checkAll program none context).context

/-- The program is accepted in the context and then succeeds, with the result in the context
`after`. -/
structure Context.Runs (context : Context) (rounds : Nat) (program : List Stmt)
    (result : Option Value) (after : Context) : Prop where
  accepted : ∃ type, (Stmt.checkAll program none context).result = .ok type
  ran : Stmt.runAll rounds program none (context.checked program) = some ⟨.ok result, after⟩

namespace Context

variable {context after : Context} {rounds : Nat} {program : List Stmt} {result : Option Value}

theorem WellFormed.checked (wellFormed : context.WellFormed) (program : List Stmt) :
    (context.checked program).WellFormed := (Stmt.checkAll_wellFormed wellFormed program none).1

theorem WellFormed.valueStack_checked (wellFormed : context.WellFormed) (program : List Stmt) :
    (context.checked program).valueStack = context.valueStack :=
  (Stmt.checkAll_wellFormed wellFormed program none).2

theorem Runs.grows (wellFormed : context.WellFormed)
    (runs : context.Runs rounds program result after) : (context.checked program).Grows after :=
  Stmt.runAll_grows program (wellFormed.checked program) runs.ran

theorem WellFormed.of_size {cells : Array Value} (wellFormed : context.WellFormed)
    (size : context.cells.size ≤ cells.size) : ({ context with cells } : Context).WellFormed := by
  refine ⟨⟨?_, ?_⟩, wellFormed.distinct, wellFormed.apart⟩
  · intro binding member
    exact Nat.lt_of_lt_of_le (wellFormed.bounded.types binding member) size
  · intro binding member
    exact Nat.lt_of_lt_of_le (wellFormed.bounded.values binding member) size

end Context

namespace Session

variable {session next : Session}

theorem runProgram_eq_ok {rounds : Nat} {program : List Stmt} {result : Option Value} :
    session.runProgram rounds program = some (.ok result, next) ↔
      ∃ after, session.context.Runs rounds program result after ∧
        next = { session with bindings := .own after } := by
  unfold runProgram
  constructor
  · intro ran
    simp only at ran
    split at ran
    next => cases ran
    next type accepted =>
      split at ran
      next => cases ran
      next => cases ran
      next last context programRan =>
        cases ran
        exact ⟨context, ⟨⟨type, accepted⟩, programRan⟩, rfl⟩
  · rintro ⟨after, ⟨⟨type, accepted⟩, programRan⟩, rfl⟩
    rw [Context.checked] at programRan
    simp only [accepted, programRan]

theorem run_eq_ok {rounds : Nat} {source : String} {result : Option Value} :
    session.run rounds source = some (.ok result, next) ↔
      ∃ program, Program.ofSource source = .ok program ∧
        ∃ after, session.context.Runs rounds program result after ∧
          next = { session with bindings := .own after } := by
  unfold run
  cases Program.ofSource source with
  | error error => simp
  | ok program => simp [runProgram_eq_ok]

theorem eq_of_run_error {rounds : Nat} {source : String} {failure : Failure}
    (ran : session.run rounds source = some (.error failure, next)) : next = session := by
  unfold run at ran
  split at ran
  next =>
    cases ran
    rfl
  next =>
    unfold runProgram at ran
    simp only at ran
    split at ran
    next =>
      cases ran
      rfl
    next =>
      split at ran
      next => cases ran
      next =>
        cases ran
        rfl
      next => cases ran

/-- The sessions that come about. -/
inductive Reachable : Session → Prop where
  | empty : Reachable empty
  | prelude : Reachable prelude
  | run {session next : Session} {rounds : Nat} {source : String} {outcome : Outcome}
      (reached : session.Reachable) (ran : session.run rounds source = some (outcome, next)) :
      Reachable next
  | forget {session next : Session} {name : String} (reached : session.Reachable)
      (forgot : session.forget? name = some next) : Reachable next
  | reset {session : Session} (reached : session.Reachable) : Reachable session.reset

/-- The cells of the session are in order, now and after a reset. -/
structure WellFormed (session : Session) : Prop where
  now : session.context.WellFormed
  start : session.initial.WellFormed

theorem WellFormed.update (wellFormed : session.WellFormed) {change : Context → Context}
    (changed : (change session.context).WellFormed)
    (size : session.context.cells.size ≤ (change session.context).cells.size) :
    (session.update change).WellFormed := by
  obtain ⟨initial, bindings⟩ := session
  cases bindings with
  | shared scope => exact ⟨changed, wellFormed.start.of_size size⟩
  | own context => exact ⟨changed, wellFormed.start⟩

theorem Reachable.wellFormed (reachable : session.Reachable) : session.WellFormed := by
  induction reachable with
  | empty => exact ⟨Context.empty_wellFormed, Context.empty_wellFormed⟩
  | prelude => exact ⟨Context.prelude_wellFormed, Context.prelude_wellFormed⟩
  | @run session next rounds source outcome reached ran ih =>
      cases outcome with
      | error failure =>
          rw [eq_of_run_error ran]
          exact ih
      | ok result =>
          obtain ⟨program, -, after, runs, rfl⟩ := run_eq_ok.mp ran
          exact ⟨(runs.grows ih.now).wellFormed, ih.start⟩
  | @forget session next name reached forgot ih =>
      obtain ⟨type, -, forgot⟩ := Option.bind_eq_some_iff.mp forgot
      cases forgot
      apply ih.update
      · exact ((ih.now.deleteValue name).deleteType name).addType name _
      · simp [Context.addType, Context.deleteType, Context.deleteValue]
  | reset reached ih => exact ⟨ih.start, ih.start⟩

end Session

end Quantities
