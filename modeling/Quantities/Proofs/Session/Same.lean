import Quantities.Prompt
import Quantities.Proofs.Session.Incremental
import Quantities.Proofs.Visible.Checking
import Quantities.Proofs.Visible.Running

/-!
Sessions that nothing tells apart: the same types and values are bound in them, in the same order,
now and after a reset. Every line has the same reply in both, and they remain so if it succeeds.
-/

namespace Quantities

theorem Stack.read_uncover (cells : Array Value) (name : String) (bindings : List (String × Nat)) :
    read cells (Scope.uncover name bindings) =
      (read cells bindings).eraseP fun binding => binding.1 == name := by
  rw [read, read, Scope.uncover, List.eraseP_map]
  rfl

namespace Context

variable {context a b : Context}

theorem Same.deleteValue (same : a.Same b) (name : String) :
    (a.deleteValue name).Same (b.deleteValue name) := by
  refine ⟨⟨same.alike.left.deleteValue name, same.alike.right.deleteValue name, ?_⟩, same.types⟩
  have stack := same.alike.sameStack
  simp only [valueStack, Context.deleteValue, Stack.read_uncover] at stack ⊢
  rw [stack]

theorem Same.deleteType (same : a.Same b) (name : String) :
    (a.deleteType name).Same (b.deleteType name) := by
  refine ⟨⟨same.alike.left.deleteType name, same.alike.right.deleteType name,
    same.alike.sameStack⟩, ?_⟩
  have stack := same.types
  simp only [typeStack, Context.deleteType, Stack.read_uncover] at stack ⊢
  rw [stack]

theorem Same.addType (same : a.Same b) (name : String) (type : Value) :
    (a.addType name type).Same (b.addType name type) := by
  obtain ⟨⟨left, right, values⟩, types⟩ := same
  refine ⟨⟨left.addType name type, right.addType name type, ?_⟩, ?_⟩
  · rw [left.bounded.valueStack_addType, right.bounded.valueStack_addType, values]
  · rw [left.bounded.typeStack_addType, right.bounded.typeStack_addType, types]

theorem WellFormed.same_push (wellFormed : context.WellFormed) (v : Value) :
    context.Same { context with cells := context.cells.push v } := by
  refine ⟨⟨wellFormed, wellFormed.of_size (by simp), ?_⟩, ?_⟩
  · exact (Stack.read_push wellFormed.bounded.values v).symm
  · exact (Stack.read_push wellFormed.bounded.types v).symm

end Context

namespace Session

variable {session other next otherNext : Session}

/-- Nothing tells the sessions apart, now or after a reset. -/
structure Same (session other : Session) : Prop where
  now : session.context.Same other.context
  start : session.initial.Same other.initial

theorem WellFormed.same (wellFormed : session.WellFormed) : session.Same session :=
  ⟨.refl wellFormed.now, .refl wellFormed.start⟩

theorem context_update (session : Session) (change : Context → Context) :
    (session.update change).context = change session.context := by
  obtain ⟨initial, bindings⟩ := session
  cases bindings <;> rfl

theorem initial_update (session : Session) (change : Context → Context) {v : Value}
    (wellFormed : session.initial.WellFormed)
    (pushes : (change session.context).cells = session.context.cells.push v) :
    session.initial.Same (session.update change).initial := by
  obtain ⟨initial, bindings⟩ := session
  cases bindings with
  | shared scope =>
      have pushed := wellFormed.same_push v
      rw [update, pushes]
      exact pushed
  | own context => exact .refl wellFormed

theorem runProgram_outcome (session : Session) (rounds : Nat) (program : List Stmt) :
    (session.runProgram rounds program).map (·.1) =
      match (Stmt.checkAll program none session.context).result with
      | .error fault => some (.error (.typing fault))
      | .ok _ => (Stmt.runAll rounds program none (session.context.checked program)).map fun step =>
          step.result.mapError .running := by
  rw [runProgram, Context.checked]
  cases (Stmt.checkAll program none session.context).result with
  | error fault => rfl
  | ok type =>
      simp only
      cases Stmt.runAll rounds program none (Stmt.checkAll program none session.context).context with
      | none => rfl
      | some step =>
          obtain ⟨result, after⟩ := step
          cases result <;> rfl

namespace Same

theorem symm (same : session.Same other) : other.Same session := ⟨same.now.symm, same.start.symm⟩

theorem trans {last : Session} (first : session.Same other) (second : other.Same last) :
    session.Same last := ⟨first.now.trans second.now, first.start.trans second.start⟩

theorem getType? (same : session.Same other) :
    session.context.getType? = other.context.getType? :=
  Context.getType?_of_stack same.now.types

theorem forget? (same : session.Same other) {name : String}
    (forgot : session.forget? name = some next) :
    ∃ otherNext, other.forget? name = some otherNext ∧ next.Same otherNext := by
  obtain ⟨type, found, made⟩ := Option.bind_eq_some_iff.mp forgot
  cases made
  let change (context : Context) : Context :=
    ((context.deleteValue name).deleteType name).addType name (.hole name type.abstractType)
  have otherFound : other.context.getType? name = some type := by
    rw [← same.getType?]
    exact found
  have changed : (change session.context).Same (change other.context) :=
    ((same.now.deleteValue name).deleteType name).addType name _
  have start := session.initial_update change same.start.alike.left rfl
  have otherStart := other.initial_update change same.start.alike.right rfl
  refine ⟨other.update change, Option.bind_eq_some_iff.mpr ⟨type, otherFound, rfl⟩, ?_, ?_⟩
  · rw [context_update, context_update]
    exact changed
  · exact (start.symm.trans same.start).trans otherStart

/-- Inputs that succeed keep sessions the same, however many rounds their loops are allowed. -/
theorem run (same : session.Same other) {rounds more : Nat} {source : String}
    {result otherResult : Option Value} (ran : session.run rounds source = some (.ok result, next))
    (otherRan : other.run more source = some (.ok otherResult, otherNext)) :
    next.Same otherNext := by
  obtain ⟨program, read, after, runs, rfl⟩ := run_eq_ok.mp ran
  obtain ⟨again, otherRead, otherAfter, otherRuns, rfl⟩ := run_eq_ok.mp otherRan
  obtain rfl := Except.ok.inj (read.symm.trans otherRead)
  obtain ⟨later, laterRuns, sameLater⟩ := runs.transfer same.now (Nat.le_max_left rounds more)
  obtain ⟨otherLater, otherLaterRuns, otherSame⟩ :=
    otherRuns.transfer (.refl same.now.alike.right) (Nat.le_max_right rounds more)
  cases laterRuns.ran.symm.trans otherLaterRuns.ran
  exact ⟨sameLater.trans otherSame.symm, same.start⟩

theorem run_outcome (same : session.Same other) (rounds : Nat) (source : String) :
    (session.run rounds source).map (·.1) = (other.run rounds source).map (·.1) := by
  have alike := same.now.alike
  unfold Session.run
  cases Program.ofSource source with
  | error error => rfl
  | ok program =>
      have accepted := Stmt.checkAll_result program none alike.left.bounded alike.right.bounded
        same.getType?
      have values : (session.context.checked program).getValue? =
          (other.context.checked program).getValue? := by
        apply Context.getValue?_of_stack
        rw [alike.left.valueStack_checked, alike.right.valueStack_checked, alike.sameStack]
      have parallel := (alike.left.checked program).parallel (alike.right.checked program) values
      have results := Step.map_result_of_parallel (Stmt.runAll_parallel program rounds none parallel)
      simp only
      rw [runProgram_outcome, runProgram_outcome, accepted]
      split
      next => rfl
      next => rw [← Function.comp_def, ← Option.map_map, results, Option.map_map]

theorem reply (same : session.Same other) (rounds : Nat) (line : String) :
    (session.reply rounds line).map (·.1) = (other.reply rounds line).map (·.1) := by
  unfold Session.reply
  cases Command.ofLine line with
  | help | leave | clear | outline | grouping | unknown => rfl
  | typeOf source => simp only [handle, typeOf, same.getType?, Option.map_some]
  | forget name =>
      simp only [handle]
      cases forgot : session.forget? name with
      | none =>
          cases otherForgot : other.forget? name with
          | none => rfl
          | some otherNext =>
              obtain ⟨next, again, -⟩ := same.symm.forget? otherForgot
              rw [forgot] at again
              cases again
      | some next =>
          obtain ⟨otherNext, otherForgot, -⟩ := same.forget? forgot
          rw [otherForgot]
          rfl
  | run source =>
      simp only [handle]
      by_cases blank : source.isEmpty = true
      · rw [if_pos blank, if_pos blank]
        rfl
      · have outcomes := congrArg (Option.map (Reply.ofOutcome source)) (same.run_outcome rounds source)
        rw [if_neg blank, if_neg blank]
        simpa only [Option.map_map, Function.comp_def] using outcomes

end Same

end Session

end Quantities
