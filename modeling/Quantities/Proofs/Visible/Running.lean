import Quantities.Proofs.Context.Growth

/-!
Running the same statements in two contexts that show the same values. What such contexts held
before may differ where it is hidden, so it is compared name by name, and what has come on top of it
binding by binding.
-/

namespace Quantities

namespace Stack

/-- The same bindings lie on two stacks, of these heights, that show the same. -/
inductive Parallel (height otherHeight : Nat) : Stack → Stack → Prop where
  | bottom {stack other : Stack} (length : stack.length = height)
      (otherLength : other.length = otherHeight)
      (shown : ∀ name, stack.lookup name = other.lookup name) :
      Parallel height otherHeight stack other
  | top {stack other : Stack} (name : String) (content : Option Value)
      (parallel : Parallel height otherHeight stack other) :
      Parallel height otherHeight ((name, content) :: stack) ((name, content) :: other)

theorem lookup_cons (stack : Stack) (name bound : String) (content : Option Value) :
    List.lookup name ((bound, content) :: stack) =
      if name = bound then some content else stack.lookup name := by
  rw [List.lookup_cons]
  by_cases same : name = bound
  · simp [same]
  · have differ : (name == bound) = false := by simpa using same
    simp [differ, same]

theorem length_write (name : String) (v : Value) (stack : Stack) :
    (write name v stack).length = stack.length := by
  induction stack with
  | nil => rfl
  | cons first rest ih =>
      rw [write]
      split
      next => rfl
      next => rw [List.length_cons, ih, List.length_cons]

theorem lookup_write (name other : String) (v : Value) (stack : Stack) :
    (write name v stack).lookup other =
      if other = name then (stack.lookup other).map fun _ => some v else stack.lookup other := by
  induction stack with
  | nil => simp [write]
  | cons first rest ih =>
      obtain ⟨bound, content⟩ := first
      by_cases same : name = bound
      · rw [write, if_pos same, lookup_cons, lookup_cons, same]
        split <;> rfl
      · rw [write, if_neg same, lookup_cons, lookup_cons, ih]
        by_cases found : other = bound
        · rw [if_pos found, if_pos found, if_neg (fun hit => same (hit.symm.trans found))]
        · rw [if_neg found, if_neg found]

namespace Parallel

variable {height otherHeight : Nat} {stack other : Stack}

theorem lookup (parallel : Parallel height otherHeight stack other) (name : String) :
    stack.lookup name = other.lookup name := by
  induction parallel with
  | bottom _ _ shown => exact shown name
  | top bound content _ ih => rw [lookup_cons, lookup_cons, ih]

theorem length (parallel : Parallel height otherHeight stack other) :
    height ≤ stack.length ∧ stack.length + otherHeight = other.length + height := by
  induction parallel with
  | bottom length otherLength => omega
  | top _ _ _ ih =>
      simp only [List.length_cons]
      omega

theorem write (parallel : Parallel height otherHeight stack other) (name : String) (v : Value) :
    Parallel height otherHeight (stack.write name v) (other.write name v) := by
  induction parallel with
  | bottom length otherLength shown =>
      refine .bottom ((length_write name v _).trans length)
        ((length_write name v _).trans otherLength) fun written => ?_
      rw [lookup_write, lookup_write, shown]
  | top bound content parallel ih =>
      rw [Stack.write, Stack.write]
      split
      next => exact .top bound (some v) parallel
      next => exact .top bound content ih

theorem drop (parallel : Parallel height otherHeight stack other) {count : Nat}
    (above : count + height ≤ stack.length) :
    Parallel height otherHeight (stack.drop count) (other.drop count) := by
  induction parallel generalizing count with
  | bottom length otherLength shown =>
      obtain rfl : count = 0 := by omega
      exact .bottom length otherLength shown
  | top bound content parallel ih =>
      cases count with
      | zero => exact .top bound content parallel
      | succ count =>
          rw [List.length_cons] at above
          exact ih (by omega)

end Parallel

end Stack

namespace Context

/-- The contexts show the same values, and have the same new ones above these heights. -/
structure Parallel (height otherHeight : Nat) (a b : Context) : Prop where
  left : a.WellFormed
  right : b.WellFormed
  values : Stack.Parallel height otherHeight a.valueStack b.valueStack

namespace Parallel

variable {height otherHeight : Nat} {a b after otherAfter : Context}

theorem getValue? (parallel : Parallel height otherHeight a b) : a.getValue? = b.getValue? := by
  funext name
  rw [getValue?_eq_join, getValue?_eq_join, parallel.values.lookup]

theorem addValue (parallel : Parallel height otherHeight a b) (name : String) (v : Value) :
    Parallel height otherHeight (a.addValue name v) (b.addValue name v) := by
  refine ⟨parallel.left.addValue name v, parallel.right.addValue name v, ?_⟩
  rw [parallel.left.bounded.valueStack_addValue, parallel.right.bounded.valueStack_addValue]
  exact .top name (some v) parallel.values

theorem setValue? (parallel : Parallel height otherHeight a b) (name : String) (v : Value) :
    Option.Rel (Parallel height otherHeight) (a.setValue? name v) (b.setValue? name v) := by
  have shown := parallel.values.lookup name
  rw [valueStack, valueStack, Stack.lookup_read, Stack.lookup_read] at shown
  cases found : a.scope.values.lookup name with
  | none =>
      rw [found] at shown
      have missing := Option.map_eq_none_iff.mp shown.symm
      simp only [Context.setValue?, found, missing]
      exact .none
  | some cell =>
      rw [found] at shown
      obtain ⟨otherCell, otherFound, -⟩ := Option.map_eq_some_iff.mp shown.symm
      have written : a.setValue? name v =
          some { a with cells := a.cells.setIfInBounds cell v } := by
        simp [Context.setValue?, found]
      have otherWritten : b.setValue? name v =
          some { b with cells := b.cells.setIfInBounds otherCell v } := by
        simp [Context.setValue?, otherFound]
      obtain ⟨-, -, -, stack⟩ := parallel.left.setValue? written
      obtain ⟨-, -, -, otherStack⟩ := parallel.right.setValue? otherWritten
      rw [written, otherWritten]
      refine .some ⟨(Grows.setValue? parallel.left written).wellFormed,
        (Grows.setValue? parallel.right otherWritten).wellFormed, ?_⟩
      rw [stack, otherStack]
      exact parallel.values.write name v

/-- A nested scope takes as many bindings along in one context as in the other. -/
theorem leave (parallel : Parallel height otherHeight a b) (grows : a.Grows after)
    (otherGrows : b.Grows otherAfter) (inner : Parallel height otherHeight after otherAfter) :
    Parallel height otherHeight (after.leave a.mark) (otherAfter.leave b.mark) := by
  refine ⟨(grows.leave parallel.left).wellFormed, (otherGrows.leave parallel.right).wellFormed, ?_⟩
  obtain ⟨high, lengths⟩ := parallel.values.length
  obtain ⟨innerHigh, innerLengths⟩ := inner.values.length
  have count : otherAfter.valueStack.length - b.valueStack.length =
      after.valueStack.length - a.valueStack.length := by omega
  rw [grows.valueStack_leave parallel.left, otherGrows.valueStack_leave parallel.right, count]
  exact inner.values.drop (by omega)

end Parallel

theorem Bounded.lookup_valueStack {context : Context} (bounded : context.Bounded) (name : String) :
    context.valueStack.lookup name = (context.getValue? name).map some := by
  rw [valueStack, Stack.lookup_read, Context.getValue?]
  cases found : context.scope.values.lookup name with
  | none => rfl
  | some cell =>
      have bound := bounded.values _ (Scope.mem_of_lookup found)
      simp [bound]

/-- Contexts that show the same values are parallel at the height of all that they hold. -/
theorem WellFormed.parallel {a b : Context} (left : a.WellFormed) (right : b.WellFormed)
    (shown : a.getValue? = b.getValue?) : Parallel a.valueStack.length b.valueStack.length a b := by
  refine ⟨left, right, .bottom rfl rfl fun name => ?_⟩
  rw [left.bounded.lookup_valueStack, right.bounded.lookup_valueStack, shown]

end Context

/-- The statements have the same result, in contexts that are parallel. -/
structure Step.Parallel {α : Type} (height otherHeight : Nat) (step other : Step α) : Prop where
  result : step.result = other.result
  context : step.context.Parallel height otherHeight other.context

theorem Step.map_result_of_parallel {α : Type} {height otherHeight : Nat}
    {answer other : Option (Step α)}
    (parallel : Option.Rel (Step.Parallel height otherHeight) answer other) :
    answer.map (·.result) = other.map (·.result) := by
  cases parallel with
  | none => rfl
  | some both => exact congrArg some both.result

section

variable {height otherHeight : Nat} {a b : Context}

theorem Step.parallel_cases {α : Type} {answer other : Option (Step α)}
    (parallel : Option.Rel (Step.Parallel height otherHeight) answer other) :
    answer = none ∧ other = none ∨
      ∃ result within otherWithin, answer = some ⟨result, within⟩ ∧
        other = some ⟨result, otherWithin⟩ ∧ within.Parallel height otherHeight otherWithin := by
  cases parallel with
  | none => exact .inl ⟨rfl, rfl⟩
  | @some step other both =>
      obtain ⟨result, within⟩ := step
      obtain ⟨otherResult, otherWithin⟩ := other
      obtain ⟨rfl, inner⟩ := both
      exact .inr ⟨result, within, otherWithin, rfl, rfl, inner⟩

theorem Step.bind_parallel (parallel : a.Parallel height otherHeight b)
    (result : Except Fault Value) (name : String) :
    (bind a result (a.addValue name)).Parallel height otherHeight
      (bind b result (b.addValue name)) := by
  cases result with
  | error fault => exact ⟨rfl, parallel⟩
  | ok v => exact ⟨rfl, parallel.addValue name v⟩

theorem Step.leave_parallel {α : Type} (parallel : a.Parallel height otherHeight b)
    {answer other : Option (Step α)}
    (inner : Option.Rel (Step.Parallel height otherHeight) answer other)
    (grows : ∀ step, answer = some step → a.Grows step.context)
    (otherGrows : ∀ step, other = some step → b.Grows step.context) :
    Option.Rel (Step.Parallel height otherHeight) (answer.map (·.leave a.mark))
      (other.map (·.leave b.mark)) := by
  cases inner with
  | none => exact .none
  | some both =>
      have left := grows _ rfl
      have otherLeft := otherGrows _ rfl
      exact .some ⟨both.result, parallel.leave left otherLeft both.context⟩

theorem Step.scoped_parallel {α : Type} (parallel : a.Parallel height otherHeight b)
    {answer other : Option (Step α)}
    (inner : Option.Rel (Step.Parallel height otherHeight) answer other)
    (grows : ∀ step, answer = some step → a.Grows step.context)
    (otherGrows : ∀ step, other = some step → b.Grows step.context) :
    Option.Rel (Step.Parallel height otherHeight)
      (answer.map fun step => (step.leave a.mark).silent)
      (other.map fun step => (step.leave b.mark).silent) := by
  have left := leave_parallel parallel inner grows otherGrows
  cases inner with
  | none => exact .none
  | some =>
      obtain ⟨result, context⟩ := Option.rel_some_some.mp left
      exact .some ⟨congrArg (Except.map fun _ => none) result, context⟩

namespace Evaluation

theorem assign_parallel (parallel : a.Parallel height otherHeight b) (location : Location)
    (name : String) (result : Except Fault Value) :
    (assign location name result a).Parallel height otherHeight
      (assign location name result b) := by
  cases result with
  | error fault => exact ⟨rfl, parallel⟩
  | ok v =>
      have written := parallel.setValue? name v
      simp only [assign]
      generalize a.setValue? name v = answer at written
      generalize b.setValue? name v = other at written
      cases written with
      | none => exact ⟨rfl, parallel⟩
      | some ended => exact ⟨rfl, ended⟩

theorem andThen_parallel {α β : Type} {answer other : Option (Step α)}
    {next : α → Context → Option (Step β)}
    (parallel : Option.Rel (Step.Parallel height otherHeight) answer other)
    (continues : ∀ result {a b : Context}, a.Parallel height otherHeight b →
      Option.Rel (Step.Parallel height otherHeight) (next result a) (next result b)) :
    Option.Rel (Step.Parallel height otherHeight) (andThen answer next) (andThen other next) := by
  obtain ⟨rfl, rfl⟩ | ⟨result, within, otherWithin, rfl, rfl, inner⟩ := Step.parallel_cases parallel
  · exact .none
  · cases result with
    | error fault => exact .some ⟨rfl, inner⟩
    | ok result => exact continues result inner

theorem repeatWhile_parallel {α : Type} {condition : Context → Except Fault Bool}
    {body : Context → Option (Step α)}
    (conditions : ∀ {a b : Context}, a.Parallel height otherHeight b → condition a = condition b)
    (bodies : ∀ {a b : Context}, a.Parallel height otherHeight b →
      Option.Rel (Step.Parallel height otherHeight) (body a) (body b))
    (rounds : Nat) (parallel : a.Parallel height otherHeight b) :
    Option.Rel (Step.Parallel height otherHeight) (repeatWhile condition body rounds a)
      (repeatWhile condition body rounds b) := by
  induction rounds generalizing a b with
  | zero =>
      rw [repeatWhile, repeatWhile, conditions parallel]
      split
      next => exact .some ⟨rfl, parallel⟩
      next => exact .some ⟨rfl, parallel⟩
      next => exact .none
  | succ rounds ih =>
      rw [repeatWhile, repeatWhile, conditions parallel]
      split
      next => exact .some ⟨rfl, parallel⟩
      next => exact .some ⟨rfl, parallel⟩
      next =>
        obtain ⟨ran, otherRan⟩ | ⟨result, within, otherWithin, ran, otherRan, inner⟩ :=
          Step.parallel_cases (bodies parallel)
        · rw [ran, otherRan]
          exact .none
        · rw [ran, otherRan]
          cases result with
          | error fault => exact .some ⟨rfl, inner⟩
          | ok result => exact ih inner

end Evaluation

namespace Stmt

mutual

theorem run_parallel (stmt : Stmt) (rounds : Nat) {a b : Context}
    (parallel : a.Parallel height otherHeight b) :
    Option.Rel (Step.Parallel height otherHeight) (stmt.run rounds a) (stmt.run rounds b) := by
  have values := parallel.getValue?
  cases stmt with
  | empty location =>
      rw [run, run]
      exact .some ⟨rfl, parallel⟩
  | block location body =>
      rw [run, run]
      exact Step.scoped_parallel parallel (runAll_parallel body rounds none parallel)
        (fun step => runAll_grows body parallel.left) (fun step => runAll_grows body parallel.right)
  | branch location condition yes no =>
      rw [run_branch, run_branch, values]
      split
      next => exact .some ⟨rfl, parallel⟩
      next =>
        exact Step.scoped_parallel parallel (run_parallel yes rounds parallel)
          (fun step => run_grows yes parallel.left) (fun step => run_grows yes parallel.right)
      next =>
        cases no with
        | none => exact .some ⟨rfl, parallel⟩
        | some no =>
            exact Step.scoped_parallel parallel (run_parallel no rounds parallel)
              (fun step => run_grows no parallel.left) (fun step => run_grows no parallel.right)
  | loop location condition body =>
      rw [run, run]
      refine Evaluation.repeatWhile_parallel ?_ ?_ rounds parallel
      · intro a b parallel
        rw [parallel.getValue?]
      · intro a b parallel
        exact Step.leave_parallel parallel (run_parallel body rounds parallel)
          (fun step => run_grows body parallel.left) (fun step => run_grows body parallel.right)
  | var location name declared initial =>
      rw [run, run, values]
      exact .some (Step.bind_parallel parallel _ name)
  | unit location name definition =>
      rw [run, run, values]
      exact .some (Step.bind_parallel parallel _ name)
  | assign location name rhs =>
      rw [run, run, values]
      exact .some (Evaluation.assign_parallel parallel location name _)
  | constant location name rhs =>
      rw [run, run, values]
      exact .some (Step.bind_parallel parallel _ name)
  | expr location e =>
      rw [run, run, values]
      exact .some ⟨rfl, parallel⟩

theorem runAll_parallel (body : List Stmt) (rounds : Nat) (last : Option Value) {a b : Context}
    (parallel : a.Parallel height otherHeight b) :
    Option.Rel (Step.Parallel height otherHeight) (runAll rounds body last a)
      (runAll rounds body last b) := by
  cases body with
  | nil =>
      rw [runAll, runAll]
      exact .some ⟨rfl, parallel⟩
  | cons first rest =>
      rw [runAll, runAll]
      exact Evaluation.andThen_parallel (run_parallel first rounds parallel)
        fun result a b parallel => runAll_parallel rest rounds result parallel

end

end Stmt

end

end Quantities
