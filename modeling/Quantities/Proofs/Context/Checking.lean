import Quantities.Context
import Quantities.Proofs.Result
import Quantities.Typing.Statement

/-!
What checking a statement does to the context: a declaration that is accepted binds its type, and
nothing else leaves a trace.
-/

namespace Quantities

/-- The name that a statement binds, if it is a declaration. -/
def Stmt.declaredName? : Stmt → Option String
  | .var _ name _ _ | .unit _ name _ | .constant _ name _ => some name
  | .empty _ | .block _ _ | .branch .. | .loop .. | .assign .. | .expr .. => none

namespace Context

theorem leave_self (context : Context) : context.leave context.mark = context := by
  simp [leave, mark]

theorem leave_addType (context : Context) (name : String) (type : Value) :
    (context.addType name type).leave context.mark = context := by
  simp [leave, mark, addType]

theorem leave_trans {outer middle inner : Context} (first : middle.leave outer.mark = outer)
    (second : inner.leave middle.mark = middle) : inner.leave outer.mark = outer := by
  obtain ⟨cells, scope⟩ := outer
  have size : cells.size ≤ middle.cells.size := by
    have := congrArg (·.cells.size) first
    simp only [leave, mark, Array.take_eq_extract, Array.size_extract] at this
    omega
  have outerCells : middle.cells.extract 0 cells.size = cells := by
    simpa [leave, mark] using congrArg Context.cells first
  have middleCells : inner.cells.extract 0 middle.cells.size = middle.cells := by
    simpa [leave, mark] using congrArg Context.cells second
  have cells : inner.cells.extract 0 cells.size = cells := by
    rw [← middleCells, Array.extract_extract] at outerCells
    simpa [Nat.min_eq_left size] using outerCells
  simp [leave, mark, cells]

end Context

namespace Step

variable {α β : Type}

theorem context_silent (step : Step α) : step.silent.context = step.context := rfl

theorem context_leave (step : Step α) (mark : ScopeMark) :
    (step.leave mark).context = step.context.leave mark := rfl

theorem bind_result (context : Context) (result : Except Fault Value) (add : Value → Context) :
    (bind context result add).result = result.map some := by
  cases result <;> rfl

end Step

/-- The context after a statement: with the type, if the statement is a declaration and has one. -/
def Context.declare (context : Context) (name? : Option String)
    (result : Except Fault (Option Value)) : Context :=
  match name?, result with
  | some name, .ok (some type) => context.addType name type
  | _, _ => context

theorem Context.leave_declare (context : Context) (name? : Option String)
    (result : Except Fault (Option Value)) :
    (context.declare name? result).leave context.mark = context := by
  unfold declare
  split
  next name type => exact context.leave_addType name type
  next => exact context.leave_self

theorem Step.context_bind (context : Context) (result : Except Fault Value) (name : String) :
    (bind context result (context.addType name)).context =
      context.declare (some name) (bind context result (context.addType name)).result := by
  cases result with
  | error fault => rfl
  | ok type => rfl

namespace Stmt

mutual

theorem check_context (stmt : Stmt) (context : Context) :
    (stmt.check context).context =
      context.declare stmt.declaredName? (stmt.check context).result := by
  cases stmt with
  | empty location | assign location name rhs | expr location e => rfl
  | var location name declared initial => exact Step.context_bind context _ name
  | unit location name definition => exact Step.context_bind context _ name
  | constant location name rhs => exact Step.context_bind context _ name
  | block location body =>
      change (checkAll body none context).context.leave context.mark = context
      exact leave_checkAll body none context
  | branch location condition yes no =>
      change (check (branch location condition yes no) context).context = context
      rw [check]
      split
      next => rfl
      next =>
        have yesLeft : ((yes.check context).leave context.mark).context = context := by
          rw [Step.context_leave, check_context yes context]
          exact context.leave_declare _ _
        unfold Step.andThen
        split
        next =>
          rw [yesLeft]
          cases no with
          | none => rfl
          | some no =>
              simp only [Step.context_silent, Step.context_leave]
              rw [check_context no context]
              exact context.leave_declare _ _
        next => exact yesLeft
  | loop location condition body =>
      change (check (loop location condition body) context).context = context
      rw [check]
      split
      next => rfl
      next =>
        rw [Step.context_silent, Step.context_leave, check_context body context]
        exact context.leave_declare _ _

/-- The context that was there before is found again under what the statements add. -/
theorem leave_checkAll (body : List Stmt) (last : Option Value) (context : Context) :
    (checkAll body last context).context.leave context.mark = context := by
  cases body with
  | nil => exact context.leave_self
  | cons first rest =>
      have firstLeft : (first.check context).context.leave context.mark = context := by
        rw [check_context first context]
        exact context.leave_declare _ _
      rw [checkAll]
      unfold Step.andThen
      split
      next type accepted => exact Context.leave_trans firstLeft (leave_checkAll rest type _)
      next => exact firstLeft

end

theorem leave_check (stmt : Stmt) (context : Context) :
    (stmt.check context).context.leave context.mark = context := by
  rw [check_context]
  exact context.leave_declare _ _

theorem check_block_eq_ok {location : Location} {body : List Stmt} {context : Context}
    {type : Option Value} :
    ((block location body).check context).result = .ok type ↔
      type = none ∧ ∃ last, (checkAll body none context).result = .ok last := by
  constructor
  · intro accepted
    obtain ⟨last, inner, rfl⟩ := Result.map_eq_ok.mp accepted
    exact ⟨rfl, last, inner⟩
  · rintro ⟨rfl, last, inner⟩
    exact Result.map_eq_ok.mpr ⟨last, inner, rfl⟩

theorem check_branch_eq_ok {location : Location} {condition : Expr} {yes : Stmt} {no : Option Stmt}
    {context : Context} {type : Option Value} :
    ((branch location condition yes no).check context).result = .ok type ↔
      type = none ∧ Typing.condition context.getType? condition = .ok () ∧
        (∃ last, (yes.check context).result = .ok last) ∧
        ∀ other ∈ no, ∃ last, (other.check context).result = .ok last := by
  constructor
  · intro accepted
    rw [check] at accepted
    split at accepted
    next => cases accepted
    next holds =>
      unfold Step.andThen at accepted
      split at accepted
      next last yesOk =>
        rw [Step.context_leave, leave_check yes context] at accepted
        cases no with
        | none =>
            cases accepted
            exact ⟨rfl, holds, ⟨last, yesOk⟩, nofun⟩
        | some no =>
            obtain ⟨noLast, noOk, rfl⟩ := Result.map_eq_ok.mp accepted
            refine ⟨rfl, holds, ⟨last, yesOk⟩, ?_⟩
            intro other member
            cases member
            exact ⟨noLast, noOk⟩
      next => cases accepted
  · rintro ⟨rfl, holds, ⟨last, yesOk⟩, noOk⟩
    have left : ((yes.check context).leave context.mark).result = .ok last := yesOk
    rw [check, holds]
    simp only
    rw [Step.andThen, left, Step.context_leave, leave_check yes context]
    cases no with
    | none => rfl
    | some no =>
        obtain ⟨noLast, noAccepted⟩ := noOk no rfl
        exact Result.map_eq_ok.mpr ⟨noLast, noAccepted, rfl⟩

theorem check_loop_eq_ok {location : Location} {condition : Expr} {body : Stmt} {context : Context}
    {type : Option Value} :
    ((loop location condition body).check context).result = .ok type ↔
      type = none ∧ Typing.condition context.getType? condition = .ok () ∧
        ∃ last, (body.check context).result = .ok last := by
  constructor
  · intro accepted
    rw [check] at accepted
    split at accepted
    next => cases accepted
    next holds =>
      obtain ⟨last, bodyOk, rfl⟩ := Result.map_eq_ok.mp accepted
      exact ⟨rfl, holds, last, bodyOk⟩
  · rintro ⟨rfl, holds, last, bodyOk⟩
    rw [check, holds]
    exact Result.map_eq_ok.mpr ⟨last, bodyOk, rfl⟩

theorem checkAll_cons_of_ok {first : Stmt} {rest : List Stmt} {last given : Option Value}
    {context : Context} (accepted : (first.check context).result = .ok given) :
    checkAll (first :: rest) last context =
      checkAll rest given (first.check context).context := by
  rw [checkAll, Step.andThen, accepted]

theorem checkAll_cons_eq_ok {first : Stmt} {rest : List Stmt} {last type : Option Value}
    {context : Context} (accepted : (checkAll (first :: rest) last context).result = .ok type) :
    ∃ given, (first.check context).result = .ok given ∧
      checkAll (first :: rest) last context = checkAll rest given (first.check context).context := by
  rw [checkAll] at accepted ⊢
  unfold Step.andThen at accepted ⊢
  split at accepted
  next given firstOk => exact ⟨given, firstOk, rfl⟩
  next => cases accepted

theorem checkAll_singleton_eq_ok {stmt : Stmt} {context : Context} {type : Option Value}
    (accepted : (stmt.check context).result = .ok type) :
    (checkAll [stmt] none context).result = .ok type := by
  rw [checkAll, Step.andThen, accepted]
  rfl

end Stmt

end Quantities
