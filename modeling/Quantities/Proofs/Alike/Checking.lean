import Quantities.Proofs.Context.Checking
import Quantities.Proofs.Context.Stack
import Quantities.Proofs.Placeless.Statement

/-!
Checking programs that differ in locations only, in contexts with the same types. Both are accepted
with the same types or both are refused, and the same types are bound in the end.
-/

namespace Quantities

variable {context a b : Context}

theorem Context.WellFormed.declare (wellFormed : context.WellFormed) (name? : Option String)
    (result : Except Fault (Option Value)) : (context.declare name? result).WellFormed := by
  unfold Context.declare
  split
  next name type => exact wellFormed.addType name type
  next => exact wellFormed

theorem Context.WellFormed.valueStack_declare (wellFormed : context.WellFormed)
    (name? : Option String) (result : Except Fault (Option Value)) :
    (context.declare name? result).valueStack = context.valueStack := by
  unfold Context.declare
  split
  next name type => exact wellFormed.bounded.valueStack_addType name type
  next => rfl

theorem Context.WellFormed.typeStack_declare (aWellFormed : a.WellFormed)
    (bWellFormed : b.WellFormed) (sameStack : a.typeStack = b.typeStack) (name? : Option String)
    (type : Option Value) :
    (a.declare name? (.ok type)).typeStack = (b.declare name? (.ok type)).typeStack := by
  cases name? with
  | none => exact sameStack
  | some name =>
      cases type with
      | none => exact sameStack
      | some type =>
          simp only [Context.declare]
          rw [aWellFormed.bounded.typeStack_addType, bWellFormed.bounded.typeStack_addType, sameStack]

namespace Stmt

theorem check_wellFormed (wellFormed : context.WellFormed) (stmt : Stmt) :
    (stmt.check context).context.WellFormed := by
  rw [check_context]
  exact wellFormed.declare _ _

theorem check_valueStack (wellFormed : context.WellFormed) (stmt : Stmt) :
    (stmt.check context).context.valueStack = context.valueStack := by
  rw [check_context]
  exact wellFormed.valueStack_declare _ _

theorem checkAll_wellFormed (wellFormed : context.WellFormed) (body : List Stmt)
    (last : Option Value) :
    (checkAll body last context).context.WellFormed ∧
      (checkAll body last context).context.valueStack = context.valueStack := by
  induction body generalizing context last with
  | nil => exact ⟨wellFormed, rfl⟩
  | cons first rest ih =>
      have firstWellFormed := check_wellFormed wellFormed first
      have firstStack := check_valueStack wellFormed first
      rw [checkAll]
      unfold Step.andThen
      split
      next given accepted =>
        obtain ⟨restWellFormed, restStack⟩ := ih firstWellFormed given
        exact ⟨restWellFormed, restStack.trans firstStack⟩
      next => exact ⟨firstWellFormed, firstStack⟩

theorem declaredName?_of_bare {stmt other : Stmt} (same : stmt.bare = other.bare) :
    stmt.declaredName? = other.declaredName? := by
  cases twins_of_bare same <;> rfl

mutual

theorem check_alike (stmt : Stmt) {other : Stmt} (same : stmt.bare = other.bare) {a b : Context}
    (aWellFormed : a.WellFormed) (bWellFormed : b.WellFormed)
    (sameStack : a.typeStack = b.typeStack) {type : Option Value}
    (accepted : (stmt.check a).result = .ok type) : (other.check b).result = .ok type := by
  have types := Context.getType?_of_stack sameStack
  cases twins_of_bare same with
  | empty => exact accepted
  | @block location place body others bodies =>
      obtain ⟨rfl, last, bodyOk⟩ := check_block_eq_ok.mp accepted
      have othersOk := checkAll_alike body bodies aWellFormed bWellFormed sameStack bodyOk
      exact check_block_eq_ok.mpr ⟨rfl, last, othersOk.1⟩
  | @branch location place condition other yes otherYes no otherNo conditions yeses noes =>
      obtain ⟨rfl, holds, ⟨last, yesOk⟩, noOk⟩ := check_branch_eq_ok.mp accepted
      refine check_branch_eq_ok.mpr ⟨rfl, ?_, ⟨last, ?_⟩, ?_⟩
      · rw [← types]
        exact Result.eq_ok_of_toOption (Typing.condition_of_bare conditions _) holds
      · exact check_alike yes yeses aWellFormed bWellFormed sameStack yesOk
      · rintro otherNo rfl
        cases no with
        | none => cases noes
        | some no =>
            obtain ⟨noLast, noAccepted⟩ := noOk no rfl
            exact ⟨noLast, check_alike no (Option.some.inj noes) aWellFormed bWellFormed sameStack
              noAccepted⟩
  | @loop location place condition other body otherBody conditions bodies =>
      obtain ⟨rfl, holds, last, bodyOk⟩ := check_loop_eq_ok.mp accepted
      refine check_loop_eq_ok.mpr ⟨rfl, ?_, last, ?_⟩
      · rw [← types]
        exact Result.eq_ok_of_toOption (Typing.condition_of_bare conditions _) holds
      · exact check_alike body bodies aWellFormed bWellFormed sameStack bodyOk
  | var declared initials =>
      rw [check, Step.bind_result] at accepted ⊢
      obtain ⟨given, inferred, rfl⟩ := Result.map_eq_ok.mp accepted
      refine Result.map_eq_ok.mpr ⟨given, ?_, rfl⟩
      rw [← types]
      exact Result.eq_ok_of_toOption (Typing.variableType_of_bare _ _ declared initials _) inferred
  | unit definitions =>
      rw [check, Step.bind_result] at accepted ⊢
      obtain ⟨given, inferred, rfl⟩ := Result.map_eq_ok.mp accepted
      refine Result.map_eq_ok.mpr ⟨given, ?_, rfl⟩
      rw [← types]
      exact Result.eq_ok_of_toOption (Typing.unitType_of_bare _ definitions _) inferred
  | assign sides =>
      obtain ⟨given, inferred, rfl⟩ := Result.map_eq_ok.mp accepted
      refine Result.map_eq_ok.mpr ⟨given, ?_, rfl⟩
      rw [← types]
      exact Result.eq_ok_of_toOption (Typing.assignmentType_of_bare _ _ _ sides _) inferred
  | constant sides =>
      rw [check, Step.bind_result] at accepted ⊢
      obtain ⟨given, inferred, rfl⟩ := Result.map_eq_ok.mp accepted
      refine Result.map_eq_ok.mpr ⟨given, ?_, rfl⟩
      rw [← types]
      exact Result.eq_ok_of_toOption (Expr.infer_eq_of_bare sides _) inferred
  | expr expressions =>
      obtain ⟨given, inferred, rfl⟩ := Result.map_eq_ok.mp accepted
      refine Result.map_eq_ok.mpr ⟨given, ?_, rfl⟩
      rw [← types]
      exact Result.eq_ok_of_toOption (Expr.infer_eq_of_bare expressions _) inferred

theorem checkAll_alike (body : List Stmt) {others : List Stmt}
    (same : body.map bare = others.map bare) {a b : Context} (aWellFormed : a.WellFormed)
    (bWellFormed : b.WellFormed) (sameStack : a.typeStack = b.typeStack) {last type : Option Value}
    (accepted : (checkAll body last a).result = .ok type) :
    (checkAll others last b).result = .ok type ∧
      (checkAll body last a).context.typeStack = (checkAll others last b).context.typeStack := by
  cases body with
  | nil =>
      cases others with
      | nil => exact ⟨accepted, sameStack⟩
      | cons => cases same
  | cons first rest =>
      cases others with
      | nil => cases same
      | cons other more =>
          obtain ⟨firsts, rests⟩ := List.cons.inj same
          obtain ⟨given, firstOk, continues⟩ := checkAll_cons_eq_ok accepted
          have otherOk := check_alike first firsts aWellFormed bWellFormed sameStack firstOk
          have between : (first.check a).context.typeStack = (other.check b).context.typeStack := by
            rw [check_context, check_context, firstOk, otherOk, declaredName?_of_bare firsts]
            exact aWellFormed.typeStack_declare bWellFormed sameStack _ given
          rw [continues] at accepted ⊢
          rw [checkAll_cons_of_ok otherOk]
          exact checkAll_alike rest rests (check_wellFormed aWellFormed first)
            (check_wellFormed bWellFormed other) between accepted

end

end Stmt

end Quantities
