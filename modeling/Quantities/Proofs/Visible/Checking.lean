import Quantities.Proofs.Context.Bounded
import Quantities.Proofs.Context.Checking

/-!
Checking the same statements in two contexts that show the same types, whatever else these contain.
-/

namespace Quantities

namespace Context

theorem Bounded.declare {context : Context} (bounded : context.Bounded) (name? : Option String)
    (result : Except Fault (Option Value)) : (context.declare name? result).Bounded := by
  unfold Context.declare
  split
  next name type => exact bounded.addType name type
  next => exact bounded

theorem Bounded.getType?_declare {a b : Context} (left : a.Bounded) (right : b.Bounded)
    (shown : a.getType? = b.getType?) (name? : Option String)
    (result : Except Fault (Option Value)) :
    (a.declare name? result).getType? = (b.declare name? result).getType? := by
  unfold Context.declare
  split
  next name type =>
    funext other
    rw [left.getType?_addType, right.getType?_addType, shown]
  next => exact shown

end Context

namespace Stmt

theorem check_bounded {context : Context} (bounded : context.Bounded) (stmt : Stmt) :
    (stmt.check context).context.Bounded := by
  rw [check_context]
  exact bounded.declare _ _

mutual

theorem check_result (stmt : Stmt) {a b : Context} (left : a.Bounded) (right : b.Bounded)
    (shown : a.getType? = b.getType?) : (stmt.check a).result = (stmt.check b).result := by
  cases stmt with
  | empty location => rfl
  | block location body =>
      have inner := checkAll_result body none left right shown
      rw [check, check]
      exact congrArg (Except.map fun _ => none) inner
  | branch location condition yes no =>
      have yesSame := check_result yes left right shown
      rw [check, check, shown]
      split
      next => rfl
      next =>
        unfold Step.andThen
        simp only [Step.leave, yesSame, leave_check]
        split
        next =>
          cases no with
          | none => rfl
          | some no => exact congrArg (Except.map fun _ => none) (check_result no left right shown)
        next => rfl
  | loop location condition body =>
      have inner := check_result body left right shown
      rw [check, check, shown]
      split
      next => rfl
      next => exact congrArg (Except.map fun _ => none) inner
  | var location name declared initial =>
      rw [check, check, shown, Step.bind_result, Step.bind_result]
  | unit location name definition =>
      rw [check, check, shown, Step.bind_result, Step.bind_result]
  | assign location name rhs =>
      rw [check, check, shown]
      rfl
  | constant location name rhs =>
      rw [check, check, shown, Step.bind_result, Step.bind_result]
  | expr location e =>
      rw [check, check, shown]
      rfl

theorem checkAll_result (body : List Stmt) (last : Option Value) {a b : Context}
    (left : a.Bounded) (right : b.Bounded) (shown : a.getType? = b.getType?) :
    (checkAll body last a).result = (checkAll body last b).result := by
  cases body with
  | nil => rfl
  | cons first rest =>
      have same := check_result first left right shown
      have after := left.getType?_declare right shown first.declaredName? (first.check b).result
      rw [checkAll, checkAll]
      unfold Step.andThen
      rw [same]
      split
      next given accepted =>
        apply checkAll_result rest given (check_bounded left first) (check_bounded right first)
        rw [check_context, check_context, same]
        exact after
      next => rfl

end

end Stmt

end Quantities
