import Quantities.Proofs.Soundness.Program
import Quantities.Proofs.Context.Growth

/-!
The statements of a program, at any depth, each with the context in which it is checked. A run comes
to these statements only, and wherever it comes to one the names with values have types.
-/

namespace Quantities

namespace Stmt

mutual

/-- The statements in a statement, itself included, and the contexts in which they are checked. -/
def points (stmt : Stmt) (context : Context) : List (Stmt × Context) :=
  (stmt, context) :: match stmt with
    | .block _ body => pointsAll body context
    | .branch _ _ yes none => yes.points context
    | .branch _ _ yes (some no) => yes.points context ++ no.points context
    | .loop _ _ body => body.points context
    | .empty _ | .var .. | .unit .. | .assign .. | .constant .. | .expr .. => []

def pointsAll : List Stmt → Context → List (Stmt × Context)
  | [], _ => []
  | first :: rest, context => first.points context ++ pointsAll rest (first.check context).context

end

theorem mem_points_self (stmt : Stmt) (context : Context) :
    (stmt, context) ∈ stmt.points context := by
  unfold points
  exact List.mem_cons_self

theorem pointsAll_singleton (stmt : Stmt) (context : Context) :
    pointsAll [stmt] context = stmt.points context := by
  simp [pointsAll]

/-- The check accepts the statement. -/
def Accepted (stmt : Stmt) (context : Context) : Prop :=
  ∃ type, (stmt.check context).result = .ok type

mutual

/-- What every accepted statement keeps holds wherever the check of a statement comes. -/
theorem points_keep (stmt : Stmt) {context : Context} (invariant : Context → Prop)
    (keeps : ∀ point ∈ stmt.points context, point.1.Accepted point.2 → invariant point.2 →
      invariant (point.1.check point.2).context)
    (holds : invariant context) (accepted : stmt.Accepted context) :
    ∀ point ∈ stmt.points context, point.1.Accepted point.2 ∧ invariant point.2 := by
  obtain ⟨type, acceptedType⟩ := accepted
  cases stmt with
  | block location body =>
      obtain ⟨-, last, bodyOk⟩ := check_block_eq_ok.mp acceptedType
      have inner := pointsAll_keep body invariant
        (fun point member => keeps point (List.mem_cons_of_mem _ member)) holds bodyOk
      intro point member
      rcases List.mem_cons.mp member with rfl | inside
      · exact ⟨⟨type, acceptedType⟩, holds⟩
      · exact inner.1 point inside
  | branch location condition yes no =>
      obtain ⟨-, -, yesOk, noOk⟩ := check_branch_eq_ok.mp acceptedType
      cases no with
      | none =>
          intro point member
          rw [points] at member
          rcases List.mem_cons.mp member with rfl | inside
          · exact ⟨⟨type, acceptedType⟩, holds⟩
          · exact points_keep yes invariant
              (fun point member => keeps point (by simp [points, member])) holds yesOk point inside
      | some no =>
          intro point member
          rw [points] at member
          rcases List.mem_cons.mp member with rfl | inside
          · exact ⟨⟨type, acceptedType⟩, holds⟩
          · rcases List.mem_append.mp inside with inYes | inNo
            · exact points_keep yes invariant
                (fun point member => keeps point (by simp [points, member])) holds yesOk point inYes
            · exact points_keep no invariant
                (fun point member => keeps point (by simp [points, member])) holds (noOk no rfl)
                point inNo
  | loop location condition body =>
      obtain ⟨-, -, bodyOk⟩ := check_loop_eq_ok.mp acceptedType
      intro point member
      rcases List.mem_cons.mp member with rfl | inside
      · exact ⟨⟨type, acceptedType⟩, holds⟩
      · exact points_keep body invariant
          (fun point member => keeps point (List.mem_cons_of_mem _ member)) holds bodyOk point inside
  | _ =>
      intro point member
      obtain rfl : point = _ := List.mem_singleton.mp (by simpa [points] using member)
      exact ⟨⟨type, acceptedType⟩, holds⟩

theorem pointsAll_keep (body : List Stmt) {context : Context} (invariant : Context → Prop)
    (keeps : ∀ point ∈ pointsAll body context, point.1.Accepted point.2 → invariant point.2 →
      invariant (point.1.check point.2).context)
    (holds : invariant context) {last type : Option Value}
    (accepted : (checkAll body last context).result = .ok type) :
    (∀ point ∈ pointsAll body context, point.1.Accepted point.2 ∧ invariant point.2) ∧
      invariant (checkAll body last context).context := by
  cases body with
  | nil => exact ⟨nofun, holds⟩
  | cons first rest =>
      obtain ⟨given, firstOk, continues⟩ := checkAll_cons_eq_ok accepted
      have firstPoint := List.mem_append_left (pointsAll rest (first.check context).context)
        (first.mem_points_self context)
      have next := keeps _ firstPoint ⟨given, firstOk⟩ holds
      have here := points_keep first invariant
        (fun point member => keeps point (List.mem_append_left _ member)) holds ⟨given, firstOk⟩
      have later := pointsAll_keep rest invariant
        (fun point member => keeps point (List.mem_append_right _ member)) next (continues ▸ accepted)
      refine ⟨?_, continues ▸ later.2⟩
      intro point member
      rcases List.mem_append.mp member with inFirst | inRest
      · exact here point inFirst
      · exact later.1 point inRest

end

end Stmt

theorem Visits.mem_points {program : List Stmt} {checker evaluator inner outer : Context}
    {found : Stmt} (visits : Visits program checker evaluator found inner outer) :
    (found, inner) ∈ Stmt.pointsAll program checker := by
  induction visits with
  | first => exact List.mem_append_left _ (Stmt.mem_points_self _ _)
  | later ran visits ih => exact List.mem_append_right _ ih
  | block visits ih =>
      refine List.mem_append_left _ ?_
      rw [Stmt.points]
      exact List.mem_cons_of_mem _ ih
  | @yes location condition yes found no rest checker evaluator inner outer holds visits ih =>
      rw [Stmt.pointsAll_singleton] at ih
      cases no <;> simp [Stmt.pointsAll, Stmt.points, ih]
  | no fails visits ih =>
      rw [Stmt.pointsAll_singleton] at ih
      simp [Stmt.pointsAll, Stmt.points, ih]
  | round holds visits ih =>
      rw [Stmt.pointsAll_singleton] at ih
      simp [Stmt.pointsAll, Stmt.points, ih]
  | nextRound holds ran visits ih =>
      rw [Stmt.pointsAll_singleton] at ih
      exact List.mem_append_left _ ih

end Quantities
