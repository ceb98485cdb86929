import Quantities.Proofs.Grounded.Law
import Quantities.Proofs.Written.Program

/-!
The labels of the units that are declared in a text. Each of them is a word of the text.
-/

namespace Quantities

namespace Stmt

mutual

theorem unitNames_bare (s : Stmt) : s.bare.unitNames = s.unitNames := by
  match s with
  | .empty _ | .unit .. | .var .. | .assign .. | .constant .. | .expr .. => rfl
  | .block _ body => exact unitNamesAll_bare body
  | .branch _ condition yes none => exact unitNames_bare yes
  | .branch _ condition yes (some no) =>
      rw [bare, unitNames, unitNames, unitNames_bare yes, unitNames_bare no]
  | .loop _ condition body => exact unitNames_bare body

theorem unitNamesAll_bare (body : List Stmt) : unitNamesAll (bareAll body) = unitNamesAll body := by
  match body with
  | [] => rfl
  | first :: rest =>
      rw [bareAll, unitNamesAll, unitNamesAll, unitNames_bare first, unitNamesAll_bare rest]

end

theorem unitNamesAll_append (body more : List Stmt) :
    unitNamesAll (body ++ more) = unitNamesAll body ++ unitNamesAll more := by
  induction body with
  | nil => rfl
  | cons first rest ih => rw [List.cons_append, unitNamesAll, unitNamesAll, ih, List.append_assoc]

end Stmt

mutual

theorem StmtDerivation.mem_yield_of_unitName {cut closed : Bool} (d : StmtDerivation cut closed)
    {label : String} (member : label ∈ d.tree.unitNames) : .name label ∈ d.yield := by
  match d with
  | .empty | .var .. | .assign .. | .constant .. | .expr _ => cases member
  | .unit name definition =>
      obtain rfl := List.mem_singleton.mp member
      simp [StmtDerivation.yield]
  | .block body =>
      have inside := body.mem_yield_of_unitName member
      simp [StmtDerivation.yield, inside]
  | .loop condition body =>
      have inside := body.mem_yield_of_unitName member
      simp [StmtDerivation.yield, inside]
  | .branch condition yes =>
      have inside := yes.mem_yield_of_unitName member
      simp [StmtDerivation.yield, inside]
  | .choice condition yes no =>
      rcases List.mem_append.mp member with inYes | inNo
      · have inside := yes.mem_yield_of_unitName inYes
        simp [StmtDerivation.yield, inside]
      · have inside := no.mem_yield_of_unitName inNo
        simp [StmtDerivation.yield, inside]

theorem BodyDerivation.mem_yield_of_unitName (body : BodyDerivation) {label : String}
    (member : label ∈ Stmt.unitNamesAll body.tree) : .name label ∈ body.yield := by
  match body with
  | .nil => cases member
  | .cons first rest =>
      rcases List.mem_append.mp member with inFirst | inRest
      · exact List.mem_append_left _ (first.mem_yield_of_unitName inFirst)
      · exact List.mem_append_right _ (rest.mem_yield_of_unitName inRest)

end

theorem ProgramDerivation.mem_yield_of_unitName (d : ProgramDerivation) {label : String}
    (member : label ∈ Stmt.unitNamesAll d.tree) : .name label ∈ d.yield := by
  cases d with
  | whole body => exact body.mem_yield_of_unitName member
  | cut body last =>
      rw [tree, Stmt.unitNamesAll_append] at member
      rcases List.mem_append.mp member with inBody | inLast
      · exact List.mem_append_left _ (body.mem_yield_of_unitName inBody)
      · rw [Stmt.unitNamesAll, Stmt.unitNamesAll, List.append_nil] at inLast
        exact List.mem_append_right _ (last.mem_yield_of_unitName inLast)

/-- A unit that is declared in a text has a name that is read as a name. -/
theorem Program.spelled_of_unitName {source : String} {program : List Stmt}
    (read : ofSource source = .ok program) {label : String}
    (member : label ∈ Stmt.unitNamesAll program) : (TokenKind.name label).Spelled := by
  obtain ⟨d, yields, trees⟩ := exists_derivation read
  have inTree : label ∈ Stmt.unitNamesAll d.tree := by
    rwa [← trees, ← Stmt.bareAll_eq_map, Stmt.unitNamesAll_bare]
  apply Tokens.spelled_ofSource source
  rw [← yields]
  exact d.mem_yield_of_unitName inTree

end Quantities
