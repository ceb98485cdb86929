import Quantities.Proofs.Tree.Bare
import Quantities.Tree.Layout

/-!
Layouts without their locations. Trees that differ in locations only are laid out in the same way.
-/

namespace Quantities

namespace Layout

/-- The same rows with the locations left out. -/
def bare (layout : Layout) : Layout where
  exprs := layout.exprs.map fun entry => { entry with node := entry.node.bare }
  stmts := layout.stmts.map fun entry => { entry with node := entry.node.bare }

variable (layout : Layout)

theorem addExpr_bare (node : Expr) (parts : List Nat) :
    layout.bare.addExpr node.bare parts =
      ((layout.addExpr node parts).1, (layout.addExpr node parts).2.bare) := by
  simp [addExpr, bare]

theorem addStmt_bare (node : Stmt) (exprs parts : List Nat) :
    layout.bare.addStmt node.bare exprs parts =
      ((layout.addStmt node exprs parts).1, (layout.addStmt node exprs parts).2.bare) := by
  simp [addStmt, bare]

end Layout

variable (layout : Layout)

theorem Expr.place_bare (e : Expr) :
    e.bare.place layout.bare = ((e.place layout).1, (e.place layout).2.bare) := by
  induction e generalizing layout with
  | number | bool | typeWord | name => exact layout.addExpr_bare _ []
  | paren location part ih | sign location op part ih | power location part exponent ih =>
      rw [bare, place, place, ih]
      simp only
      rw [← Layout.addExpr_bare]
      rfl
  | binary location op left right leftIh rightIh | logical location op left right leftIh rightIh
  | ascription location left right leftIh rightIh
  | conversion location left right leftIh rightIh =>
      rw [bare, place, place, leftIh]
      simp only
      rw [rightIh]
      simp only
      rw [← Layout.addExpr_bare]
      rfl

theorem Expr.placeOptional_bare (e? : Option Expr) :
    placeOptional layout.bare (e?.map Expr.bare) =
      ((placeOptional layout e?).1, (placeOptional layout e?).2.bare) := by
  cases e? with
  | none => rfl
  | some e => simp only [Option.map_some, placeOptional, e.place_bare]

mutual

theorem Stmt.place_bare (layout : Layout) (s : Stmt) :
    s.bare.place layout.bare = ((s.place layout).1, (s.place layout).2.bare) := by
  match s with
  | .empty _ => exact layout.addStmt_bare _ [] []
  | .block _ body =>
      rw [bare, place, place, Stmt.placeAll_bare]
      simp only
      rw [← Layout.addStmt_bare]
      rfl
  | .branch _ condition yes none =>
      rw [bare, place, place, condition.place_bare]
      simp only
      rw [Stmt.place_bare]
      simp only
      rw [← Layout.addStmt_bare]
      rfl
  | .branch _ condition yes (some no) =>
      rw [bare, place, place, condition.place_bare]
      simp only
      rw [Stmt.place_bare]
      simp only
      rw [Stmt.place_bare]
      simp only
      rw [← Layout.addStmt_bare]
      rfl
  | .loop _ condition body =>
      rw [bare, place, place, condition.place_bare]
      simp only
      rw [Stmt.place_bare]
      simp only
      rw [← Layout.addStmt_bare]
      rfl
  | .var _ _ declared initial =>
      rw [bare, place, place, Expr.placeOptional_bare]
      simp only
      rw [Expr.placeOptional_bare]
      simp only
      rw [← Layout.addStmt_bare]
      rfl
  | .unit _ _ definition =>
      rw [bare, place, place, Expr.placeOptional_bare]
      simp only
      rw [← Layout.addStmt_bare]
      rfl
  | .assign _ _ e | .constant _ _ e | .expr _ e =>
      rw [bare, place, place, e.place_bare]
      simp only
      rw [← Layout.addStmt_bare]
      rfl

theorem Stmt.placeAll_bare (layout : Layout) (body : List Stmt) :
    Stmt.placeAll layout.bare (bareAll body) =
      ((Stmt.placeAll layout body).1, (Stmt.placeAll layout body).2.bare) := by
  match body with
  | [] => rfl
  | first :: rest =>
      rw [bareAll, Stmt.placeAll, Stmt.placeAll, Stmt.place_bare]
      simp only
      rw [Stmt.placeAll_bare]

end

namespace Layout

/-- The same nodes under the same numbers, apart from their locations. -/
def Same {α : Type} (first second : α × Layout) : Prop :=
  first.1 = second.1 ∧ first.2.bare = second.2.bare

theorem ofExpr_same {e other : Expr} (same : e.bare = other.bare) :
    Same (ofExpr e) (ofExpr other) := by
  have placed := e.place_bare empty
  rw [same, other.place_bare empty] at placed
  exact ⟨(congrArg (·.1) placed).symm, (congrArg (·.2) placed).symm⟩

theorem ofProgram_same {program other : List Stmt}
    (same : program.map Stmt.bare = other.map Stmt.bare) :
    Same (ofProgram program) (ofProgram other) := by
  have placed := Stmt.placeAll_bare empty program
  rw [Stmt.bareAll_eq_map, same, ← Stmt.bareAll_eq_map, Stmt.placeAll_bare empty other] at placed
  exact ⟨(congrArg (·.1) placed).symm, (congrArg (·.2) placed).symm⟩

end Layout

end Quantities
