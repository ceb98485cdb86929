import Quantities.Proofs.Grammar.Program
import Quantities.Proofs.Source.Slice
import Quantities.Proofs.Token.Scanning
import Quantities.Proofs.Tree.Layout
import Quantities.Proofs.Tree.Walk

/-!
The layouts of what is read. They are forests, and they have no more entries than the text has room for:
a statement takes a token of its own, and so does every expression but an ascription, which stands between
two operands with tokens of their own.
-/

namespace Quantities

/-- The second layout has more entries than the first one, but not more than these. -/
structure Layout.GrowsBy (layout later : Layout) (exprs stmts : Nat) : Prop where
  exprs : later.exprs.size ≤ layout.exprs.size + exprs
  stmts : later.stmts.size ≤ layout.stmts.size + stmts

namespace Layout.GrowsBy

variable {layout later last : Layout} {exprs stmts more others : Nat}

theorem trans (first : layout.GrowsBy later exprs stmts) (second : later.GrowsBy last more others) :
    layout.GrowsBy last (exprs + more) (stmts + others) where
  exprs := by
    have lower := first.exprs
    have upper := second.exprs
    omega
  stmts := by
    have lower := first.stmts
    have upper := second.stmts
    omega

theorem mono (grows : layout.GrowsBy later exprs stmts) (enough : exprs ≤ more)
    (alsoEnough : stmts ≤ others) : layout.GrowsBy later more others :=
  ⟨Nat.le_trans grows.exprs (Nat.add_le_add_left enough _),
    Nat.le_trans grows.stmts (Nat.add_le_add_left alsoEnough _)⟩

theorem addExpr (grows : layout.GrowsBy later exprs stmts) (e : Expr) (parts : List Nat) :
    layout.GrowsBy (later.addExpr e parts).2 (exprs + 1) stmts where
  exprs := by
    rw [Layout.addExpr, Array.size_push, ← Nat.add_assoc]
    exact Nat.succ_le_succ grows.exprs
  stmts := grows.stmts

theorem addStmt (grows : layout.GrowsBy later exprs stmts) (s : Stmt) (named parts : List Nat) :
    layout.GrowsBy (later.addStmt s named parts).2 exprs (stmts + 1) where
  exprs := grows.exprs
  stmts := by
    rw [Layout.addStmt, Array.size_push, ← Nat.add_assoc]
    exact Nat.succ_le_succ grows.stmts

theorem refl (layout : Layout) : layout.GrowsBy layout 0 0 := ⟨Nat.le_refl _, Nat.le_refl _⟩

theorem statement {used : Nat} (grows : layout.GrowsBy later exprs stmts) (s : Stmt)
    (named parts : List Nat) (room : exprs ≤ 2 * used ∧ stmts < used) :
    layout.GrowsBy (later.addStmt s named parts).2 (2 * used) used :=
  (grows.addStmt s named parts).mono room.1 room.2

end Layout.GrowsBy

theorem ExprDerivation.length_yield_pos {stratum : Stratum} (d : ExprDerivation stratum) :
    0 < d.yield.length := by
  obtain ⟨kind, more, yield, -⟩ := d.yield_eq_cons
  rw [yield]
  exact Nat.succ_pos _

theorem Connector.place_node (connector : Connector) (layout : Layout) (left right : Expr) :
    ∃ parts, ((connector.node left right).place layout).2 =
      ((right.place (left.place layout).2).2.addExpr (connector.node left right) parts).2 := by
  cases connector <;> exact ⟨_, rfl⟩

theorem Atom.place_tree (single : Atom) (layout : Layout) :
    (single.tree .nowhere).place layout = layout.addExpr (single.tree .nowhere) [] := by
  cases single <;> rfl

theorem ExprDerivation.place_grows {stratum : Stratum} (d : ExprDerivation stratum)
    (layout : Layout) : layout.GrowsBy (d.tree.place layout).2 (2 * d.yield.length - 1) 0 := by
  induction d generalizing layout with
  | tighter inner ih | signed inner ih | ascribed inner ih | plain inner ih | primary inner ih =>
      exact ih layout
  | join connector atLevel left right leftIh rightIh =>
      have both := (leftIh layout).trans (rightIh (left.tree.place layout).2)
      obtain ⟨parts, placed⟩ := connector.place_node layout left.tree right.tree
      rw [tree, placed]
      refine (both.addExpr _ parts).mono ?_ (Nat.le_refl 0)
      simp only [yield, List.length_append, List.length_cons]
      omega
  | sign op operand ih =>
      refine ((ih layout).addExpr _ _).mono ?_ (Nat.le_refl 0)
      simp only [yield, List.length_cons]
      omega
  | ascribe operand unit operandIh unitIh =>
      have both := (operandIh layout).trans (unitIh (operand.tree.place layout).2)
      refine (both.addExpr _ _).mono ?_ (Nat.le_refl 0)
      have taken := operand.length_yield_pos
      have more := unit.length_yield_pos
      simp only [yield, List.length_append]
      omega
  | power base exponent ih =>
      refine ((ih layout).addExpr _ _).mono ?_ (Nat.le_refl 0)
      simp only [yield, List.length_append, List.length_cons]
      omega
  | atom single fits =>
      rw [tree, single.place_tree]
      exact (Layout.GrowsBy.refl layout).addExpr _ []
  | paren inner ih =>
      refine ((ih layout).addExpr _ _).mono ?_ (Nat.le_refl 0)
      simp only [yield, List.length_append, List.length_cons]
      omega

theorem optional_grows (sign : Mark) (phrase? : Option Phrase) (layout : Layout) :
    layout.GrowsBy (Expr.placeOptional layout (phrase?.map ExprDerivation.tree)).2
      (2 * (optionalYield sign phrase?).length) 0 := by
  cases phrase? with
  | none => exact .refl layout
  | some phrase =>
      refine (phrase.place_grows layout).mono ?_ (Nat.le_refl 0)
      simp only [optionalYield, List.length_cons]
      omega

theorem condition_grows (word : Keyword) (condition : Phrase) (layout : Layout) :
    layout.GrowsBy (condition.tree.place layout).2
      (2 * (conditionYield word condition).length) 0 := by
  refine (condition.place_grows layout).mono ?_ (Nat.le_refl 0)
  simp only [conditionYield, List.length_append, List.length_cons]
  omega

theorem length_conditionYield_pos (word : Keyword) (condition : Phrase) :
    0 < (conditionYield word condition).length := Nat.succ_pos _

mutual

theorem StmtDerivation.place_grows {cut closed : Bool} (d : StmtDerivation cut closed)
    (layout : Layout) :
    layout.GrowsBy (d.tree.place layout).2 (2 * d.yield.length) d.yield.length := by
  match d with
  | .empty => exact (Layout.GrowsBy.refl layout).statement _ [] [] ⟨Nat.zero_le _, Nat.one_pos⟩
  | .block body =>
      refine (body.placeAll_grows layout).statement _ _ _ ?_
      simp only [StmtDerivation.yield, List.length_append, List.length_cons]
      omega
  | .loop condition body =>
      have test := condition_grows .while condition layout
      refine (test.trans (body.place_grows _)).statement _ _ _ ?_
      have taken := length_conditionYield_pos .while condition
      simp only [StmtDerivation.yield, List.length_append]
      omega
  | .branch condition yes =>
      have test := condition_grows .if condition layout
      refine (test.trans (yes.place_grows _)).statement _ _ _ ?_
      have taken := length_conditionYield_pos .if condition
      simp only [StmtDerivation.yield, List.length_append]
      omega
  | .choice condition yes no =>
      have test := condition_grows .if condition layout
      refine ((test.trans (yes.place_grows _)).trans (no.place_grows _)).statement _ _ _ ?_
      simp only [StmtDerivation.yield, List.length_append, List.length_cons]
      omega
  | .var name declared initial =>
      have both := (optional_grows .colon declared layout).trans (optional_grows .equal initial _)
      refine both.statement _ _ _ ?_
      simp only [StmtDerivation.yield, List.length_append, List.length_cons]
      omega
  | .unit name definition =>
      refine (optional_grows .equal definition layout).statement _ _ _ ?_
      simp only [StmtDerivation.yield, List.length_append, List.length_cons]
      omega
  | .assign name rhs | .constant name rhs =>
      refine (rhs.place_grows layout).statement _ _ _ ?_
      simp only [StmtDerivation.yield, List.length_append, List.length_cons]
      omega
  | .expr phrase =>
      refine (phrase.place_grows layout).statement _ _ _ ?_
      have taken := phrase.length_yield_pos
      simp only [StmtDerivation.yield, List.length_append]
      omega

theorem BodyDerivation.placeAll_grows (body : BodyDerivation) (layout : Layout) :
    layout.GrowsBy (Stmt.placeAll layout body.tree).2 (2 * body.yield.length) body.yield.length := by
  cases body with
  | nil => exact .refl layout
  | cons first rest =>
      have both := (first.place_grows layout).trans (rest.placeAll_grows (first.tree.place layout).2)
      rw [BodyDerivation.yield, List.length_append, Nat.mul_add]
      exact both

end

theorem Stmt.placeAll_append (layout : Layout) (body more : List Stmt) :
    (Stmt.placeAll layout (body ++ more)).2 =
      (Stmt.placeAll (Stmt.placeAll layout body).2 more).2 := by
  induction body generalizing layout with
  | nil => rfl
  | cons first rest ih => exact ih _

theorem ProgramDerivation.placeAll_grows (d : ProgramDerivation) (layout : Layout) :
    layout.GrowsBy (Stmt.placeAll layout d.tree).2 (2 * d.yield.length) d.yield.length := by
  cases d with
  | whole body => exact body.placeAll_grows layout
  | cut body last =>
      have both := (body.placeAll_grows layout).trans (last.place_grows _)
      rw [tree, Stmt.placeAll_append, yield, List.length_append, Nat.mul_add]
      exact both

namespace Layout

end Layout

end Quantities
