import Quantities.Proofs.Grammar.ExpressionComplete

/-!
A row of tokens has one derivation. The parser gives all derivations with one yield the same tree,
and two derivations with the same tree and yields that begin alike are the same.
-/

namespace Quantities

namespace Expr

/-- What joins the two operands at the root. -/
def connector? : Expr → Option Connector
  | .logical _ op _ _ => some (.logical op)
  | .binary _ op _ _ => some (.binary op)
  | .conversion .. => some .conversion
  | _ => none

/-- How loosely the root of a tree binds. -/
def rank : Expr → Nat
  | .number .. | .bool .. | .typeWord .. | .name .. | .paren .. => 0
  | .power .. => 1
  | .ascription .. => 2
  | .sign .. => 3
  | .binary .. | .logical .. | .conversion .. => 4

theorem connector?_eq_none {e : Expr} (tight : e.rank ≤ 3) : e.connector? = none := by
  cases e with
  | binary | logical | conversion => simp [rank] at tight
  | _ => rfl

end Expr

theorem Connector.connector?_node (connector : Connector) (left right : Expr) :
    (connector.node left right).connector? = some connector := by
  cases connector <;> rfl

theorem Connector.node_injective {connector other : Connector} {left right left' right' : Expr}
    (same : connector.node left right = other.node left' right') :
    connector = other ∧ left = left' ∧ right = right' := by
  cases connector <;> cases other <;> simp [node] at same <;> simp [same]

theorem Atom.rank_tree (single : Atom) : (single.tree .nowhere).rank = 0 := by
  cases single <;> rfl

theorem Atom.tree_injective {single other : Atom}
    (same : single.tree .nowhere = other.tree .nowhere) : single = other := by
  cases single <;> cases other <;> simp [tree] at same <;> simp [same]

theorem Atom.tree_ne_paren (single : Atom) (inner : Expr) :
    single.tree .nowhere ≠ .paren .nowhere inner := by
  cases single <;> simp [tree]

/-- Whether a tree can be that of a derivation of the stratum, by its root. -/
def Stratum.Roots : Stratum → Expr → Prop
  | .level levels, e => ∀ connector, e.connector? = some connector → connector.level ∈ levels
  | .signed, e => e.rank ≤ 3
  | .ascribed, e => e.rank ≤ 2
  | .power _, e => e.rank ≤ 1
  | .primary _, e => e.rank = 0

namespace ExprDerivation

theorem roots {stratum : Stratum} (d : ExprDerivation stratum) : stratum.Roots d.tree := by
  induction d with
  | tighter inner ih => exact fun connector found => List.mem_cons_of_mem _ (ih connector found)
  | join connector atLevel left right leftIh rightIh =>
      intro other found
      rw [tree, Connector.connector?_node] at found
      cases found
      rw [atLevel]
      exact List.mem_cons_self
  | signed inner ih =>
      intro connector found
      rw [tree, Expr.connector?_eq_none ih] at found
      cases found
  | sign op operand ih => exact Nat.le_refl 3
  | ascribed inner ih => exact Nat.le_succ_of_le ih
  | plain inner ih => exact Nat.le_succ_of_le ih
  | ascribe operand unit operandIh unitIh => exact Nat.le_refl 2
  | primary inner ih => exact Nat.le_succ_of_le (Nat.le_of_eq ih)
  | power base exponent ih => exact Nat.le_refl 1
  | atom single fits => exact single.rank_tree
  | paren inner ih => rfl

theorem tree_ne {stratum : Stratum} (d : ExprDerivation stratum) {e : Expr}
    (loose : ¬ stratum.Roots e) : d.tree ≠ e := by
  rintro rfl
  exact loose d.roots

/-- No tree of tighter levels has the operator of another level at its root. -/
theorem tree_ne_node {levels : List Level} (d : ExprDerivation (.level levels))
    {connector : Connector} (absent : connector.level ∉ levels) (left right : Expr) :
    d.tree ≠ connector.node left right :=
  d.tree_ne fun roots => absent (roots connector (connector.connector?_node left right))

theorem exponent_eq {e other : Exponent} {rest others : List TokenKind}
    (same : e.yield ++ rest = other.yield ++ others) : e = other ∧ rest = others := by
  cases e <;> cases other <;> simp [Exponent.yield] at same <;> simp [same]

/-- By induction on the first derivation. The last productions of both are the same, since the trees
have the same root, and the parts are the same one after the other. -/
theorem eq_of_tree_eq {stratum : Stratum} {d other : ExprDerivation stratum}
    {rest others : List TokenKind} (distinct : stratum.Distinct) (trees : d.tree = other.tree)
    (yields : d.yield ++ rest = other.yield ++ others) : d = other ∧ rest = others := by
  induction d generalizing rest others with
  | @tighter first levels inner ih =>
      obtain ⟨absent, levelsDistinct⟩ := List.nodup_cons.mp distinct
      cases other with
      | tighter otherInner =>
          obtain ⟨rfl, left⟩ := ih levelsDistinct trees yields
          exact ⟨rfl, left⟩
      | join connector atLevel left right =>
          exact absurd trees (inner.tree_ne_node (atLevel ▸ absent) left.tree right.tree)
  | @join first levels connector atLevel left right leftIh rightIh =>
      obtain ⟨absent, levelsDistinct⟩ := List.nodup_cons.mp distinct
      cases other with
      | tighter otherInner =>
          exact absurd trees.symm (otherInner.tree_ne_node (atLevel ▸ absent) left.tree right.tree)
      | join otherConnector _ otherLeft otherRight =>
          obtain ⟨rfl, leftTrees, rightTrees⟩ := Connector.node_injective trees
          simp only [yield, List.append_assoc, List.cons_append] at yields
          obtain ⟨rfl, remaining⟩ := leftIh distinct leftTrees yields
          obtain ⟨rfl, left⟩ := rightIh levelsDistinct rightTrees (List.cons.inj remaining).2
          exact ⟨rfl, left⟩
  | signed inner ih =>
      cases other with
      | signed otherInner =>
          obtain ⟨rfl, left⟩ := ih trivial trees yields
          exact ⟨rfl, left⟩
  | sign op operand ih =>
      cases other with
      | sign otherOp otherOperand =>
          simp only [tree, Expr.sign.injEq, true_and] at trees
          obtain ⟨rfl, trees⟩ := trees
          obtain ⟨rfl, left⟩ := ih trivial trees (List.cons.inj yields).2
          exact ⟨rfl, left⟩
      | ascribed otherInner =>
          exact absurd trees.symm (otherInner.tree_ne (by simp [Stratum.Roots, Expr.rank, tree]))
  | ascribed inner ih =>
      cases other with
      | sign otherOp otherOperand =>
          exact absurd trees (inner.tree_ne (by simp [Stratum.Roots, Expr.rank, tree]))
      | ascribed otherInner =>
          obtain ⟨rfl, left⟩ := ih trivial trees yields
          exact ⟨rfl, left⟩
  | plain inner ih =>
      cases other with
      | plain otherInner =>
          obtain ⟨rfl, left⟩ := ih trivial trees yields
          exact ⟨rfl, left⟩
      | ascribe otherOperand otherUnit =>
          exact absurd trees (inner.tree_ne (by simp [Stratum.Roots, Expr.rank, tree]))
  | ascribe operand unit operandIh unitIh =>
      cases other with
      | plain otherInner =>
          exact absurd trees.symm (otherInner.tree_ne (by simp [Stratum.Roots, Expr.rank, tree]))
      | ascribe otherOperand otherUnit =>
          simp only [tree, Expr.ascription.injEq, true_and] at trees
          simp only [yield, List.append_assoc] at yields
          obtain ⟨rfl, remaining⟩ := operandIh trivial trees.1 yields
          obtain ⟨rfl, left⟩ := unitIh trivial trees.2 remaining
          exact ⟨rfl, left⟩
  | primary inner ih =>
      cases other with
      | primary otherInner =>
          obtain ⟨rfl, left⟩ := ih trivial trees yields
          exact ⟨rfl, left⟩
      | power otherBase otherExponent =>
          exact absurd trees (inner.tree_ne (by simp [Stratum.Roots, Expr.rank, tree]))
  | power base exponent ih =>
      cases other with
      | primary otherInner =>
          exact absurd trees.symm (otherInner.tree_ne (by simp [Stratum.Roots, Expr.rank, tree]))
      | power otherBase otherExponent =>
          simp only [tree, Expr.power.injEq, true_and] at trees
          simp only [yield, List.append_assoc, List.cons_append] at yields
          obtain ⟨rfl, remaining⟩ := ih trivial trees.1 yields
          obtain ⟨rfl, left⟩ := exponent_eq (List.cons.inj remaining).2
          exact ⟨rfl, left⟩
  | atom single fits =>
      cases other with
      | atom otherSingle otherFits =>
          obtain rfl := Atom.tree_injective trees
          exact ⟨rfl, (List.cons.inj yields).2⟩
      | paren otherInner => exact absurd trees (single.tree_ne_paren _)
  | paren inner ih =>
      cases other with
      | atom otherSingle otherFits => exact absurd trees.symm (otherSingle.tree_ne_paren _)
      | paren otherInner =>
          simp only [tree, Expr.paren.injEq, true_and] at trees
          simp only [yield, List.append_assoc, List.cons_append, List.cons.injEq, true_and,
            List.nil_append] at yields
          obtain ⟨rfl, remaining⟩ := ih Level.all_nodup trees yields
          exact ⟨rfl, (List.cons.inj remaining).2⟩

end ExprDerivation

end Quantities
