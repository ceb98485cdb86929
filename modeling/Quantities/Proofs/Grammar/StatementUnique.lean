import Quantities.Proofs.Grammar.ExpressionUnique
import Quantities.Proofs.Grammar.StatementDerivation

/-!
A row of tokens is derived as statements in one way. As for expressions, derivations with the same
tree and yields that begin alike are the same.
-/

namespace Quantities

variable {rest others : List TokenKind}

theorem Phrase.eq_of_tree_eq {d other : Phrase} (trees : d.tree = other.tree)
    (yields : d.yield ++ rest = other.yield ++ others) : d = other ∧ rest = others :=
  ExprDerivation.eq_of_tree_eq Level.all_nodup trees yields

theorem optionalPhrase_eq {sign : Mark} {d? other? : Option Phrase}
    (trees : d?.map ExprDerivation.tree = other?.map ExprDerivation.tree)
    (yields : optionalYield sign d? ++ rest = optionalYield sign other? ++ others) :
    d? = other? ∧ rest = others := by
  cases d? with
  | none =>
      cases other? with
      | none => exact ⟨rfl, yields⟩
      | some other => cases trees
  | some d =>
      cases other? with
      | none => cases trees
      | some other =>
          obtain ⟨rfl, left⟩ := Phrase.eq_of_tree_eq (Option.some.inj trees) (List.cons.inj yields).2
          exact ⟨rfl, left⟩

theorem condition_eq {word : Keyword} {d other : Phrase} (trees : d.tree = other.tree)
    (yields : conditionYield word d ++ rest = conditionYield word other ++ others) :
    d = other ∧ rest = others := by
  simp only [conditionYield, List.append_assoc, List.cons_append, List.cons.injEq, true_and] at yields
  obtain ⟨rfl, left⟩ := Phrase.eq_of_tree_eq trees yields
  exact ⟨rfl, (List.cons.inj left).2⟩

mutual

theorem StmtDerivation.eq_of_tree_eq {cut closed : Bool} (d : StmtDerivation cut closed) :
    ∀ {other : StmtDerivation cut closed} {rest others : List TokenKind},
      d.tree = other.tree → d.yield ++ rest = other.yield ++ others → d = other ∧ rest = others := by
  intro other rest others trees yields
  match cut, closed, d, other, trees, yields with
  | _, _, .empty, other, trees, yields =>
      cases other with
      | empty => exact ⟨rfl, (List.cons.inj yields).2⟩
      | _ => cases trees
  | _, _, .block body, other, trees, yields =>
      cases other with
      | block otherBody =>
          simp only [StmtDerivation.tree, Stmt.block.injEq, true_and] at trees
          simp only [StmtDerivation.yield, List.append_assoc, List.cons_append, List.cons.injEq,
            true_and] at yields
          obtain ⟨rfl, left⟩ := body.eq_of_tree_eq trees yields
          exact ⟨rfl, (List.cons.inj left).2⟩
      | _ => cases trees
  | _, _, .loop condition body, other, trees, yields =>
      cases other with
      | loop otherCondition otherBody =>
          simp only [StmtDerivation.tree, Stmt.loop.injEq, true_and] at trees
          simp only [StmtDerivation.yield, List.append_assoc] at yields
          obtain ⟨rfl, remaining⟩ := condition_eq trees.1 yields
          obtain ⟨rfl, left⟩ := body.eq_of_tree_eq trees.2 remaining
          exact ⟨rfl, left⟩
      | _ => cases trees
  | _, _, .branch condition yes, other, trees, yields =>
      cases other with
      | branch otherCondition otherYes =>
          simp only [StmtDerivation.tree, Stmt.branch.injEq, true_and, and_true] at trees
          simp only [StmtDerivation.yield, List.append_assoc] at yields
          obtain ⟨rfl, remaining⟩ := condition_eq trees.1 yields
          obtain ⟨rfl, left⟩ := yes.eq_of_tree_eq trees.2 remaining
          exact ⟨rfl, left⟩
      | choice => simp [StmtDerivation.tree] at trees
      | _ => cases trees
  | _, _, .choice condition yes no, other, trees, yields =>
      cases other with
      | choice otherCondition otherYes otherNo =>
          simp only [StmtDerivation.tree, Stmt.branch.injEq, Option.some.injEq, true_and] at trees
          obtain ⟨conditions, yesTrees, noTrees⟩ := trees
          simp only [StmtDerivation.yield, List.append_assoc, List.cons_append] at yields
          obtain ⟨rfl, behindTest⟩ := condition_eq conditions yields
          obtain ⟨rfl, behindYes⟩ := yes.eq_of_tree_eq yesTrees behindTest
          obtain ⟨rfl, left⟩ := no.eq_of_tree_eq noTrees (List.cons.inj behindYes).2
          exact ⟨rfl, left⟩
      | branch => simp [StmtDerivation.tree] at trees
      | _ => cases trees
  | _, _, .var name declared initial, other, trees, yields =>
      cases other with
      | var otherName otherDeclared otherInitial =>
          simp only [StmtDerivation.tree, Stmt.var.injEq, true_and] at trees
          obtain ⟨rfl, declaredTrees, initialTrees⟩ := trees
          simp only [StmtDerivation.yield, List.append_assoc, List.cons_append, List.cons.injEq,
            true_and] at yields
          obtain ⟨rfl, remaining⟩ := optionalPhrase_eq declaredTrees yields
          obtain ⟨rfl, left⟩ := optionalPhrase_eq initialTrees remaining
          exact ⟨rfl, List.append_cancel_left left⟩
      | _ => cases trees
  | _, _, .unit name definition, other, trees, yields =>
      cases other with
      | unit otherName otherDefinition =>
          simp only [StmtDerivation.tree, Stmt.unit.injEq, true_and] at trees
          obtain ⟨rfl, definitionTrees⟩ := trees
          simp only [StmtDerivation.yield, List.append_assoc, List.cons_append, List.cons.injEq,
            true_and] at yields
          obtain ⟨rfl, left⟩ := optionalPhrase_eq definitionTrees yields
          exact ⟨rfl, List.append_cancel_left left⟩
      | _ => cases trees
  | _, _, .assign name rhs, other, trees, yields =>
      cases other with
      | assign otherName otherRhs =>
          simp only [StmtDerivation.tree, Stmt.assign.injEq, true_and] at trees
          obtain ⟨rfl, rhsTrees⟩ := trees
          simp only [StmtDerivation.yield, List.append_assoc, List.cons_append, List.cons.injEq,
            true_and] at yields
          obtain ⟨rfl, left⟩ := Phrase.eq_of_tree_eq rhsTrees yields
          exact ⟨rfl, List.append_cancel_left left⟩
      | _ => cases trees
  | _, _, .constant name rhs, other, trees, yields =>
      cases other with
      | constant otherName otherRhs =>
          simp only [StmtDerivation.tree, Stmt.constant.injEq, true_and] at trees
          obtain ⟨rfl, rhsTrees⟩ := trees
          simp only [StmtDerivation.yield, List.append_assoc, List.cons_append, List.cons.injEq,
            true_and] at yields
          obtain ⟨rfl, left⟩ := Phrase.eq_of_tree_eq rhsTrees yields
          exact ⟨rfl, List.append_cancel_left left⟩
      | _ => cases trees
  | _, _, .expr phrase, other, trees, yields =>
      cases other with
      | expr otherPhrase =>
          simp only [StmtDerivation.tree, Stmt.expr.injEq, true_and] at trees
          simp only [StmtDerivation.yield, List.append_assoc] at yields
          obtain ⟨rfl, left⟩ := Phrase.eq_of_tree_eq trees yields
          exact ⟨rfl, List.append_cancel_left left⟩
      | _ => cases trees

theorem BodyDerivation.eq_of_tree_eq (d : BodyDerivation) :
    ∀ {other : BodyDerivation} {rest others : List TokenKind},
      d.tree = other.tree → d.yield ++ rest = other.yield ++ others → d = other ∧ rest = others := by
  intro other rest others trees yields
  match d with
  | .nil =>
      cases other with
      | nil => exact ⟨rfl, yields⟩
      | cons first more => cases trees
  | .cons first more =>
      cases other with
      | nil => cases trees
      | cons otherFirst otherMore =>
          simp only [BodyDerivation.tree, List.cons.injEq] at trees
          simp only [BodyDerivation.yield, List.append_assoc] at yields
          obtain ⟨rfl, remaining⟩ := first.eq_of_tree_eq trees.1 yields
          obtain ⟨rfl, left⟩ := more.eq_of_tree_eq trees.2 remaining
          exact ⟨rfl, left⟩

end

end Quantities
