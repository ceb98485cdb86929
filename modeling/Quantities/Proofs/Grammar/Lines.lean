import Quantities.Proofs.Grammar.Program
import Quantities.Proofs.Token.Scanning

/-!
Programs on lines of their own. Behind a program whose last statement is not cut another program
may stand, and the two are read together as they are read apart.
-/

namespace Quantities

namespace BodyDerivation

def append : BodyDerivation → BodyDerivation → BodyDerivation
  | nil, other => other
  | cons first rest, other => cons first (rest.append other)

theorem yield_append (body other : BodyDerivation) :
    (body.append other).yield = body.yield ++ other.yield := by
  match body with
  | nil => rfl
  | cons first rest => rw [append, yield, yield, yield_append rest other, List.append_assoc]

theorem tree_append (body other : BodyDerivation) :
    (body.append other).tree = body.tree ++ other.tree := by
  match body with
  | nil => rfl
  | cons first rest => rw [append, tree, tree, tree_append rest other, List.cons_append]

end BodyDerivation

namespace ProgramDerivation

/-- Statements in front of a program. -/
def prepend (body : BodyDerivation) : ProgramDerivation → ProgramDerivation
  | whole rest => whole (body.append rest)
  | cut rest last => cut (body.append rest) last

theorem yield_prepend (body : BodyDerivation) (d : ProgramDerivation) :
    (d.prepend body).yield = body.yield ++ d.yield := by
  cases d with
  | whole rest => exact body.yield_append rest
  | cut rest last => simp only [prepend, yield, body.yield_append, List.append_assoc]

theorem tree_prepend (body : BodyDerivation) (d : ProgramDerivation) :
    (d.prepend body).tree = body.tree ++ d.tree := by
  cases d with
  | whole rest => exact body.tree_append rest
  | cut rest last => simp only [prepend, tree, body.tree_append, List.append_assoc]

end ProgramDerivation

/-- The text ends in a semicolon or a closing brace, blanks and comments aside. -/
def Tokens.Closed (tokens : Tokens) : Prop :=
  tokens.kinds.getLast? = some (.mark .semicolon) ∨ tokens.kinds.getLast? = some (.mark .rightBrace)

/-- A program behind one that is closed is read as it is read alone. -/
theorem Program.ofSource_lines {first second : String} {program rest : List Stmt}
    (read : ofSource first = .ok program) (closed : (Tokens.ofSource first).Closed)
    (restRead : ofSource second = .ok rest) :
    ∃ program' rest', ofSource (first ++ "\n" ++ second) = .ok (program' ++ rest') ∧
      program.map Stmt.bare = program'.map Stmt.bare ∧ rest.map Stmt.bare = rest'.map Stmt.bare := by
  obtain ⟨d, yields, trees⟩ := exists_derivation read
  obtain ⟨restDerivation, restYields, restTrees⟩ := exists_derivation restRead
  obtain ⟨body, rfl⟩ := d.eq_whole (by
    intro kind last
    rw [yields] at last
    rcases closed with mark | mark
    · rw [mark] at last
      cases last
      rfl
    · rw [mark] at last
      cases last
      rfl)
  have together : (restDerivation.prepend body).yield =
      (Tokens.ofSource (first ++ "\n" ++ second)).kinds := by
    rw [ProgramDerivation.yield_prepend, Tokens.kinds_lines, ← yields, restYields]
    rfl
  obtain ⟨whole, wholeRead, wholeTrees⟩ := ofTokens_of_yield together
  rw [ProgramDerivation.tree_prepend] at wholeTrees
  obtain ⟨program', rest', rfl, programTrees, restTrees'⟩ := List.map_eq_append_iff.mp wholeTrees
  exact ⟨program', rest', wholeRead, trees.trans programTrees.symm,
    restTrees.trans restTrees'.symm⟩

end Quantities
