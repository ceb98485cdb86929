import Quantities.Proofs.Grammar.StatementDerivation
import Quantities.Proofs.Token.Span
import Quantities.Proofs.Tree.Node

/-!
Nodes that are cut out of a row of tokens. The location of such a node covers tokens that are derived
as the node is when they are read on their own, and its children are cut out of these tokens in turn.
-/

namespace Quantities

/-- Nodes in a row of tokens, one behind the other, each of a piece of the row. -/
inductive Pieces (IsPiece : Node → List Token → Prop) : List Node → List Token → Prop where
  | nil {used : List Token} : Pieces IsPiece [] used
  | cons {between piece rest : List Token} {node : Node} {nodes : List Node}
      (first : IsPiece node piece) (more : Pieces IsPiece nodes rest) :
      Pieces IsPiece (node :: nodes) (between ++ (piece ++ rest))

namespace Pieces

variable {IsPiece : Node → List Token → Prop} {nodes others : List Node} {used more : List Token}

theorem prepend (before : List Token) (pieces : Pieces IsPiece nodes used) :
    Pieces IsPiece nodes (before ++ used) := by
  cases pieces with
  | nil => exact .nil
  | cons first more =>
      rw [← List.append_assoc]
      exact .cons first more

theorem append (pieces : Pieces IsPiece nodes used) (behind : Pieces IsPiece others more) :
    Pieces IsPiece (nodes ++ others) (used ++ more) := by
  induction pieces with
  | nil => exact behind.prepend _
  | cons first more ih =>
      rw [List.append_assoc, List.append_assoc]
      exact .cons first ih

theorem single {node : Node} (piece : IsPiece node used) : Pieces IsPiece [node] used := by
  have alone := @cons IsPiece [] used [] node [] piece .nil
  rwa [List.append_nil] at alone

theorem imp {Weaker : Node → List Token → Prop}
    (weaker : ∀ node piece, IsPiece node piece → Weaker node piece)
    (pieces : Pieces IsPiece nodes used) : Pieces Weaker nodes used := by
  induction pieces with
  | nil => exact .nil
  | cons first more ih => exact .cons (weaker _ _ first) ih

theorem exists_of_mem (pieces : Pieces IsPiece nodes used) {node : Node} (member : node ∈ nodes) :
    ∃ before piece after, used = before ++ (piece ++ after) ∧ IsPiece node piece := by
  induction pieces with
  | nil => cases member
  | @cons between piece rest first nodes isPiece more ih =>
      rcases List.mem_cons.mp member with rfl | later
      · exact ⟨between, piece, rest, rfl, isPiece⟩
      · obtain ⟨before, inner, after, rfl, found⟩ := ih later
        exact ⟨between ++ (piece ++ before), inner, after, by simp, found⟩

end Pieces

namespace Node

/-- The tokens, read on their own, are those of the node. -/
def Derived (kinds : List TokenKind) : Node → Prop
  | expr e => ∃ phrase : Phrase, phrase.yield = kinds ∧ phrase.tree = e.bare
  | stmt s => ∃ d : ProgramDerivation, d.yield = kinds ∧ d.tree = [s.bare]

/-- The location of the node covers the tokens, which are its own, and its children are cut out in turn. -/
inductive Cut : Node → List Token → Prop where
  | node {node : Node} {used : List Token} (covers : node.location.Covers used)
      (derived : node.Derived (used.map (·.kind))) (IsPart : Node → List Token → Prop)
      (cuts : ∀ part piece, IsPart part piece → Cut part piece)
      (pieces : Pieces IsPart node.children used) : Cut node used

namespace Cut

variable {node : Node} {used : List Token}

theorem of_children (covers : node.location.Covers used) (derived : node.Derived (used.map (·.kind)))
    (pieces : Pieces Cut node.children used) : Cut node used :=
  .node covers derived Cut (fun _ _ cut => cut) pieces

theorem covers (cut : Cut node used) : node.location.Covers used := by
  cases cut
  assumption

theorem derived (cut : Cut node used) : node.Derived (used.map (·.kind)) := by
  cases cut
  assumption

theorem children (cut : Cut node used) : Pieces Cut node.children used := by
  cases cut with
  | node covers derived IsPart cuts pieces => exact pieces.imp cuts

end Cut

end Node

end Quantities
