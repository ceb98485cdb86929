import Quantities.Proofs.Grammar.Program
import Quantities.Proofs.Grammar.StatementCut
import Quantities.Proofs.Token.Segment
import Quantities.Proofs.Tree.Linked

/-!
The locations of the nodes of a program. The text at the location of a node, read as a source of its
own, gives that node again, and the locations of its children are in it and in order.
-/

namespace Quantities

theorem Pieces.before {nodes : List Node} {used : List Token} (pieces : Pieces Node.Cut nodes used)
    (inOrder : Token.InOrder used) :
    nodes.Pairwise fun node later => node.location.Before later.location := by
  induction pieces with
  | nil => exact .nil
  | @cons between piece rest node nodes cut more ih =>
      have behind := inOrder.sublist (List.sublist_append_right between (piece ++ rest))
      refine .cons (fun later member => ?_) (ih (behind.sublist (List.sublist_append_right _ _)))
      obtain ⟨before, inner, after, rfl, laterCut⟩ := more.exists_of_mem member
      have shorter : Token.InOrder (piece ++ (before ++ inner)) := behind.sublist (by simp)
      exact cut.covers.before laterCut.covers shorter

namespace Node

/-- The text is a source with this node, and nothing else, in it. -/
def ReadFrom (text : String) : Node → Prop
  | expr e => ∃ again, Expr.ofSource text = .ok again ∧ again.bare = e.bare
  | stmt s => ∃ again, Program.ofSource text = .ok [again] ∧ again.bare = s.bare

/-- The location of the node cuts it out of the source text. -/
structure CutOut (source : String) (node : Node) : Prop where
  reads : ∃ slice : Slice source.toList node.location.start.offset node.location.finish.offset,
    node.ReadFrom (String.ofList slice.text)
  contains : ∀ child ∈ node.children, node.location.Contains child.location
  inOrder : node.children.Pairwise fun child later => child.location.Before later.location

theorem Derived.readFrom {node : Node} {text : String}
    (derived : node.Derived (Tokens.ofSource text).kinds) : node.ReadFrom text := by
  cases node with
  | expr e =>
      obtain ⟨phrase, yield, tree⟩ := derived
      obtain ⟨again, read, bare⟩ := Expr.ofTokens_of_yield yield
      exact ⟨again, read, bare.trans tree⟩
  | stmt s =>
      obtain ⟨d, yield, tree⟩ := derived
      obtain ⟨program, read, bare⟩ := Program.ofTokens_of_yield yield
      rw [tree] at bare
      obtain ⟨again, rest, rfl, first, others⟩ := List.map_eq_cons_iff.mp bare
      obtain rfl := List.map_eq_nil_iff.mp others
      exact ⟨again, read, first⟩

variable {source : String}

def CutFrom (source : String) (node : Node) : Prop :=
  ∃ front used later, (Tokens.ofSource source).items = front ++ (used ++ later) ∧ node.Cut used

theorem inOrder_ofSource (source : String) : Token.InOrder (Tokens.ofSource source).items :=
  ⟨(Tokens.maximalMunch_ofSource source).nonempty, (Tokens.maximalMunch_ofSource source).ordered⟩

theorem cutFrom_handsDown (source : String) : HandsDown (CutFrom source) := by
  rintro node ⟨front, used, later, items, cut⟩ child member
  obtain ⟨before, piece, after, rfl, childCut⟩ := cut.children.exists_of_mem member
  exact ⟨front ++ before, piece, after ++ later, by simp [items], childCut⟩

theorem CutFrom.cutOut {node : Node} (cutFrom : CutFrom source node) : node.CutOut source := by
  obtain ⟨front, used, later, items, cut⟩ := cutFrom
  have inOrder : Token.InOrder used := (inOrder_ofSource source).sublist (by simp [items])
  refine ⟨?_, fun child member => ?_, cut.children.before inOrder⟩
  · obtain ⟨slice, kinds⟩ := Tokens.exists_slice items cut.covers
    exact ⟨slice, Derived.readFrom (kinds ▸ cut.derived)⟩
  · obtain ⟨before, piece, after, rfl, childCut⟩ := cut.children.exists_of_mem member
    exact cut.covers.contains childCut.covers inOrder (by simp)

end Node

namespace Program

variable {source : String} {program : List Stmt}

theorem cutFrom_of_read (read : ofSource source = .ok program) :
    ∀ s ∈ program, Node.CutFrom source (.stmt s) := by
  intro s member
  have pieces := Grammar.statements_cut (Node.inOrder_ofSource source) read
  obtain ⟨front, used, later, items, cut⟩ :=
    pieces.exists_of_mem (List.mem_map_of_mem member)
  exact ⟨front, used, later, items, cut⟩

/-- The location of every node of a program cuts it out of the source, and the entries of the layout
are linked as the nodes are. -/
theorem locations_cut_out (read : ofSource source = .ok program) :
    (∀ entry ∈ (Layout.ofProgram program).2.exprs, (Node.expr entry.node).CutOut source) ∧
      (∀ entry ∈ (Layout.ofProgram program).2.stmts, (Node.stmt entry.node).CutOut source) ∧
        (Layout.ofProgram program).2.Linked ∧
          (Layout.ofProgram program).1.map (Layout.ofProgram program).2.stmt? = program.map some ∧
            program.Pairwise fun s later => s.location.Before later.location := by
  obtain ⟨linked, roots, exprs, stmts⟩ :=
    Layout.ofProgram_adds (Node.cutFrom_handsDown source) (cutFrom_of_read read)
  refine ⟨fun entry member => (exprs entry member).cutOut,
    fun entry member => (stmts entry member).cutOut, linked, roots, ?_⟩
  have pieces := Grammar.statements_cut (Node.inOrder_ofSource source) read
  have inOrder := pieces.before (Node.inOrder_ofSource source)
  rwa [List.pairwise_map] at inOrder

/-- A condition, and in a block a sum whose first operand has a sign, a power and a unit. -/
def difference : ProgramDerivation :=
  let word (text : String) : ExprDerivation .signed :=
    .ascribed (.plain (.primary (.atom (.name text) nofun)))
  let phrase (d : ExprDerivation .signed) : Phrase :=
    .tighter (.tighter (.tighter (.tighter (.tighter (.tighter (.signed d))))))
  let length : ExprDerivation .ascribed :=
    .ascribe (.plain (.primary (.atom (.number 2) nofun)))
      (.primary (.atom (.name "m") fun _ => rfl))
  let area : ExprDerivation .signed :=
    .sign .minus (.ascribed (.plain (.power (.primary (.paren (phrase (.ascribed length))))
      (.plain 2))))
  let sum : Phrase :=
    .tighter (.tighter (.tighter (.tighter (.join (.binary .plus) rfl
      (.tighter (.tighter (.signed area))) (.tighter (.signed (word "b")))))))
  .whole (.cons (.branch (phrase (word "a")) (.block (.cons (.expr sum) .nil))) .nil)

theorem difference_cut_out :
    ∃ program, ofSource "// π\nif (a) \x7b -(2 m)^2 + b; \x7d" = .ok program ∧
      program.map Stmt.bare = difference.tree ∧
        ∀ entry ∈ (Layout.ofProgram program).2.exprs,
          (Node.expr entry.node).CutOut "// π\nif (a) \x7b -(2 m)^2 + b; \x7d" := by
  have kinds : difference.yield =
      (Tokens.ofSource "// π\nif (a) \x7b -(2 m)^2 + b; \x7d").kinds := by decide +kernel
  obtain ⟨program, read, trees⟩ := ofTokens_of_yield kinds
  exact ⟨program, read, trees, (locations_cut_out read).1⟩

end Program

end Quantities
