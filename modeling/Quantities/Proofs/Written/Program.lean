import Quantities.Proofs.Grammar.Lines
import Quantities.Proofs.Tree.Layout
import Quantities.Proofs.Written.Statement

/-!
Programs written out and read again. What is read is the program that was written, with the same
layout and apart from locations only, provided that its numbers are read back from their digits.
-/

namespace Quantities

/-- A program written out, each statement beginning on a line of its own. -/
def Program.text (program : List Stmt) : String := "\n".intercalate (program.map Stmt.text)

theorem Lexeme.kinds_intercalate (texts : List String) :
    kinds ("\n".intercalate texts).toList = texts.flatMap fun text => kinds text.toList := by
  induction texts with
  | nil => rw [String.intercalate_nil, String.toList_empty, kinds_nil, List.flatMap_nil]
  | cons first rest ih =>
      cases rest with
      | nil => rw [String.intercalate_singleton, List.flatMap_singleton]
      | cons second others =>
          have lines : ("\n".intercalate (first :: second :: others)).toList =
              first.toList ++ '\n' :: ("\n".intercalate (second :: others)).toList := by
            rw [String.intercalate_cons_cons, String.toList_append, String.toList_append,
              List.append_assoc]
            rfl
          rw [lines, kinds_append_lineFeed, ih]
          rfl

theorem Program.kinds_text (program : List Stmt) :
    (Tokens.ofSource (text program)).kinds =
      program.flatMap fun s => Lexeme.kinds s.text.toList := by
  rw [Tokens.kinds_ofSource, text, Lexeme.kinds_intercalate, List.flatMap_map]

theorem BodyDerivation.exists_lines (body : BodyDerivation)
    (spelled : ∀ kind ∈ body.yield, kind.Spelled)
    (readable : ∀ x ∈ body.tree.flatMap Stmt.numbers, Number.Readable x) :
    ∃ again : BodyDerivation, again.tree = body.tree ∧
      body.tree.flatMap (fun s => Lexeme.kinds s.text.toList) = again.yield := by
  match body with
  | .nil => exact ⟨.nil, rfl, by rw [BodyDerivation.yield]; rfl⟩
  | .cons first rest =>
      rw [BodyDerivation.yield, List.forall_mem_append] at spelled
      rw [BodyDerivation.tree, List.flatMap_cons, List.forall_mem_append] at readable
      obtain ⟨first', firstTree, written⟩ := first.exists_writes spelled.1 readable.1
      obtain ⟨rest', restTree, kinds⟩ := rest.exists_lines spelled.2 readable.2
      refine ⟨.cons first' rest', ?_, ?_⟩
      · rw [BodyDerivation.tree, BodyDerivation.tree, firstTree, restTree]
      · rw [BodyDerivation.tree, List.flatMap_cons, written.kinds, kinds, BodyDerivation.yield]

/-- The last statement is written with its semicolon, if it lacks it. -/
theorem ProgramDerivation.exists_lines (d : ProgramDerivation)
    (spelled : ∀ kind ∈ d.yield, kind.Spelled)
    (readable : ∀ x ∈ d.tree.flatMap Stmt.numbers, Number.Readable x) :
    ∃ again : ProgramDerivation, again.tree = d.tree ∧
      d.tree.flatMap (fun s => Lexeme.kinds s.text.toList) = again.yield := by
  cases d with
  | whole body =>
      obtain ⟨body', tree, kinds⟩ := body.exists_lines spelled readable
      exact ⟨.whole body', tree, kinds⟩
  | cut body last =>
      rw [yield, List.forall_mem_append] at spelled
      rw [tree, List.flatMap_append, List.forall_mem_append, List.flatMap_singleton] at readable
      obtain ⟨body', bodyTree, kinds⟩ := body.exists_lines spelled.1 readable.1
      obtain ⟨last', lastTree, written⟩ := last.exists_writes spelled.2 readable.2
      refine ⟨.whole (body'.append (.cons last' .nil)), ?_, ?_⟩
      · rw [tree, tree, BodyDerivation.tree_append, bodyTree, BodyDerivation.tree, lastTree,
          BodyDerivation.tree]
      · rw [tree, yield, BodyDerivation.yield_append, BodyDerivation.yield, BodyDerivation.yield,
          List.flatMap_append, List.flatMap_singleton, kinds, written.kinds, List.append_nil]

theorem Tokens.spelled_ofSource (source : String) : ∀ kind ∈ (ofSource source).kinds, kind.Spelled := by
  rw [kinds_ofSource]
  exact Lexeme.spelled_kinds source.toList

theorem Program.flatMap_bare {β : Type} {f : Stmt → List β} (same : ∀ s : Stmt, f s.bare = f s)
    (program : List Stmt) : (program.map Stmt.bare).flatMap f = program.flatMap f := by
  rw [List.flatMap_map]
  exact congrArg (program.flatMap ·) (funext same)

/-- Programs and expressions that were read from a text and are written out are read again as what
they were, node by node, wherever the nodes are in the text. -/
theorem written_reads_back :
    (∀ source program, Program.ofSource source = .ok program →
      (∀ x ∈ program.flatMap Stmt.numbers, Number.Readable x) →
      ∃ again, Program.ofSource (Program.text program) = .ok again ∧
        again.map Stmt.bare = program.map Stmt.bare ∧
        Layout.Same (Layout.ofProgram again) (Layout.ofProgram program)) ∧
    ∀ source e, Expr.ofSource source = .ok e → (∀ x ∈ e.numbers, Number.Readable x) →
      ∃ again, Expr.ofSource e.text = .ok again ∧ again.bare = e.bare ∧
        Layout.Same (Layout.ofExpr again) (Layout.ofExpr e) := by
  constructor
  · intro source program read readable
    obtain ⟨d, yields, trees⟩ := Program.exists_derivation read
    have spelled : ∀ kind ∈ d.yield, kind.Spelled := by
      rw [yields]
      exact Tokens.spelled_ofSource source
    rw [← Program.flatMap_bare Stmt.numbers_bare, trees] at readable
    obtain ⟨d', trees', kinds⟩ := d.exists_lines spelled readable
    have text : d.tree.flatMap (fun s => Lexeme.kinds s.text.toList) =
        program.flatMap fun s => Lexeme.kinds s.text.toList := by
      rw [← trees]
      exact Program.flatMap_bare (fun s => by rw [s.text_bare]) program
    obtain ⟨again, readAgain, treesAgain⟩ :=
      Program.ofTokens_of_yield (kinds.symm.trans (text.trans (Program.kinds_text program).symm))
    have same : again.map Stmt.bare = program.map Stmt.bare :=
      treesAgain.trans (trees'.trans trees.symm)
    exact ⟨again, readAgain, same, Layout.ofProgram_same same⟩
  · intro source e read readable
    obtain ⟨d, yields, tree⟩ := Expr.exists_derivation read
    have spelled : ∀ kind ∈ d.yield, kind.Spelled := by
      rw [yields]
      exact Tokens.spelled_ofSource source
    rw [← e.numbers_bare, tree] at readable
    obtain ⟨d', tree', stands⟩ := d.exists_stands spelled readable
    have kinds : d'.yield = (Tokens.ofSource e.text).kinds := by
      rw [Tokens.kinds_ofSource, ← e.text_bare, tree, stands.writes.kinds]
    obtain ⟨again, readAgain, treeAgain⟩ := Expr.ofTokens_of_yield kinds
    have same : again.bare = e.bare := treeAgain.trans (tree'.trans tree.symm)
    exact ⟨again, readAgain, same, Layout.ofExpr_same same⟩

/-- A choice with a power whose exponent has a sign, and an assignment that lacks its semicolon. -/
def turn : ProgramDerivation :=
  let phrase (d : ExprDerivation .signed) : Phrase :=
    .tighter (.tighter (.tighter (.tighter (.tighter (.tighter (.signed d))))))
  let word {asUnit : Bool} (text : String) : ExprDerivation (.power asUnit) :=
    .primary (.atom (.name text) fun _ => rfl)
  let number (x : Float) : ExprDerivation (.power false) := .primary (.atom (.number x) nofun)
  .cut .nil (.choice (phrase (.ascribed (.plain (word "far"))))
    (.constant "y" (phrase (.ascribed (.ascribe (.plain (number 3)) (.power (word "km") (.minus 2))))))
    (.assign "x" (phrase (.sign .minus (.sign .minus (.ascribed (.plain (number 1.5))))))))

theorem turn_reads_back :
    ∃ program again, Program.ofSource "if (far) let y = 3 km^-2; else x := --1.5" = .ok program ∧
      (∀ x ∈ program.flatMap Stmt.numbers, Number.Readable x) ∧
      Program.ofSource (Program.text program) = .ok again ∧
      again.map Stmt.bare = program.map Stmt.bare ∧
      Layout.Same (Layout.ofProgram again) (Layout.ofProgram program) := by
  have kinds : turn.yield =
      (Tokens.ofSource "if (far) let y = 3 km^-2; else x := --1.5").kinds := by decide +kernel
  obtain ⟨program, read, trees⟩ := Program.ofTokens_of_yield kinds
  have readable : ∀ x ∈ program.flatMap Stmt.numbers, Number.Readable x := by
    rw [← Program.flatMap_bare Stmt.numbers_bare, trees]
    change ∀ x ∈ [3, -2, 1.5], Number.Readable x
    simp only [List.forall_mem_cons]
    exact ⟨⟨by decide +kernel, by decide +kernel⟩, ⟨by decide +kernel, by decide +kernel⟩,
      ⟨by decide +kernel, by decide +kernel⟩, List.forall_mem_nil _⟩
  obtain ⟨again, readAgain, same, layout⟩ := written_reads_back.1 _ program read readable
  exact ⟨program, again, read, readable, readAgain, same, layout⟩

end Quantities
