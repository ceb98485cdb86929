import Quantities.Proofs.Grammar.StatementComplete
import Quantities.Proofs.Grammar.StatementUnique

/-!
The parser accepts what the grammar derives, and returns the tree of the one derivation. The last
token tells whether the last statement is cut.
-/

namespace Quantities

theorem ExprDerivation.getLast?_yield {stratum : Stratum} (d : ExprDerivation stratum) :
    ∃ kind, d.yield.getLast? = some kind ∧ kind.inExpression = true := by
  cases last : d.yield.getLast? with
  | none =>
      obtain ⟨kind, more, yield, -⟩ := d.yield_eq_cons
      rw [List.getLast?_eq_none_iff.mp last] at yield
      cases yield
  | some kind => exact ⟨kind, rfl, d.inExpression kind (List.mem_of_getLast? last)⟩

section

variable {behind : List TokenKind} {inside : Bool}

theorem getLast?_append (front : List TokenKind)
    (last : ∃ kind, behind.getLast? = some kind ∧ kind.inExpression = inside) :
    ∃ kind, (front ++ behind).getLast? = some kind ∧ kind.inExpression = inside := by
  obtain ⟨kind, found, same⟩ := last
  exact ⟨kind, by simp [found], same⟩

theorem getLast?_optional {front : List TokenKind} (sign : Mark) (phrase? : Option Phrase)
    (last : ∃ kind, front.getLast? = some kind ∧ kind.inExpression = true) :
    ∃ kind, (front ++ optionalYield sign phrase?).getLast? = some kind ∧
      kind.inExpression = true := by
  cases phrase? with
  | none =>
      rw [optionalYield, List.append_nil]
      exact last
  | some phrase =>
      rw [optionalYield, List.append_cons]
      exact getLast?_append _ phrase.getLast?_yield

theorem getLast?_ending {front : List TokenKind} (cut : Bool)
    (last : ∃ kind, front.getLast? = some kind ∧ kind.inExpression = true) :
    ∃ kind, (front ++ ending cut).getLast? = some kind ∧ kind.inExpression = cut := by
  cases cut with
  | true =>
      rw [ending, if_pos rfl, List.append_nil]
      exact last
  | false => exact getLast?_append _ ⟨.mark .semicolon, rfl, rfl⟩

end

/-- A statement that is cut ends as an expression does, and no other. -/
theorem StmtDerivation.getLast?_yield {cut closed : Bool} (d : StmtDerivation cut closed) :
    ∃ kind, d.yield.getLast? = some kind ∧ kind.inExpression = cut := by
  match cut, closed, d with
  | _, _, .empty => exact ⟨.mark .semicolon, rfl, rfl⟩
  | _, _, .block body => exact getLast?_append _ ⟨.mark .rightBrace, rfl, rfl⟩
  | _, _, .loop condition body => exact getLast?_append _ body.getLast?_yield
  | _, _, .branch condition yes => exact getLast?_append _ yes.getLast?_yield
  | _, _, .choice condition yes no =>
      rw [StmtDerivation.yield, List.append_cons, ← List.append_assoc]
      exact getLast?_append _ no.getLast?_yield
  | cut, _, .var name declared initial =>
      have front : ∃ kind, [TokenKind.keyword .var, .name name].getLast? = some kind ∧
        kind.inExpression = true := ⟨_, rfl, rfl⟩
      have whole := getLast?_ending cut
        (getLast?_optional .equal initial (getLast?_optional .colon declared front))
      simpa [StmtDerivation.yield] using whole
  | cut, _, .unit name definition =>
      have front : ∃ kind, [TokenKind.keyword .unit, .name name].getLast? = some kind ∧
        kind.inExpression = true := ⟨_, rfl, rfl⟩
      have whole := getLast?_ending cut (getLast?_optional .equal definition front)
      simpa [StmtDerivation.yield] using whole
  | cut, _, .assign name rhs =>
      exact getLast?_append [.name name, .mark .assign] (getLast?_ending cut rhs.getLast?_yield)
  | cut, _, .constant name rhs =>
      exact getLast?_append [.keyword .let, .name name, .mark .equal]
        (getLast?_ending cut rhs.getLast?_yield)
  | cut, _, .expr phrase => exact getLast?_ending cut phrase.getLast?_yield

theorem BodyDerivation.getLast?_yield (body : BodyDerivation) :
    ∀ kind, body.yield.getLast? = some kind → kind.inExpression = false := by
  intro kind last
  cases body with
  | nil => cases last
  | cons first others =>
      rw [BodyDerivation.yield, List.getLast?_append] at last
      cases behind : others.yield.getLast? with
      | some other =>
          rw [behind] at last
          cases last
          exact others.getLast?_yield _ behind
      | none =>
          obtain ⟨other, found, outside⟩ := first.getLast?_yield
          rw [behind, found] at last
          cases last
          exact outside

namespace ProgramDerivation

/-- The last statement is not cut if the last token cannot end an expression. -/
theorem eq_whole (d : ProgramDerivation)
    (last : ∀ kind, d.yield.getLast? = some kind → kind.inExpression = false) :
    ∃ body, d = whole body := by
  cases d with
  | whole body => exact ⟨body, rfl⟩
  | cut body final =>
      obtain ⟨kind, found, inside⟩ := final.getLast?_yield
      have outside := last kind (by simp [yield, found])
      rw [inside] at outside
      cases outside

theorem eq_of_tree_eq {d other : ProgramDerivation} (trees : d.tree = other.tree)
    (yields : d.yield = other.yield) : d = other := by
  cases d with
  | whole body =>
      obtain ⟨otherBody, rfl⟩ := other.eq_whole (by
        rw [← yields]
        exact body.getLast?_yield)
      obtain ⟨rfl, -⟩ := body.eq_of_tree_eq trees (congrArg (· ++ []) yields)
      rfl
  | cut body last =>
      cases other with
      | whole otherBody =>
          obtain ⟨_, same⟩ := (cut body last).eq_whole (by
            rw [yields]
            exact otherBody.getLast?_yield)
          cases same
      | cut otherBody otherLast =>
          obtain ⟨bodies, lasts⟩ := List.append_inj' trees rfl
          obtain ⟨rfl, left⟩ := body.eq_of_tree_eq bodies yields
          obtain ⟨rfl, -⟩ := last.eq_of_tree_eq (List.cons.inj lasts).1 (congrArg (· ++ []) left)
          rfl

end ProgramDerivation

section

variable {tokens : Tokens}

theorem Program.exists_derivation {program : List Stmt} (read : ofTokens tokens = .ok program) :
    ∃ d : ProgramDerivation, d.yield = tokens.kinds ∧ program.map Stmt.bare = d.tree := by
  obtain ⟨d, kinds, trees⟩ := Grammar.statements_sound read
  exact ⟨d, kinds.symm, trees⟩

theorem Program.ofTokens_of_yield {d : ProgramDerivation} (yields : d.yield = tokens.kinds) :
    ∃ program, ofTokens tokens = .ok program ∧ program.map Stmt.bare = d.tree :=
  Grammar.statements_complete d yields.symm

theorem ProgramDerivation.eq_of_yield {d other : ProgramDerivation}
    (yields : d.yield = tokens.kinds) (others : other.yield = tokens.kinds) : d = other := by
  obtain ⟨program, read, trees⟩ := Program.ofTokens_of_yield yields
  obtain ⟨again, readAgain, otherTrees⟩ := Program.ofTokens_of_yield others
  rw [read] at readAgain
  cases readAgain
  exact eq_of_tree_eq (trees.symm.trans otherTrees) (yields.trans others.symm)

theorem Expr.exists_derivation {e : Expr} (read : ofTokens tokens = .ok e) :
    ∃ d : Phrase, d.yield = tokens.kinds ∧ e.bare = d.tree := by
  obtain ⟨p, expressionRead, read⟩ := Result.bind_eq_ok.mp read
  split at read
  next atEnd =>
    cases read
    obtain ⟨d, kinds, tree⟩ := Grammar.expression_sound expressionRead
    rw [p.next.atEnd_iff.mp atEnd, List.append_nil] at kinds
    exact ⟨d, kinds.symm, tree⟩
  next => cases read

theorem Expr.ofTokens_of_yield {d : Phrase} (yields : d.yield = tokens.kinds) :
    ∃ e, ofTokens tokens = .ok e ∧ e.bare = d.tree := by
  have kinds : (Cursor.ofTokens tokens).kinds = d.yield ++ [] := by
    rw [List.append_nil]
    exact yields.symm
  obtain ⟨p, read, tree, left⟩ := Grammar.expression_complete d kinds
    (.of_mark fun kind found => nomatch found)
  refine ⟨p.value, Result.bind_eq_ok.mpr ⟨p, read, ?_⟩, tree⟩
  rw [if_pos (p.next.atEnd_iff.mpr left)]
  rfl

theorem Phrase.eq_of_yield {d other : Phrase} (yields : d.yield = tokens.kinds)
    (others : other.yield = tokens.kinds) : d = other := by
  obtain ⟨e, read, tree⟩ := Expr.ofTokens_of_yield yields
  obtain ⟨again, readAgain, otherTree⟩ := Expr.ofTokens_of_yield others
  rw [read] at readAgain
  cases readAgain
  exact (eq_of_tree_eq (tree.symm.trans otherTree)
    (congrArg (· ++ []) (yields.trans others.symm))).1

end

/-- A text is a program, or an expression, just if its tokens are derived so, there is one
derivation then, and what is read is its tree. -/
theorem parses_iff_derived (tokens : Tokens) :
    ((∃ program, Program.ofTokens tokens = .ok program) ↔
      ∃ d : ProgramDerivation, d.yield = tokens.kinds) ∧
    (∀ program, Program.ofTokens tokens = .ok program → ∃ d : ProgramDerivation,
      (∀ other : ProgramDerivation, other.yield = tokens.kinds ↔ other = d) ∧
        program.map Stmt.bare = d.tree) ∧
    ((∃ e, Expr.ofTokens tokens = .ok e) ↔ ∃ d : Phrase, d.yield = tokens.kinds) ∧
    ∀ e, Expr.ofTokens tokens = .ok e → ∃ d : Phrase,
      (∀ other : Phrase, other.yield = tokens.kinds ↔ other = d) ∧ e.bare = d.tree := by
  refine ⟨⟨?_, ?_⟩, ?_, ⟨?_, ?_⟩, ?_⟩
  · rintro ⟨program, read⟩
    obtain ⟨d, yields, -⟩ := Program.exists_derivation read
    exact ⟨d, yields⟩
  · rintro ⟨d, yields⟩
    obtain ⟨program, read, -⟩ := Program.ofTokens_of_yield yields
    exact ⟨program, read⟩
  · intro program read
    obtain ⟨d, yields, trees⟩ := Program.exists_derivation read
    exact ⟨d, fun other => ⟨(ProgramDerivation.eq_of_yield · yields), (· ▸ yields)⟩, trees⟩
  · rintro ⟨e, read⟩
    obtain ⟨d, yields, -⟩ := Expr.exists_derivation read
    exact ⟨d, yields⟩
  · rintro ⟨d, yields⟩
    obtain ⟨e, read, -⟩ := Expr.ofTokens_of_yield yields
    exact ⟨e, read⟩
  · intro e read
    obtain ⟨d, yields, tree⟩ := Expr.exists_derivation read
    exact ⟨d, fun other => ⟨(Phrase.eq_of_yield · yields), (· ▸ yields)⟩, tree⟩

end Quantities
