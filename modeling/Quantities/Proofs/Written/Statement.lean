import Quantities.Proofs.Grammar.StatementDerivation
import Quantities.Proofs.Written.Expression
import Quantities.Proofs.Written.Indentation

/-!
Statements written out. The text of the tree of a derivation is read as a row of tokens with the same
tree. A statement that was cut is written with its semicolon, and so its derivation is another one.
-/

namespace Quantities

namespace Stmt

def optionalNumbers : Option Expr → List Float
  | none => []
  | some e => e.numbers

mutual

/-- The numbers in a statement, exponents too. -/
def numbers : Stmt → List Float
  | .empty _ => []
  | .block _ body => numbersAll body
  | .branch _ condition yes none => condition.numbers ++ yes.numbers
  | .branch _ condition yes (some no) => condition.numbers ++ (yes.numbers ++ no.numbers)
  | .loop _ condition body => condition.numbers ++ body.numbers
  | .var _ _ declared initial => optionalNumbers declared ++ optionalNumbers initial
  | .unit _ _ definition => optionalNumbers definition
  | .assign _ _ e | .constant _ _ e | .expr _ e => e.numbers

def numbersAll : List Stmt → List Float
  | [] => []
  | first :: rest => first.numbers ++ numbersAll rest

end

theorem optionalNumbers_bare (e? : Option Expr) :
    optionalNumbers (e?.map Expr.bare) = optionalNumbers e? := by
  cases e? with
  | none => rfl
  | some e => exact e.numbers_bare

theorem optionalText_bare (before : String) (e? : Option Expr) :
    optionalText before (e?.map Expr.bare) = optionalText before e? := by
  cases e? with
  | none => rfl
  | some e => rw [Option.map_some, optionalText, optionalText, e.text_bare]

mutual

theorem numbers_bare (s : Stmt) : s.bare.numbers = s.numbers := by
  match s with
  | .empty _ => rfl
  | .block _ body => exact numbersAll_bare body
  | .branch _ condition yes none =>
      rw [bare, numbers, numbers, condition.numbers_bare, yes.numbers_bare]
  | .branch _ condition yes (some no) =>
      rw [bare, numbers, numbers, condition.numbers_bare, yes.numbers_bare, no.numbers_bare]
  | .loop _ condition body =>
      rw [bare, numbers, numbers, condition.numbers_bare, body.numbers_bare]
  | .var _ _ declared initial =>
      rw [bare, numbers, numbers, optionalNumbers_bare, optionalNumbers_bare]
  | .unit _ _ definition => exact optionalNumbers_bare definition
  | .assign _ _ e | .constant _ _ e | .expr _ e => exact e.numbers_bare

theorem numbersAll_bare (body : List Stmt) : numbersAll (bareAll body) = numbersAll body := by
  match body with
  | [] => rfl
  | first :: rest => rw [bareAll, numbersAll, numbersAll, numbers_bare first, numbersAll_bare rest]

end

mutual

theorem text_bare (s : Stmt) : s.bare.text = s.text := by
  match s with
  | .empty _ => rfl
  | .block _ body => rw [bare, text, text, bodyText_bare body]
  | .branch _ condition yes none => rw [bare, text, text, condition.text_bare, yes.text_bare]
  | .branch _ condition yes (some no) =>
      rw [bare, text, text, condition.text_bare, yes.text_bare, no.text_bare]
  | .loop _ condition body => rw [bare, text, text, condition.text_bare, body.text_bare]
  | .var _ _ declared initial => rw [bare, text, text, optionalText_bare, optionalText_bare]
  | .unit _ _ definition => rw [bare, text, text, optionalText_bare]
  | .assign _ _ e | .constant _ _ e | .expr _ e => rw [bare, text, text, e.text_bare]

theorem bodyText_bare (body : List Stmt) : bodyText (bareAll body) = bodyText body := by
  match body with
  | [] => rfl
  | first :: rest => rw [bareAll, bodyText, bodyText, text_bare first, bodyText_bare rest]

end

end Stmt

section

variable {text : List Char} {tokens : List TokenKind}

theorem Writes.condition {e : List Char} {condition : Phrase} (word : Keyword)
    (stands : Stands e condition.yield) (written : Writes text tokens) :
    Writes (word.text.toList ++ ' ' :: '(' :: (e ++ ')' :: ' ' :: text))
      (conditionYield word condition ++ tokens) := by
  have closing : Writes (')' :: ' ' :: text) (.mark .rightParen :: tokens) :=
    written.blank.mark .rightParen (.cons (by decide) _)
  have inner := stands.append (.cons (by decide) _) closing
  have opening : Writes ('(' :: (e ++ ')' :: ' ' :: text))
      (.mark .leftParen :: (condition.yield ++ .mark .rightParen :: tokens)) :=
    inner.writes.mark .leftParen inner.parts
  have whole := opening.blank.keyword word (.cons (by decide) _)
  simpa [conditionYield] using whole

theorem Writes.semicolon : Writes [';'] [.mark .semicolon] :=
  Writes.nil.mark .semicolon Breaks.nil.parts

theorem Stands.ended (stands : Stands text tokens) :
    Writes (text ++ [';']) (tokens ++ ending false) :=
  stands.writes.append (.cons (by decide) []) .semicolon

theorem Writes.braces (lines : Writes text tokens) :
    Writes ('\x7b' :: '\n' :: (text ++ ['\x7d']))
      (.mark .leftBrace :: (tokens ++ [.mark .rightBrace])) := by
  have closing : Writes ['\x7d'] [.mark .rightBrace] :=
    Writes.nil.mark .rightBrace Breaks.nil.parts
  have inner := lines.append (.cons (by decide) []) closing
  have onLine : Writes ('\n' :: (text ++ ['\x7d'])) (tokens ++ [.mark .rightBrace]) := by
    intro behind ends
    rw [List.cons_append, Lexeme.kinds_of_blank rfl]
    exact inner behind ends
  exact onLine.mark .leftBrace (.cons (by decide) _)

theorem Phrase.exists_stands (phrase : Phrase) (spelled : ∀ kind ∈ phrase.yield, kind.Spelled)
    (readable : ∀ x ∈ phrase.tree.numbers, Number.Readable x) :
    ∃ again : Phrase, again.tree = phrase.tree ∧ Stands phrase.tree.text.toList again.yield :=
  ExprDerivation.exists_stands phrase spelled readable

/-- The text in front of an expression is read as the mark alone, and goes on no token. -/
def Opens (before : String) (sign : Mark) : Prop :=
  ∀ text tokens, Writes text tokens →
    Writes (before.toList ++ text) (.mark sign :: tokens) ∧ Breaks (before.toList ++ text)

theorem opens_colon : Opens ": " .colon :=
  fun text _ written => ⟨written.blank.mark .colon (.cons (by decide) _), .cons (by decide) (' ' :: text)⟩

theorem opens_equal : Opens " = " .equal :=
  fun text _ written =>
    ⟨(written.blank.mark .equal (.cons (by decide) _)).blank, .cons (by decide) ('=' :: ' ' :: text)⟩

/-- An expression behind a mark, or neither, in front of what ends a statement. -/
theorem optionalYield_exists_writes {before : String} {sign : Mark} (phrase? : Option Phrase)
    (opens : Opens before sign) (ends : Breaks text) (written : Writes text tokens)
    (spelled : ∀ kind ∈ optionalYield sign phrase?, kind.Spelled)
    (readable : ∀ x ∈ Stmt.optionalNumbers (phrase?.map ExprDerivation.tree), Number.Readable x) :
    ∃ again? : Option Phrase, again?.map ExprDerivation.tree = phrase?.map ExprDerivation.tree ∧
      Writes ((Stmt.optionalText before (phrase?.map ExprDerivation.tree)).toList ++ text)
        (optionalYield sign again? ++ tokens) ∧
      Breaks ((Stmt.optionalText before (phrase?.map ExprDerivation.tree)).toList ++ text) := by
  cases phrase? with
  | none => exact ⟨none, rfl, written, ends⟩
  | some phrase =>
      rw [optionalYield, List.forall_mem_cons] at spelled
      obtain ⟨again, tree, stands⟩ := phrase.exists_stands spelled.2 readable
      obtain ⟨writes, breaks⟩ := opens _ _ (stands.writes.append ends written)
      refine ⟨some again, by rw [Option.map_some, Option.map_some, tree], ?_, ?_⟩
      · simpa [Stmt.optionalText, optionalYield] using writes
      · simpa [Stmt.optionalText] using breaks

end

theorem spelled_of_condition {word : Keyword} {condition : Phrase} {rest : List TokenKind}
    (spelled : ∀ kind ∈ conditionYield word condition ++ rest, kind.Spelled) :
    (∀ kind ∈ condition.yield, kind.Spelled) ∧ ∀ kind ∈ rest, kind.Spelled := by
  simp only [conditionYield, List.cons_append, List.append_assoc, List.forall_mem_cons,
    List.forall_mem_append] at spelled
  exact ⟨spelled.2.2.1, spelled.2.2.2.2.2⟩

mutual

/-- The text of a statement is read as tokens that have the tree of the statement again. -/
theorem StmtDerivation.exists_writes {cut closed : Bool} (d : StmtDerivation cut closed)
    (spelled : ∀ kind ∈ d.yield, kind.Spelled)
    (readable : ∀ x ∈ d.tree.numbers, Number.Readable x) :
    ∃ again : StmtDerivation false closed, again.tree = d.tree ∧
      Writes d.tree.text.toList again.yield := by
  match cut, closed, d with
  | _, _, .empty =>
      refine ⟨.empty, rfl, ?_⟩
      rw [StmtDerivation.tree, Stmt.text, StmtDerivation.yield]
      exact Writes.semicolon
  | _, _, .block body =>
      rw [StmtDerivation.yield, List.cons_append, List.forall_mem_cons, List.forall_mem_append]
        at spelled
      obtain ⟨again, tree, lines⟩ := body.exists_kinds spelled.2.1 readable
      refine ⟨.block again, by rw [StmtDerivation.tree, StmtDerivation.tree, tree], ?_⟩
      have whole := Writes.braces fun behind _ => lines behind
      simpa [StmtDerivation.tree, Stmt.text, StmtDerivation.yield] using whole
  | _, _, .loop condition body =>
      obtain ⟨conditionSpelled, bodySpelled⟩ := spelled_of_condition spelled
      rw [StmtDerivation.tree, Stmt.numbers, List.forall_mem_append] at readable
      obtain ⟨condition', conditionTree, stands⟩ :=
        condition.exists_stands conditionSpelled readable.1
      obtain ⟨body', bodyTree, written⟩ := body.exists_writes bodySpelled readable.2
      refine ⟨.loop condition' body', ?_, ?_⟩
      · rw [StmtDerivation.tree, StmtDerivation.tree, conditionTree, bodyTree]
      · have whole := written.condition .while stands
        simpa [StmtDerivation.tree, Stmt.text, StmtDerivation.yield, Keyword.text] using whole
  | _, _, .branch condition yes =>
      obtain ⟨conditionSpelled, yesSpelled⟩ := spelled_of_condition spelled
      rw [StmtDerivation.tree, Stmt.numbers, List.forall_mem_append] at readable
      obtain ⟨condition', conditionTree, stands⟩ :=
        condition.exists_stands conditionSpelled readable.1
      obtain ⟨yes', yesTree, written⟩ := yes.exists_writes yesSpelled readable.2
      refine ⟨.branch condition' yes', ?_, ?_⟩
      · rw [StmtDerivation.tree, StmtDerivation.tree, conditionTree, yesTree]
      · have whole := written.condition .if stands
        simpa [StmtDerivation.tree, Stmt.text, StmtDerivation.yield, Keyword.text] using whole
  | _, _, .choice condition yes no =>
      obtain ⟨conditionSpelled, rest⟩ := spelled_of_condition spelled
      rw [List.forall_mem_append, List.forall_mem_cons] at rest
      rw [StmtDerivation.tree, Stmt.numbers, List.forall_mem_append, List.forall_mem_append]
        at readable
      obtain ⟨condition', conditionTree, stands⟩ :=
        condition.exists_stands conditionSpelled readable.1
      obtain ⟨yes', yesTree, yesWritten⟩ := yes.exists_writes rest.1 readable.2.1
      obtain ⟨no', noTree, noWritten⟩ := no.exists_writes rest.2.2 readable.2.2
      refine ⟨.choice condition' yes' no', ?_, ?_⟩
      · rw [StmtDerivation.tree, StmtDerivation.tree, conditionTree, yesTree, noTree]
      · have other := (noWritten.blank.keyword .else (.cons (by decide) _)).blank
        have branches := yesWritten.append (.cons (by decide) _) other
        have whole := branches.condition .if stands
        simpa [StmtDerivation.tree, Stmt.text, StmtDerivation.yield, Keyword.text] using whole
  | cut, _, .var name declared initial =>
      simp only [StmtDerivation.yield, List.forall_mem_cons, List.forall_mem_append] at spelled
      rw [StmtDerivation.tree, Stmt.numbers, List.forall_mem_append] at readable
      obtain ⟨initial', initialTree, initialWritten, initialEnds⟩ :=
        optionalYield_exists_writes initial opens_equal (.cons (by decide) []) .semicolon
          spelled.2.2.2.1 readable.2
      obtain ⟨declared', declaredTree, written, ends⟩ :=
        optionalYield_exists_writes declared opens_colon initialEnds initialWritten
          spelled.2.2.1 readable.1
      refine ⟨.var name declared' initial', ?_, ?_⟩
      · rw [StmtDerivation.tree, StmtDerivation.tree, declaredTree, initialTree]
      · have named := (Writes.name spelled.2.1).append ends written
        have whole := named.blank.keyword .var (.cons (by decide) _)
        simpa [StmtDerivation.tree, Stmt.text, StmtDerivation.yield, Keyword.text, ending]
          using whole
  | cut, _, .unit name definition =>
      simp only [StmtDerivation.yield, List.forall_mem_cons, List.forall_mem_append] at spelled
      obtain ⟨definition', definitionTree, written, ends⟩ :=
        optionalYield_exists_writes definition opens_equal (.cons (by decide) []) .semicolon
          spelled.2.2.1 readable
      refine ⟨.unit name definition', ?_, ?_⟩
      · rw [StmtDerivation.tree, StmtDerivation.tree, definitionTree]
      · have named := (Writes.name spelled.2.1).append ends written
        have whole := named.blank.keyword .unit (.cons (by decide) _)
        simpa [StmtDerivation.tree, Stmt.text, StmtDerivation.yield, Keyword.text, ending]
          using whole
  | cut, _, .assign name rhs =>
      simp only [StmtDerivation.yield, List.forall_mem_cons, List.forall_mem_append] at spelled
      obtain ⟨rhs', rhsTree, stands⟩ := rhs.exists_stands spelled.2.2.1 readable
      refine ⟨.assign name rhs', by rw [StmtDerivation.tree, StmtDerivation.tree, rhsTree], ?_⟩
      have sign := (stands.ended.blank.mark .assign (.cons (by decide) _)).blank
      have whole := (Writes.name spelled.1).append (.cons (by decide) _) sign
      simpa [StmtDerivation.tree, Stmt.text, StmtDerivation.yield, Mark.text] using whole
  | cut, _, .constant name rhs =>
      simp only [StmtDerivation.yield, List.forall_mem_cons, List.forall_mem_append] at spelled
      obtain ⟨rhs', rhsTree, stands⟩ := rhs.exists_stands spelled.2.2.2.1 readable
      refine ⟨.constant name rhs', by rw [StmtDerivation.tree, StmtDerivation.tree, rhsTree], ?_⟩
      obtain ⟨sign, ends⟩ := opens_equal _ _ stands.ended
      have named := (Writes.name spelled.2.1).append ends sign
      have whole := named.blank.keyword .let (.cons (by decide) _)
      simpa [StmtDerivation.tree, Stmt.text, StmtDerivation.yield, Keyword.text] using whole
  | cut, _, .expr phrase =>
      rw [StmtDerivation.yield, List.forall_mem_append] at spelled
      obtain ⟨phrase', tree, stands⟩ := phrase.exists_stands spelled.1 readable
      refine ⟨.expr phrase', by rw [StmtDerivation.tree, StmtDerivation.tree, tree], ?_⟩
      simpa [StmtDerivation.tree, Stmt.text, StmtDerivation.yield] using stands.ended

/-- The lines of a body are read as tokens that have its trees again, whatever comes behind them. -/
theorem BodyDerivation.exists_kinds (body : BodyDerivation)
    (spelled : ∀ kind ∈ body.yield, kind.Spelled)
    (readable : ∀ x ∈ Stmt.numbersAll body.tree, Number.Readable x) :
    ∃ again : BodyDerivation, again.tree = body.tree ∧
      ∀ behind, Lexeme.kinds ((Stmt.bodyText body.tree).toList ++ behind) =
        again.yield ++ Lexeme.kinds behind := by
  match body with
  | .nil => exact ⟨.nil, rfl, fun _ => by rw [BodyDerivation.yield]; rfl⟩
  | .cons first rest =>
      rw [BodyDerivation.yield, List.forall_mem_append] at spelled
      rw [BodyDerivation.tree, Stmt.numbersAll, List.forall_mem_append] at readable
      obtain ⟨first', firstTree, written⟩ := first.exists_writes spelled.1 readable.1
      obtain ⟨rest', restTree, kinds⟩ := rest.exists_kinds spelled.2 readable.2
      refine ⟨.cons first' rest', ?_, ?_⟩
      · rw [BodyDerivation.tree, BodyDerivation.tree, firstTree, restTree]
      · intro behind
        rw [BodyDerivation.tree, Stmt.bodyText, String.toList_append, List.append_assoc,
          Lexeme.kinds_indented, written.kinds, kinds, BodyDerivation.yield, List.append_assoc]

end

end Quantities
