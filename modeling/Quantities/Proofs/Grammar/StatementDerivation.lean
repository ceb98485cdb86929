import Quantities.Proofs.Grammar.Derivation
import Quantities.Token

/-!
The grammar of statements and programs. A statement is cut when its last semicolon is left out,
which only the last statement of a program may be. It is closed when an `else` after it cannot
belong to an `if` in it, which a statement in front of an `else` has to be.
-/

namespace Quantities

/-- A whole expression. -/
abbrev Phrase : Type := ExprDerivation (.level Level.all)

/-- What closes a statement. -/
def ending (cut : Bool) : List TokenKind := if cut then [] else [.mark .semicolon]

/-- An expression behind a mark, or neither. -/
def optionalYield (sign : Mark) : Option Phrase → List TokenKind
  | none => []
  | some phrase => .mark sign :: phrase.yield

/-- A word and a condition in parentheses. -/
def conditionYield (word : Keyword) (condition : Phrase) : List TokenKind :=
  .keyword word :: .mark .leftParen :: condition.yield ++ [.mark .rightParen]

mutual

inductive StmtDerivation : (cut closed : Bool) → Type where
  | empty {closed : Bool} : StmtDerivation false closed
  | block {closed : Bool} (body : BodyDerivation) : StmtDerivation false closed
  | loop {cut closed : Bool} (condition : Phrase) (body : StmtDerivation cut closed) :
      StmtDerivation cut closed
  | branch {cut : Bool} (condition : Phrase) (yes : StmtDerivation cut false) :
      StmtDerivation cut false
  | choice {cut closed : Bool} (condition : Phrase) (yes : StmtDerivation false true)
      (no : StmtDerivation cut closed) : StmtDerivation cut closed
  | var {cut closed : Bool} (name : String) (declared initial : Option Phrase) :
      StmtDerivation cut closed
  | unit {cut closed : Bool} (name : String) (definition : Option Phrase) :
      StmtDerivation cut closed
  | assign {cut closed : Bool} (name : String) (rhs : Phrase) : StmtDerivation cut closed
  | constant {cut closed : Bool} (name : String) (rhs : Phrase) : StmtDerivation cut closed
  | expr {cut closed : Bool} (phrase : Phrase) : StmtDerivation cut closed

/-- The statements of a block. -/
inductive BodyDerivation : Type where
  | nil : BodyDerivation
  | cons (first : StmtDerivation false false) (rest : BodyDerivation) : BodyDerivation

end

inductive ProgramDerivation where
  | whole (body : BodyDerivation)
  | cut (body : BodyDerivation) (last : StmtDerivation true false)

mutual

def StmtDerivation.yield {cut closed : Bool} : StmtDerivation cut closed → List TokenKind
  | .empty => [.mark .semicolon]
  | .block body => .mark .leftBrace :: body.yield ++ [.mark .rightBrace]
  | .loop condition body => conditionYield .while condition ++ body.yield
  | .branch condition yes => conditionYield .if condition ++ yes.yield
  | .choice condition yes no =>
    conditionYield .if condition ++ (yes.yield ++ .keyword .else :: no.yield)
  | .var name declared initial =>
    .keyword .var :: .name name ::
      (optionalYield .colon declared ++ (optionalYield .equal initial ++ ending cut))
  | .unit name definition =>
    .keyword .unit :: .name name :: (optionalYield .equal definition ++ ending cut)
  | .assign name rhs => .name name :: .mark .assign :: (rhs.yield ++ ending cut)
  | .constant name rhs =>
    .keyword .let :: .name name :: .mark .equal :: (rhs.yield ++ ending cut)
  | .expr phrase => phrase.yield ++ ending cut

def BodyDerivation.yield : BodyDerivation → List TokenKind
  | .nil => []
  | .cons first rest => first.yield ++ rest.yield

end

mutual

def StmtDerivation.tree {cut closed : Bool} : StmtDerivation cut closed → Stmt
  | .empty => .empty .nowhere
  | .block body => .block .nowhere body.tree
  | .loop condition body => .loop .nowhere condition.tree body.tree
  | .branch condition yes => .branch .nowhere condition.tree yes.tree none
  | .choice condition yes no => .branch .nowhere condition.tree yes.tree (some no.tree)
  | .var name declared initial =>
    .var .nowhere name (declared.map ExprDerivation.tree) (initial.map ExprDerivation.tree)
  | .unit name definition => .unit .nowhere name (definition.map ExprDerivation.tree)
  | .assign name rhs => .assign .nowhere name rhs.tree
  | .constant name rhs => .constant .nowhere name rhs.tree
  | .expr phrase => .expr .nowhere phrase.tree

def BodyDerivation.tree : BodyDerivation → List Stmt
  | .nil => []
  | .cons first rest => first.tree :: rest.tree

end

namespace ProgramDerivation

def yield : ProgramDerivation → List TokenKind
  | whole body => body.yield
  | cut body last => body.yield ++ last.yield

def tree : ProgramDerivation → List Stmt
  | whole body => body.tree
  | cut body last => body.tree ++ [last.tree]

end ProgramDerivation

/-- The tokens of expressions. -/
def TokenKind.inExpression : TokenKind → Bool
  | .number _ | .name _ => true
  | .keyword .true | .keyword .false | .keyword .boolean | .keyword .scalar | .keyword .as => true
  | .keyword _ => false
  | .mark .assign | .mark .equal | .mark .colon | .mark .semicolon | .mark .leftBrace
  | .mark .rightBrace => false
  | .mark _ => true
  | .invalid => false

theorem Atom.kind_inExpression (single : Atom) : single.kind.inExpression = true := by
  cases single with
  | number x | name text => rfl
  | truth value => cases value <;> rfl
  | word type => cases type <;> rfl

theorem Connector.kind_inExpression (connector : Connector) :
    connector.kind.inExpression = true := by
  cases connector with
  | logical op => cases op <;> rfl
  | binary op => cases op <;> rfl
  | conversion => rfl

theorem ExprDerivation.inExpression {stratum : Stratum} (d : ExprDerivation stratum) :
    ∀ kind ∈ d.yield, kind.inExpression = true := by
  induction d with
  | tighter inner ih | signed inner ih | ascribed inner ih | plain inner ih | primary inner ih =>
      exact ih
  | join connector atLevel left right leftIh rightIh =>
      intro kind member
      simp only [yield, List.mem_append, List.mem_cons] at member
      rcases member with inLeft | rfl | inRight
      · exact leftIh kind inLeft
      · exact connector.kind_inExpression
      · exact rightIh kind inRight
  | sign op operand ih =>
      intro kind member
      rcases List.mem_cons.mp member with rfl | inOperand
      · cases op <;> rfl
      · exact ih kind inOperand
  | ascribe operand unit operandIh unitIh =>
      intro kind member
      rcases List.mem_append.mp member with inOperand | inUnit
      · exact operandIh kind inOperand
      · exact unitIh kind inUnit
  | power base exponent ih =>
      intro kind member
      simp only [yield, List.mem_append, List.mem_cons] at member
      rcases member with inBase | rfl | inExponent
      · exact ih kind inBase
      · rfl
      · cases exponent <;> simp only [Exponent.yield, List.mem_cons, List.not_mem_nil, or_false]
          at inExponent
        · subst inExponent
          rfl
        · rcases inExponent with rfl | rfl <;> rfl
        · rcases inExponent with rfl | rfl <;> rfl
  | atom single fits =>
      intro kind member
      obtain rfl := List.mem_singleton.mp member
      exact single.kind_inExpression
  | paren inner ih =>
      intro kind member
      simp only [yield, List.cons_append, List.mem_cons, List.mem_append, List.not_mem_nil,
        or_false] at member
      rcases member with rfl | inInner | rfl
      · rfl
      · exact ih kind inInner
      · rfl

theorem StmtDerivation.yield_eq_cons {cut closed : Bool} (d : StmtDerivation cut closed) :
    ∃ kind more, d.yield = kind :: more ∧ kind ≠ .mark .rightBrace ∧ kind ≠ .keyword .else := by
  cases d with
  | expr phrase =>
      obtain ⟨kind, more, yield, -⟩ := phrase.yield_eq_cons
      have inside := phrase.inExpression kind (by simp [yield])
      refine ⟨kind, more ++ ending cut, by rw [StmtDerivation.yield, yield]; rfl, ?_, ?_⟩
      · rintro rfl
        cases inside
      · rintro rfl
        cases inside
  | _ => exact ⟨_, _, rfl, nofun, nofun⟩

theorem BodyDerivation.head?_yield_ne (body : BodyDerivation) {rest : List TokenKind}
    (noElse : rest.head? ≠ some (.keyword .else)) :
    (body.yield ++ rest).head? ≠ some (.keyword .else) := by
  cases body with
  | nil => exact noElse
  | cons first others =>
      obtain ⟨kind, more, yield, -, other⟩ := first.yield_eq_cons
      simpa [BodyDerivation.yield, yield] using other

end Quantities
