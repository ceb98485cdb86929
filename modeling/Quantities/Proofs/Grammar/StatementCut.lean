import Quantities.Proofs.Grammar.ExpressionCut
import Quantities.Proofs.Grammar.StatementSound

/-!
Every statement that is read is cut out of the tokens that were taken, and so are the expressions
and statements in it.
-/

namespace Quantities

/-- The nodes are cut out of the tokens that the reading took. -/
def Parsed.Holds {α : Type} {c : Cursor} (p : Parsed α c) (nodes : List Node) : Prop :=
  ∃ used, p.Took used ∧ Pieces Node.Cut nodes used

namespace Parsed.Holds

variable {α β γ : Type} {c : Cursor} {p : Parsed α c} {nodes others : List Node}

theorem map (holds : p.Holds nodes) (f : α → β) : (p.map f).Holds nodes := by
  obtain ⟨used, took, pieces⟩ := holds
  exact ⟨used, took.map f, pieces⟩

theorem followedBy (holds : p.Holds nodes) {q : Parsed β p.next} (behind : q.Holds others)
    (value : γ) : (p.followedBy q value).Holds (nodes ++ others) := by
  obtain ⟨used, took, pieces⟩ := holds
  obtain ⟨more, tookMore, otherPieces⟩ := behind
  exact ⟨used ++ more, took.followedBy tookMore value, pieces.append otherPieces⟩

theorem of_take? {accept : TokenKind → Option α} (taken : c.take? accept = some p) :
    p.Holds [] := by
  obtain ⟨token, took, -⟩ := Cursor.take?_took taken
  exact ⟨[token], took, .nil⟩

theorem inOrder (holds : p.Holds nodes) (inOrder : Token.InOrder c.rest) :
    Token.InOrder p.next.rest := by
  obtain ⟨used, took, -⟩ := holds
  exact took.inOrder inOrder

end Parsed.Holds

namespace Grammar

variable {α : Type} {c : Cursor} {nodes : List Node}

theorem expression_holds {p : Parsed Expr c} (inOrder : Token.InOrder c.rest)
    (read : expression c = .ok p) : p.Holds [.expr p.value] := by
  obtain ⟨d, used, cuts⟩ := level_cut Level.all List.suffix_rfl inOrder read
  exact ⟨used, cuts.took, .single cuts.cut⟩

theorem terminated_holds {p q : Parsed α c} (holds : p.Holds nodes) (read : terminated p = .ok q) :
    q.Holds nodes := by
  unfold terminated at read
  split at read
  next =>
    cases read
    exact holds
  next =>
    obtain ⟨closing, taken, read⟩ := Result.bind_eq_ok.mp read
    cases read
    have whole := holds.followedBy (.of_take? (Cursor.needMark_eq_ok.mp taken)) p.value
    rwa [List.append_nil] at whole

theorem optionalAfter_holds {sign : Mark} {p : Parsed α c} {q : Parsed (α × Option Expr) c}
    (inOrder : Token.InOrder c.rest) (holds : p.Holds nodes) (read : optionalAfter sign p = .ok q) :
    q.Holds (nodes ++ q.value.2.toList.map .expr) := by
  unfold optionalAfter at read
  split at read
  next =>
    cases read
    have same := holds.map fun value => (value, (none : Option Expr))
    rwa [← List.append_nil nodes] at same
  next mark taken =>
    obtain ⟨e, expressionRead, read⟩ := Result.bind_eq_ok.mp read
    cases read
    have markHolds := Parsed.Holds.of_take? taken
    have inner := expression_holds (markHolds.inOrder (holds.inOrder inOrder)) expressionRead
    exact holds.followedBy (markHolds.followedBy inner ()) (p.value, some e.value)

theorem needAfter_holds {sign : Mark} {p : Parsed Expr c} (inOrder : Token.InOrder c.rest)
    (read : needAfter sign c = .ok p) : p.Holds [.expr p.value] := by
  obtain ⟨mark, taken, read⟩ := Result.bind_eq_ok.mp read
  obtain ⟨e, expressionRead, read⟩ := Result.bind_eq_ok.mp read
  cases read
  have markHolds := Parsed.Holds.of_take? (Cursor.needMark_eq_ok.mp taken)
  exact markHolds.followedBy (expression_holds (markHolds.inOrder inOrder) expressionRead) e.value

theorem condition_holds {head : Parsed α c} {p : Parsed Expr c} (inOrder : Token.InOrder c.rest)
    (holds : head.Holds []) (read : condition head = .ok p) : p.Holds [.expr p.value] := by
  obtain ⟨opening, opened, read⟩ := Result.bind_eq_ok.mp read
  obtain ⟨e, expressionRead, read⟩ := Result.bind_eq_ok.mp read
  obtain ⟨closing, closed, read⟩ := Result.bind_eq_ok.mp read
  cases read
  have openHolds := Parsed.Holds.of_take? (Cursor.needMark_eq_ok.mp opened)
  have inner := expression_holds (openHolds.inOrder (holds.inOrder inOrder)) expressionRead
  have closeHolds := Parsed.Holds.of_take? (Cursor.needMark_eq_ok.mp closed)
  exact holds.followedBy (openHolds.followedBy (inner.followedBy closeHolds ()) ()) e.value

/-- The location of the statement is that of its reading, and its children are cut out. -/
structure Placed (p : Parsed Stmt c) : Prop where
  location : p.value.location = p.location
  holds : p.Holds (Node.stmt p.value).children

theorem derived_statement {p : Parsed Stmt c} {used : List Token} (read : statement c = .ok p)
    (took : p.Took used) : (Node.stmt p.value).Derived (used.map (·.kind)) := by
  obtain ⟨cut, atEnd, d, readAs⟩ := statement_sound read false (absurd · Bool.false_ne_true)
  have kinds := readAs.kinds
  rw [took.kinds] at kinds
  have yield : d.yield = used.map (·.kind) := (List.append_cancel_right kinds).symm
  cases cut with
  | false =>
      refine ⟨.whole (.cons d .nil), ?_, ?_⟩
      · rw [ProgramDerivation.yield, BodyDerivation.yield, BodyDerivation.yield, List.append_nil,
          yield]
      · rw [ProgramDerivation.tree, BodyDerivation.tree, BodyDerivation.tree, readAs.tree]
  | true => exact ⟨.cut .nil d, yield, by rw [readAs.tree]; rfl⟩

theorem Placed.statement {p : Parsed Stmt c} (placed : Placed p)
    (read : statement c = .ok p) : p.Holds [.stmt p.value] := by
  obtain ⟨used, took, pieces⟩ := placed.holds
  have covers : (Node.stmt p.value).location.Covers used := by
    rw [Node.location, placed.location]
    exact took.covers
  exact ⟨used, took, .single (.of_children covers (derived_statement read took) pieces)⟩

theorem placed_place {whole : Parsed α c} {make : Location → α → Stmt} (holds : whole.Holds nodes)
    (location : (make whole.location whole.value).location = whole.location)
    (children : (Node.stmt (make whole.location whole.value)).children = nodes) :
    Placed (place whole make) :=
  ⟨location, children ▸ holds.map _⟩

section

variable {head : Parsed α c} {p : Parsed Stmt c}

theorem varStatement_placed (inOrder : Token.InOrder c.rest) (holds : head.Holds [])
    (read : varStatement head = .ok p) : Placed p := by
  obtain ⟨name, nameRead, read⟩ := Result.bind_eq_ok.mp read
  obtain ⟨declared, declaredRead, read⟩ := Result.bind_eq_ok.mp read
  obtain ⟨initial, initialRead, read⟩ := Result.bind_eq_ok.mp read
  obtain ⟨whole, wholeRead, read⟩ := Result.bind_eq_ok.mp read
  cases read
  have nameHolds := holds.followedBy (.of_take? (Cursor.need_eq_ok.mp nameRead)) name.value
  have declaredHolds := optionalAfter_holds inOrder nameHolds declaredRead
  have wholeHolds :=
    terminated_holds (optionalAfter_holds inOrder declaredHolds initialRead) wholeRead
  obtain ⟨sameDeclared, -⟩ := optionalAfter_sound initialRead
  obtain ⟨sameValue, -⟩ := terminated_sound wholeRead
  refine placed_place wholeHolds rfl ?_
  rw [sameValue]
  simp [Node.children, Stmt.exprs, Stmt.children, sameDeclared]

theorem unitStatement_placed (inOrder : Token.InOrder c.rest) (holds : head.Holds [])
    (read : unitStatement head = .ok p) : Placed p := by
  obtain ⟨name, nameRead, read⟩ := Result.bind_eq_ok.mp read
  obtain ⟨definition, definitionRead, read⟩ := Result.bind_eq_ok.mp read
  obtain ⟨whole, wholeRead, read⟩ := Result.bind_eq_ok.mp read
  cases read
  have nameHolds := holds.followedBy (.of_take? (Cursor.need_eq_ok.mp nameRead)) name.value
  have wholeHolds := terminated_holds (optionalAfter_holds inOrder nameHolds definitionRead) wholeRead
  obtain ⟨sameValue, -⟩ := terminated_sound wholeRead
  refine placed_place wholeHolds rfl ?_
  rw [sameValue]
  simp [Node.children, Stmt.exprs, Stmt.children]

theorem constantStatement_placed (inOrder : Token.InOrder c.rest) (holds : head.Holds [])
    (read : constantStatement head = .ok p) : Placed p := by
  obtain ⟨name, nameRead, read⟩ := Result.bind_eq_ok.mp read
  obtain ⟨rhs, rhsRead, read⟩ := Result.bind_eq_ok.mp read
  obtain ⟨whole, wholeRead, read⟩ := Result.bind_eq_ok.mp read
  cases read
  have nameHolds := Parsed.Holds.of_take? (Cursor.need_eq_ok.mp nameRead)
  have rhsHolds := needAfter_holds (nameHolds.inOrder (holds.inOrder inOrder)) rhsRead
  have wholeHolds := terminated_holds
    (holds.followedBy (nameHolds.followedBy rhsHolds ()) (name.value, rhs.value)) wholeRead
  obtain ⟨sameValue, -⟩ := terminated_sound wholeRead
  refine placed_place wholeHolds rfl ?_
  rw [sameValue]
  rfl

theorem assignment_placed {target : Parsed String c} (inOrder : Token.InOrder c.rest)
    (holds : target.Holds []) (read : assignment target = .ok p) : Placed p := by
  obtain ⟨rhs, rhsRead, read⟩ := Result.bind_eq_ok.mp read
  obtain ⟨whole, wholeRead, read⟩ := Result.bind_eq_ok.mp read
  cases read
  have rhsHolds := expression_holds (holds.inOrder inOrder) rhsRead
  have wholeHolds :=
    terminated_holds (holds.followedBy rhsHolds (target.value, rhs.value)) wholeRead
  obtain ⟨sameValue, -⟩ := terminated_sound wholeRead
  refine placed_place wholeHolds rfl ?_
  rw [sameValue]
  rfl

theorem expressionStatement_placed (inOrder : Token.InOrder c.rest)
    (read : expressionStatement c = .ok p) : Placed p := by
  obtain ⟨e, expressionRead, read⟩ := Result.bind_eq_ok.mp read
  obtain ⟨whole, wholeRead, read⟩ := Result.bind_eq_ok.mp read
  cases read
  have wholeHolds := terminated_holds (expression_holds inOrder expressionRead) wholeRead
  obtain ⟨sameValue, -⟩ := terminated_sound wholeRead
  refine placed_place wholeHolds rfl ?_
  rw [sameValue]
  rfl

end

theorem takeTarget?_holds {target : Parsed String c} (taken : c.takeTarget? = some target) :
    target.Holds [] := by
  obtain ⟨name, nameTaken, taken⟩ := Option.bind_eq_some_iff.mp taken
  obtain ⟨mark, markTaken, taken⟩ := Option.bind_eq_some_iff.mp taken
  cases taken
  have nameHolds := Parsed.Holds.of_take? nameTaken
  exact nameHolds.followedBy (.of_take? markTaken) name.value

mutual

theorem statement_placed {c : Cursor} {p : Parsed Stmt c} (inOrder : Token.InOrder c.rest)
    (read : statement c = .ok p) : Placed p := by
  rw [statement] at read
  split at read
  next head taken =>
    have holds := Parsed.Holds.of_take? taken
    split at read
    next =>
      cases read
      exact placed_place holds rfl rfl
    next => exact varStatement_placed inOrder holds read
    next => exact unitStatement_placed inOrder holds read
    next => exact constantStatement_placed inOrder holds read
    next =>
      obtain ⟨body, bodyRead, read⟩ := Result.bind_eq_ok.mp read
      cases read
      have bodyHolds := blockBody_holds (holds.inOrder inOrder) bodyRead
      exact placed_place (holds.followedBy bodyHolds body.value) rfl rfl
    next =>
      obtain ⟨test, testRead, read⟩ := Result.bind_eq_ok.mp read
      obtain ⟨body, bodyRead, read⟩ := Result.bind_eq_ok.mp read
      cases read
      have testHolds := condition_holds inOrder holds testRead
      have bodyHolds :=
        (statement_placed (testHolds.inOrder inOrder) bodyRead).statement bodyRead
      exact placed_place (testHolds.followedBy bodyHolds (test.value, body.value)) rfl rfl
    next =>
      obtain ⟨test, testRead, read⟩ := Result.bind_eq_ok.mp read
      obtain ⟨yes, yesRead, read⟩ := Result.bind_eq_ok.mp read
      have testHolds := condition_holds inOrder holds testRead
      have yesHolds := (statement_placed (testHolds.inOrder inOrder) yesRead).statement yesRead
      have taken := testHolds.followedBy yesHolds (test.value, yes.value)
      simp only at read
      split at read
      next =>
        cases read
        exact placed_place taken rfl rfl
      next other elseTaken =>
        obtain ⟨no, noRead, read⟩ := Result.bind_eq_ok.mp read
        cases read
        have otherHolds := Parsed.Holds.of_take? elseTaken
        have noHolds := (statement_placed
          (otherHolds.inOrder (taken.inOrder inOrder)) noRead).statement noRead
        exact placed_place (taken.followedBy (otherHolds.followedBy noHolds ())
          ((test.value, yes.value), no.value)) rfl rfl
  next =>
    split at read
    next target taken => exact assignment_placed inOrder (takeTarget?_holds taken) read
    next => exact expressionStatement_placed inOrder read
termination_by (c.rest.length, 0)
decreasing_by
  · exact Prod.Lex.left _ _ (Parsed.shorter _)
  · exact Prod.Lex.left _ _ (Parsed.shorter _)
  · exact Prod.Lex.left _ _ (Parsed.shorter _)
  · exact Prod.Lex.left _ _
      (Nat.lt_trans (Parsed.shorter _) (Parsed.shorter (Parsed.followedBy _ _ _)))

theorem blockBody_holds {c : Cursor} {p : Parsed (List Stmt) c} (inOrder : Token.InOrder c.rest)
    (read : blockBody c = .ok p) : p.Holds (p.value.map .stmt) := by
  rw [blockBody] at read
  split at read
  next closing taken =>
    cases read
    exact (Parsed.Holds.of_take? taken).map _
  next =>
    split at read
    next => cases read
    next =>
      obtain ⟨first, firstRead, read⟩ := Result.bind_eq_ok.mp read
      obtain ⟨rest, restRead, read⟩ := Result.bind_eq_ok.mp read
      cases read
      have firstHolds := (statement_placed inOrder firstRead).statement firstRead
      have restHolds := blockBody_holds (firstHolds.inOrder inOrder) restRead
      exact firstHolds.followedBy restHolds (first.value :: rest.value)
termination_by (c.rest.length, 1)
decreasing_by
  · exact Prod.Lex.right _ (by decide)
  · exact Prod.Lex.left _ _ (Parsed.shorter _)

end

theorem statements_cut {c : Cursor} {program : List Stmt} (inOrder : Token.InOrder c.rest)
    (read : statements c = .ok program) : Pieces Node.Cut (program.map .stmt) c.rest := by
  rw [statements] at read
  split at read
  next =>
    cases read
    exact .nil
  next =>
    obtain ⟨first, firstRead, read⟩ := Result.bind_eq_ok.mp read
    obtain ⟨rest, restRead, read⟩ := Result.bind_eq_ok.mp read
    cases read
    obtain ⟨used, took, pieces⟩ := (statement_placed inOrder firstRead).statement firstRead
    rw [took.rest]
    exact pieces.append (statements_cut (took.inOrder inOrder) restRead)
termination_by c.rest.length
decreasing_by exact Parsed.shorter _

end Grammar

end Quantities
