import Quantities.Grammar.Statement
import Quantities.Proofs.Grammar.ExpressionSound
import Quantities.Proofs.Grammar.StatementDerivation

/-! What is read as statements is derived by the grammar. -/

namespace Quantities

namespace StatementHead

def kind : StatementHead → TokenKind
  | .empty => .mark .semicolon
  | .block => .mark .leftBrace
  | .var => .keyword .var
  | .unit => .keyword .unit
  | .constant => .keyword .let
  | .branch => .keyword .if
  | .loop => .keyword .while

theorem ofToken?_eq_some {kind : TokenKind} {head : StatementHead} :
    ofToken? kind = some head ↔ head.kind = kind := by
  constructor
  · intro found
    unfold ofToken? at found
    split at found <;> cases found <;> rfl
  · rintro rfl
    cases head <;> rfl

end StatementHead

theorem Cursor.takeTarget?_kinds {c : Cursor} {p : Parsed String c}
    (taken : c.takeTarget? = some p) : c.kinds = .name p.value :: .mark .assign :: p.next.kinds := by
  obtain ⟨name, nameTaken, taken⟩ := Option.bind_eq_some_iff.mp taken
  obtain ⟨mark, markTaken, taken⟩ := Option.bind_eq_some_iff.mp taken
  cases taken
  obtain ⟨kind, kinds, accepted⟩ := take?_kinds nameTaken
  rw [kinds, takeMark?_kinds markTaken, acceptName_eq_some.mp accepted]
  rfl

/-- The reading took the yield of the derivation and gave its tree. -/
structure ReadStatement {c : Cursor} (p : Parsed Stmt c) {cut closed : Bool}
    (d : StmtDerivation cut closed) : Prop where
  kinds : c.kinds = d.yield ++ p.next.kinds
  tree : p.value.bare = d.tree

/-- The reading is that of a statement, which is cut at most at the end of the text. -/
def Derived {c : Cursor} (p : Parsed Stmt c) (closed : Bool) : Prop :=
  ∃ cut, (cut = true → p.next.kinds = []) ∧
    ∃ d : StmtDerivation cut closed, ReadStatement p d

namespace Grammar

variable {α : Type} {c : Cursor}

theorem expression_sound {p : Parsed Expr c} (read : expression c = .ok p) :
    ∃ d : Phrase, c.kinds = d.yield ++ p.next.kinds ∧ p.value.bare = d.tree := by
  obtain ⟨d, readAs⟩ := level_sound Level.all read
  exact ⟨d, readAs.kinds, readAs.tree⟩

theorem needName_sound {p : Parsed String c} (read : c.needName = .ok p) :
    c.kinds = .name p.value :: p.next.kinds := by
  obtain ⟨kind, kinds, accepted⟩ := Cursor.take?_kinds (Cursor.need_eq_ok.mp read)
  rw [kinds, Cursor.acceptName_eq_some.mp accepted]

theorem terminated_sound {p q : Parsed α c} (read : terminated p = .ok q) :
    q.value = p.value ∧ ∃ cut, (cut = true → q.next.kinds = []) ∧
      p.next.kinds = ending cut ++ q.next.kinds := by
  unfold terminated at read
  split at read
  next atEnd =>
    cases read
    have empty := p.next.atEnd_iff.mp atEnd
    exact ⟨rfl, true, fun _ => empty, rfl⟩
  next =>
    obtain ⟨closing, taken, read⟩ := Result.bind_eq_ok.mp read
    cases read
    exact ⟨rfl, false, nofun,
      Cursor.takeMark?_kinds (Cursor.needMark_eq_ok.mp taken)⟩

theorem needAfter_sound {sign : Mark} {p : Parsed Expr c} (read : needAfter sign c = .ok p) :
    ∃ d : Phrase, c.kinds = .mark sign :: (d.yield ++ p.next.kinds) ∧ p.value.bare = d.tree := by
  obtain ⟨mark, taken, read⟩ := Result.bind_eq_ok.mp read
  obtain ⟨e, expressionRead, read⟩ := Result.bind_eq_ok.mp read
  cases read
  obtain ⟨d, kinds, tree⟩ := expression_sound expressionRead
  refine ⟨d, ?_, tree⟩
  rw [Cursor.takeMark?_kinds (Cursor.needMark_eq_ok.mp taken), kinds]
  rfl

theorem optionalAfter_sound {sign : Mark} {p : Parsed α c} {q : Parsed (α × Option Expr) c}
    (read : optionalAfter sign p = .ok q) :
    q.value.1 = p.value ∧ ∃ phrase? : Option Phrase,
      p.next.kinds = optionalYield sign phrase? ++ q.next.kinds ∧
        q.value.2.map Expr.bare = phrase?.map ExprDerivation.tree := by
  unfold optionalAfter at read
  split at read
  next =>
    cases read
    exact ⟨rfl, none, rfl, rfl⟩
  next mark taken =>
    obtain ⟨e, expressionRead, read⟩ := Result.bind_eq_ok.mp read
    cases read
    obtain ⟨d, kinds, tree⟩ := expression_sound expressionRead
    refine ⟨rfl, some d, ?_, by simp [Parsed.followedBy, tree]⟩
    rw [Cursor.takeMark?_kinds taken, kinds]
    rfl

theorem condition_sound {head : Parsed α c} {p : Parsed Expr c} (read : condition head = .ok p) :
    ∃ d : Phrase, head.next.kinds =
        .mark .leftParen :: (d.yield ++ .mark .rightParen :: p.next.kinds) ∧
      p.value.bare = d.tree := by
  obtain ⟨opening, opened, read⟩ := Result.bind_eq_ok.mp read
  obtain ⟨e, expressionRead, read⟩ := Result.bind_eq_ok.mp read
  obtain ⟨closing, closed, read⟩ := Result.bind_eq_ok.mp read
  cases read
  obtain ⟨d, kinds, tree⟩ := expression_sound expressionRead
  refine ⟨d, ?_, tree⟩
  rw [Cursor.takeMark?_kinds (Cursor.needMark_eq_ok.mp opened), kinds,
    Cursor.takeMark?_kinds (Cursor.needMark_eq_ok.mp closed)]
  rfl

section

variable {head : Parsed α c} {p : Parsed Stmt c}

theorem varStatement_sound (kinds : c.kinds = .keyword .var :: head.next.kinds)
    (read : varStatement head = .ok p) (closed : Bool) : Derived p closed := by
  obtain ⟨name, nameRead, read⟩ := Result.bind_eq_ok.mp read
  obtain ⟨declared, declaredRead, read⟩ := Result.bind_eq_ok.mp read
  obtain ⟨initial, initialRead, read⟩ := Result.bind_eq_ok.mp read
  obtain ⟨whole, wholeRead, read⟩ := Result.bind_eq_ok.mp read
  cases read
  obtain ⟨sameName, declaredPhrase, declaredKinds, declaredTree⟩ := optionalAfter_sound declaredRead
  obtain ⟨sameDeclared, initialPhrase, initialKinds, initialTree⟩ := optionalAfter_sound initialRead
  obtain ⟨sameValue, cut, atEnd, endingKinds⟩ := terminated_sound wholeRead
  refine ⟨cut, atEnd, .var name.value declaredPhrase initialPhrase, ?_, ?_⟩
  · rw [kinds, needName_sound nameRead]
    have left : name.next.kinds = optionalYield .colon declaredPhrase ++
        (optionalYield .equal initialPhrase ++ (ending cut ++ whole.next.kinds)) := by
      rw [← endingKinds, ← initialKinds, ← declaredKinds]
      rfl
    rw [left]
    simp [StmtDerivation.yield, place, Parsed.map]
  · simp only [place, Parsed.map, Stmt.bare, StmtDerivation.tree, sameValue, sameDeclared, sameName,
      declaredTree, initialTree, Parsed.followedBy]

theorem unitStatement_sound (kinds : c.kinds = .keyword .unit :: head.next.kinds)
    (read : unitStatement head = .ok p) (closed : Bool) : Derived p closed := by
  obtain ⟨name, nameRead, read⟩ := Result.bind_eq_ok.mp read
  obtain ⟨definition, definitionRead, read⟩ := Result.bind_eq_ok.mp read
  obtain ⟨whole, wholeRead, read⟩ := Result.bind_eq_ok.mp read
  cases read
  obtain ⟨sameName, phrase, phraseKinds, phraseTree⟩ := optionalAfter_sound definitionRead
  obtain ⟨sameValue, cut, atEnd, endingKinds⟩ := terminated_sound wholeRead
  refine ⟨cut, atEnd, .unit name.value phrase, ?_, ?_⟩
  · rw [kinds, needName_sound nameRead]
    have left : name.next.kinds =
        optionalYield .equal phrase ++ (ending cut ++ whole.next.kinds) := by
      rw [← endingKinds, ← phraseKinds]
      rfl
    rw [left]
    simp [StmtDerivation.yield, place, Parsed.map]
  · simp only [place, Parsed.map, Stmt.bare, StmtDerivation.tree, sameValue, sameName, phraseTree,
      Parsed.followedBy]

theorem constantStatement_sound (kinds : c.kinds = .keyword .let :: head.next.kinds)
    (read : constantStatement head = .ok p) (closed : Bool) : Derived p closed := by
  obtain ⟨name, nameRead, read⟩ := Result.bind_eq_ok.mp read
  obtain ⟨rhs, rhsRead, read⟩ := Result.bind_eq_ok.mp read
  obtain ⟨whole, wholeRead, read⟩ := Result.bind_eq_ok.mp read
  cases read
  obtain ⟨phrase, phraseKinds, phraseTree⟩ := needAfter_sound rhsRead
  obtain ⟨sameValue, cut, atEnd, endingKinds⟩ := terminated_sound wholeRead
  have left : rhs.next.kinds = ending cut ++ whole.next.kinds := endingKinds
  refine ⟨cut, atEnd, .constant name.value phrase, ?_, ?_⟩
  · rw [kinds, needName_sound nameRead, phraseKinds, left]
    simp [StmtDerivation.yield, place, Parsed.map]
  · simp only [place, Parsed.map, Stmt.bare, StmtDerivation.tree, sameValue, phraseTree,
      Parsed.followedBy]

end

theorem assignment_sound {target : Parsed String c} {p : Parsed Stmt c}
    (kinds : c.kinds = .name target.value :: .mark .assign :: target.next.kinds)
    (read : assignment target = .ok p) (closed : Bool) : Derived p closed := by
  obtain ⟨rhs, rhsRead, read⟩ := Result.bind_eq_ok.mp read
  obtain ⟨whole, wholeRead, read⟩ := Result.bind_eq_ok.mp read
  cases read
  obtain ⟨phrase, phraseKinds, phraseTree⟩ := expression_sound rhsRead
  obtain ⟨sameValue, cut, atEnd, endingKinds⟩ := terminated_sound wholeRead
  have left : rhs.next.kinds = ending cut ++ whole.next.kinds := endingKinds
  refine ⟨cut, atEnd, .assign target.value phrase, ?_, ?_⟩
  · rw [kinds, phraseKinds, left]
    simp [StmtDerivation.yield, place, Parsed.map]
  · simp only [place, Parsed.map, Stmt.bare, StmtDerivation.tree, sameValue, phraseTree,
      Parsed.followedBy]

theorem expressionStatement_sound {p : Parsed Stmt c} (read : expressionStatement c = .ok p)
    (closed : Bool) : Derived p closed := by
  obtain ⟨e, expressionRead, read⟩ := Result.bind_eq_ok.mp read
  obtain ⟨whole, wholeRead, read⟩ := Result.bind_eq_ok.mp read
  cases read
  obtain ⟨phrase, phraseKinds, phraseTree⟩ := expression_sound expressionRead
  obtain ⟨sameValue, cut, atEnd, endingKinds⟩ := terminated_sound wholeRead
  refine ⟨cut, atEnd, .expr phrase, ?_, ?_⟩
  · rw [phraseKinds, endingKinds]
    simp [StmtDerivation.yield, place, Parsed.map]
  · simp only [place, Parsed.map, Stmt.bare, StmtDerivation.tree, sameValue, phraseTree]

mutual

theorem statement_sound {c : Cursor} {p : Parsed Stmt c} (read : statement c = .ok p)
    (closed : Bool) (fits : closed = true → p.next.kinds.head? = some (.keyword .else)) :
    Derived p closed := by
  rw [statement] at read
  split at read
  next head taken =>
    obtain ⟨kind, kinds, accepted⟩ := Cursor.take?_kinds taken
    have first := (StatementHead.ofToken?_eq_some.mp accepted).symm
    split at read
    next found =>
      cases read
      rw [first, found] at kinds
      exact ⟨false, nofun, .empty, kinds, rfl⟩
    next found =>
      rw [first, found] at kinds
      exact varStatement_sound kinds read closed
    next found =>
      rw [first, found] at kinds
      exact unitStatement_sound kinds read closed
    next found =>
      rw [first, found] at kinds
      exact constantStatement_sound kinds read closed
    next found =>
      obtain ⟨body, bodyRead, read⟩ := Result.bind_eq_ok.mp read
      cases read
      rw [first, found] at kinds
      obtain ⟨d, bodyKinds, bodyTree⟩ := blockBody_sound bodyRead
      refine ⟨false, nofun, .block d, ?_, ?_⟩
      · rw [kinds, bodyKinds]
        simp [StmtDerivation.yield, StatementHead.kind, place, Parsed.map, Parsed.followedBy]
      · simp only [place, Parsed.map, Stmt.bare, StmtDerivation.tree, Stmt.bareAll_eq_map, bodyTree,
          Parsed.followedBy]
    next found =>
      obtain ⟨test, testRead, read⟩ := Result.bind_eq_ok.mp read
      obtain ⟨body, bodyRead, read⟩ := Result.bind_eq_ok.mp read
      cases read
      rw [first, found] at kinds
      obtain ⟨phrase, phraseKinds, phraseTree⟩ := condition_sound testRead
      obtain ⟨cut, atEnd, d, readBody⟩ := statement_sound bodyRead closed fits
      refine ⟨cut, atEnd, .loop phrase d, ?_, ?_⟩
      · rw [kinds, phraseKinds, readBody.kinds]
        simp [StmtDerivation.yield, conditionYield, StatementHead.kind, place, Parsed.map,
          Parsed.followedBy]
      · simp only [place, Parsed.map, Stmt.bare, StmtDerivation.tree, phraseTree, readBody.tree,
          Parsed.followedBy]
    next found =>
      obtain ⟨test, testRead, read⟩ := Result.bind_eq_ok.mp read
      obtain ⟨yes, yesRead, read⟩ := Result.bind_eq_ok.mp read
      rw [first, found] at kinds
      obtain ⟨phrase, phraseKinds, phraseTree⟩ := condition_sound testRead
      simp only at read
      split at read
      next noElse =>
        cases read
        -- Without an `else` behind it the statement is not closed.
        cases closed with
        | true =>
            have refused := Cursor.refused_of_take? noElse (fits rfl)
            cases refused
        | false =>
            obtain ⟨cut, atEnd, d, readYes⟩ := statement_sound yesRead false nofun
            refine ⟨cut, atEnd, .branch phrase d, ?_, ?_⟩
            · rw [kinds, phraseKinds, readYes.kinds]
              simp [StmtDerivation.yield, conditionYield, StatementHead.kind, place, Parsed.map,
          Parsed.followedBy]
            · simp only [place, Parsed.map, Stmt.bare, StmtDerivation.tree, phraseTree,
                readYes.tree, Parsed.followedBy]
      next other elseTaken =>
        obtain ⟨no, noRead, read⟩ := Result.bind_eq_ok.mp read
        cases read
        obtain ⟨elseKind, elseKinds, elseAccepted⟩ := Cursor.take?_kinds elseTaken
        rw [Cursor.acceptKeyword_eq_some.mp elseAccepted] at elseKinds
        have yesKinds : yes.next.kinds = .keyword .else :: other.next.kinds := elseKinds
        obtain ⟨yesCut, yesEnd, yesDerivation, readYes⟩ := statement_sound yesRead true (by
          intro _
          rw [yesKinds]
          rfl)
        obtain ⟨cut, atEnd, noDerivation, readNo⟩ := statement_sound noRead closed fits
        cases yesCut with
        | true =>
            have empty := yesEnd rfl
            rw [yesKinds] at empty
            cases empty
        | false =>
            refine ⟨cut, atEnd, .choice phrase yesDerivation noDerivation, ?_, ?_⟩
            · rw [kinds, phraseKinds, readYes.kinds, yesKinds, readNo.kinds]
              simp [StmtDerivation.yield, conditionYield, StatementHead.kind, place, Parsed.map,
          Parsed.followedBy]
            · simp only [place, Parsed.map, Stmt.bare, StmtDerivation.tree, phraseTree,
                readYes.tree, readNo.tree, Parsed.followedBy]
  next =>
    split at read
    next target taken => exact assignment_sound (Cursor.takeTarget?_kinds taken) read closed
    next => exact expressionStatement_sound read closed
termination_by (c.rest.length, 0)
decreasing_by
  · exact Prod.Lex.left _ _ (Parsed.shorter _)
  · exact Prod.Lex.left _ _ (Parsed.shorter _)
  · exact Prod.Lex.left _ _ (Parsed.shorter _)
  · exact Prod.Lex.left _ _ (Parsed.shorter _)
  · exact Prod.Lex.left _ _
      (Nat.lt_trans (Parsed.shorter _) (Parsed.shorter (Parsed.followedBy _ _ _)))

theorem blockBody_sound {c : Cursor} {p : Parsed (List Stmt) c} (read : blockBody c = .ok p) :
    ∃ d : BodyDerivation, c.kinds = d.yield ++ .mark .rightBrace :: p.next.kinds ∧
      p.value.map Stmt.bare = d.tree := by
  rw [blockBody] at read
  split at read
  next closing taken =>
    cases read
    exact ⟨.nil, Cursor.takeMark?_kinds taken, rfl⟩
  next missed =>
    split at read
    next => cases read
    next =>
      obtain ⟨first, firstRead, read⟩ := Result.bind_eq_ok.mp read
      obtain ⟨rest, restRead, read⟩ := Result.bind_eq_ok.mp read
      cases read
      obtain ⟨restDerivation, restKinds, restTree⟩ := blockBody_sound restRead
      obtain ⟨cut, atEnd, d, readFirst⟩ := statement_sound firstRead false nofun
      cases cut with
      | true =>
          have empty := atEnd rfl
          rw [restKinds] at empty
          simp at empty
      | false =>
          refine ⟨.cons d restDerivation, ?_, ?_⟩
          · rw [readFirst.kinds, restKinds]
            simp [BodyDerivation.yield, Parsed.followedBy]
          · simp only [Parsed.followedBy, List.map_cons, readFirst.tree, restTree,
              BodyDerivation.tree]
termination_by (c.rest.length, 1)
decreasing_by
  · exact Prod.Lex.left _ _ (Parsed.shorter _)
  · exact Prod.Lex.right _ (by decide)

end

theorem statements_sound {c : Cursor} {program : List Stmt} (read : statements c = .ok program) :
    ∃ d : ProgramDerivation, c.kinds = d.yield ∧ program.map Stmt.bare = d.tree := by
  rw [statements] at read
  split at read
  next atEnd =>
    cases read
    exact ⟨.whole .nil, c.atEnd_iff.mp atEnd, rfl⟩
  next =>
    obtain ⟨first, firstRead, read⟩ := Result.bind_eq_ok.mp read
    obtain ⟨rest, restRead, read⟩ := Result.bind_eq_ok.mp read
    cases read
    obtain ⟨cut, atEnd, d, readFirst⟩ := statement_sound firstRead false nofun
    obtain ⟨restDerivation, restKinds, restTree⟩ := statements_sound restRead
    cases cut with
    | true =>
        have ended := atEnd rfl
        have last : rest = [] := by
          rw [statements, if_pos (first.next.atEnd_iff.mpr ended)] at restRead
          cases restRead
          rfl
        subst last
        refine ⟨.cut .nil d, ?_, ?_⟩
        · rw [readFirst.kinds, ended, List.append_nil]
          rfl
        · simp [ProgramDerivation.tree, BodyDerivation.tree, readFirst.tree]
    | false =>
        cases restDerivation with
        | whole body =>
            refine ⟨.whole (.cons d body), ?_, ?_⟩
            · rw [readFirst.kinds, restKinds]
              rfl
            · rw [List.map_cons, readFirst.tree, restTree]
              rfl
        | cut body last =>
            refine ⟨.cut (.cons d body) last, ?_, ?_⟩
            · rw [readFirst.kinds, restKinds]
              simp [ProgramDerivation.yield, BodyDerivation.yield]
            · rw [List.map_cons, readFirst.tree, restTree]
              rfl
termination_by c.rest.length
decreasing_by exact Parsed.shorter _

end Grammar

end Quantities
