import Quantities.Proofs.Grammar.ClauseStuck
import Quantities.Proofs.Grammar.Lines
import Quantities.Proofs.Grammar.StatementComplete
import Quantities.Proofs.Grammar.StatementCut

/-!
A reading of statements that fails is stuck where it fails. Behind a statement that is cut nothing
fails but the end of a block, which is completed with what the statement lacks.
-/

namespace Quantities

/-- A statement with nothing left out. -/
abbrev IsStatement (kinds : List TokenKind) : Prop :=
  ∃ d : StmtDerivation false false, d.yield = kinds

theorem StmtDerivation.exists_uncut {cut closed : Bool} (d : StmtDerivation cut closed)
    (isCut : cut = true) :
    ∃ whole : StmtDerivation false closed, whole.yield = d.yield ++ [.mark .semicolon] := by
  match cut, closed, d with
  | _, _, .loop condition body =>
      obtain ⟨whole, yield⟩ := body.exists_uncut isCut
      exact ⟨.loop condition whole, by simp [StmtDerivation.yield, yield]⟩
  | _, _, .branch condition yes =>
      obtain ⟨whole, yield⟩ := yes.exists_uncut isCut
      exact ⟨.branch condition whole, by simp [StmtDerivation.yield, yield]⟩
  | _, _, .choice condition yes no =>
      obtain ⟨whole, yield⟩ := no.exists_uncut isCut
      exact ⟨.choice condition yes whole, by simp [StmtDerivation.yield, yield]⟩
  | true, _, .var name declared initial =>
      exact ⟨.var name declared initial, by simp [StmtDerivation.yield, ending]⟩
  | true, _, .unit name definition =>
      exact ⟨.unit name definition, by simp [StmtDerivation.yield, ending]⟩
  | true, _, .assign name rhs => exact ⟨.assign name rhs, by simp [StmtDerivation.yield, ending]⟩
  | true, _, .constant name rhs =>
      exact ⟨.constant name rhs, by simp [StmtDerivation.yield, ending]⟩
  | true, _, .expr phrase => exact ⟨.expr phrase, by simp [StmtDerivation.yield, ending]⟩

namespace Grammar

section

variable {α : Type} {c : Cursor} {e : ParseError}

theorem varStatement_stuck {head : Parsed α c} (failed : varStatement head = .error e)
    (inOrder : Token.InOrder head.next.rest) :
    Stuck (FailsBehind (varStatement (α := α)))
      (fun kinds => IsStatement (.keyword .var :: kinds))
      head.next e := by
  rcases Result.bind_eq_error.mp failed with failed | ⟨name, nameRead, failed⟩
  · refine (needName_stuck failed).imp ?_ ?_
    · rintro kinds rfl
      exact ⟨_, .mark .semicolon, .var "x" none none, rfl⟩
    · rintro other - ⟨failure, failed⟩ start before rfl
      exact ⟨failure, Result.bind_error_first failed⟩
  obtain ⟨token, isName, namePasses⟩ := needName_passes nameRead
  have nameInOrder := namePasses.inOrder inOrder
  rcases Result.bind_eq_error.mp failed with failed | ⟨declared, declaredRead, failed⟩
  · have later := optionalAfter_stuck failed nameInOrder
    refine .behind namePasses later ?_ ?_
    · rintro kinds ⟨d, rfl⟩
      refine ⟨_, .mark .semicolon, .var name.value (some d) none, ?_⟩
      simp [isName, StmtDerivation.yield, optionalYield, ending]
    · rintro other there - ⟨again, readAgain, rfl⟩ fails start before rfl
      obtain ⟨failure, failed⟩ := fails start (before.followedBy again again.value) rfl
      exact ⟨failure, Result.bind_error_next readAgain <| Result.bind_error_first failed⟩
  obtain ⟨type?, used, declaredPasses, declaredYield⟩ :=
    optionalAfter_passes declaredRead nameInOrder
  have front := namePasses.trans declaredPasses
  rcases Result.bind_eq_error.mp failed with failed | ⟨initial, initialRead, failed⟩
  · have later := optionalAfter_stuck failed (front.inOrder inOrder)
    refine .behind front later ?_ ?_
    · rintro kinds ⟨d, rfl⟩
      refine ⟨_, .mark .semicolon, .var name.value type? (some d), ?_⟩
      simp [isName, declaredYield, StmtDerivation.yield, optionalYield, ending]
    · rintro other there - ⟨-, ⟨again, readAgain, rfl⟩, declaredLeads⟩ fails start before rfl
      obtain ⟨declaredAgain, declaredReadAgain, rfl⟩ :=
        declaredLeads start (before.followedBy again again.value) rfl
      obtain ⟨failure, failed⟩ := fails start declaredAgain rfl
      exact ⟨failure, Result.bind_error_next readAgain <|
        Result.bind_error_next declaredReadAgain <| Result.bind_error_first failed⟩
  obtain ⟨initial?, more, initialPasses, initialYield⟩ :=
    optionalAfter_passes initialRead (front.inOrder inOrder)
  rcases Result.bind_eq_error.mp failed with failed | ⟨whole, -, impossible⟩
  · refine .behind (front.trans initialPasses) (terminated_stuck failed) ?_ ?_
    · rintro kinds rfl
      refine ⟨[], .nil, .var name.value type? initial?, ?_⟩
      simp [isName, declaredYield, initialYield, StmtDerivation.yield, ending]
    · rintro other there - ⟨mid, ⟨-, ⟨again, readAgain, rfl⟩, declaredLeads⟩, initialLeads⟩ fails
        start before rfl
      obtain ⟨declaredAgain, declaredReadAgain, rfl⟩ :=
        declaredLeads start (before.followedBy again again.value) rfl
      obtain ⟨initialAgain, initialReadAgain, rfl⟩ := initialLeads start declaredAgain rfl
      obtain ⟨failure, failed⟩ := fails start initialAgain rfl
      exact ⟨failure, Result.bind_error_next readAgain <|
        Result.bind_error_next declaredReadAgain <| Result.bind_error_next initialReadAgain <|
          Result.bind_error_first failed⟩
  · cases impossible

theorem unitStatement_stuck {head : Parsed α c} (failed : unitStatement head = .error e)
    (inOrder : Token.InOrder head.next.rest) :
    Stuck (FailsBehind (unitStatement (α := α)))
      (fun kinds => IsStatement (.keyword .unit :: kinds))
      head.next e := by
  rcases Result.bind_eq_error.mp failed with failed | ⟨name, nameRead, failed⟩
  · refine (needName_stuck failed).imp ?_ ?_
    · rintro kinds rfl
      exact ⟨_, .mark .semicolon, .unit "x" none, rfl⟩
    · rintro other - ⟨failure, failed⟩ start before rfl
      exact ⟨failure, Result.bind_error_first failed⟩
  obtain ⟨token, isName, namePasses⟩ := needName_passes nameRead
  have nameInOrder := namePasses.inOrder inOrder
  rcases Result.bind_eq_error.mp failed with failed | ⟨definition, definitionRead, failed⟩
  · have later := optionalAfter_stuck failed nameInOrder
    refine .behind namePasses later ?_ ?_
    · rintro kinds ⟨d, rfl⟩
      refine ⟨_, .mark .semicolon, .unit name.value (some d), ?_⟩
      simp [isName, StmtDerivation.yield, optionalYield, ending]
    · rintro other there - ⟨again, readAgain, rfl⟩ fails start before rfl
      obtain ⟨failure, failed⟩ := fails start (before.followedBy again again.value) rfl
      exact ⟨failure, Result.bind_error_next readAgain <| Result.bind_error_first failed⟩
  obtain ⟨definition?, used, definitionPasses, yield⟩ :=
    optionalAfter_passes definitionRead nameInOrder
  rcases Result.bind_eq_error.mp failed with failed | ⟨whole, -, impossible⟩
  · refine .behind (namePasses.trans definitionPasses) (terminated_stuck failed) ?_ ?_
    · rintro kinds rfl
      refine ⟨[], .nil, .unit name.value definition?, ?_⟩
      simp [isName, yield, StmtDerivation.yield, ending]
    · rintro other there - ⟨-, ⟨again, readAgain, rfl⟩, definitionLeads⟩ fails start before rfl
      obtain ⟨definitionAgain, definitionReadAgain, rfl⟩ :=
        definitionLeads start (before.followedBy again again.value) rfl
      obtain ⟨failure, failed⟩ := fails start definitionAgain rfl
      exact ⟨failure, Result.bind_error_next readAgain <|
        Result.bind_error_next definitionReadAgain <| Result.bind_error_first failed⟩
  · cases impossible

theorem constantStatement_stuck {head : Parsed α c} (failed : constantStatement head = .error e)
    (inOrder : Token.InOrder head.next.rest) :
    Stuck (FailsBehind (constantStatement (α := α)))
      (fun kinds => IsStatement (.keyword .let :: kinds))
      head.next e := by
  rcases Result.bind_eq_error.mp failed with failed | ⟨name, nameRead, failed⟩
  · refine (needName_stuck failed).imp ?_ ?_
    · rintro kinds rfl
      obtain ⟨d, yield⟩ := (Atom.word .scalar).exists_phrase
      refine ⟨_, (Spellable.mark .equal).append (Spellable.scalar.append (.mark .semicolon)),
        .constant "x" d, ?_⟩
      simp [StmtDerivation.yield, yield, Atom.kind, ending]
    · rintro other - ⟨failure, failed⟩ start before rfl
      exact ⟨failure, Result.bind_error_first failed⟩
  obtain ⟨token, isName, namePasses⟩ := needName_passes nameRead
  have nameInOrder := namePasses.inOrder inOrder
  rcases Result.bind_eq_error.mp failed with failed | ⟨rhs, rhsRead, failed⟩
  · refine .behind namePasses (needAfter_stuck failed nameInOrder) ?_ ?_
    · rintro kinds ⟨d, rfl⟩
      refine ⟨_, .mark .semicolon, .constant name.value d, ?_⟩
      simp [isName, StmtDerivation.yield, ending]
    · rintro other there - ⟨again, readAgain, rfl⟩ ⟨failure, failed⟩ start before rfl
      exact ⟨failure, Result.bind_error_next readAgain <| Result.bind_error_first failed⟩
  obtain ⟨d, used, rhsPasses, yield⟩ := needAfter_passes rhsRead nameInOrder
  rcases Result.bind_eq_error.mp failed with failed | ⟨whole, -, impossible⟩
  · have later := terminated_stuck failed
    refine .behind (namePasses.trans rhsPasses) later ?_ ?_
    · rintro kinds rfl
      refine ⟨[], .nil, .constant name.value d, ?_⟩
      simp [isName, yield, StmtDerivation.yield, ending]
    · rintro other there - ⟨-, ⟨again, readAgain, rfl⟩, rhsAgain, rhsReadAgain, rfl⟩ fails start
        before rfl
      obtain ⟨failure, failed⟩ := fails start (before.followedBy (again.followedBy rhsAgain ())
        (again.value, rhsAgain.value)) rfl
      exact ⟨failure, Result.bind_error_next readAgain <|
        Result.bind_error_next rhsReadAgain <| Result.bind_error_first failed⟩
  · cases impossible

theorem assignment_stuck {target : Parsed String c} (failed : assignment target = .error e)
    (inOrder : Token.InOrder target.next.rest) :
    Stuck (FailsBehind assignment)
      (fun kinds => ∃ d : Phrase, d.yield ++ [.mark .semicolon] = kinds) target.next e := by
  rcases Result.bind_eq_error.mp failed with failed | ⟨rhs, rhsRead, failed⟩
  · refine (expression_stuck failed inOrder).imp ?_ ?_
    · rintro kinds ⟨d, rfl⟩
      exact ⟨_, .mark .semicolon, d, rfl⟩
    · rintro other - ⟨failure, failed⟩ start before rfl
      exact ⟨failure, Result.bind_error_first failed⟩
  obtain ⟨d, used, passes, yield⟩ := expression_passes rhsRead inOrder
  rcases Result.bind_eq_error.mp failed with failed | ⟨whole, -, impossible⟩
  · have later := terminated_stuck failed
    refine .behind passes later ?_ ?_
    · rintro kinds rfl
      exact ⟨[], .nil, d, by simp [yield]⟩
    · rintro other there - ⟨again, readAgain, rfl⟩ fails start before rfl
      obtain ⟨failure, failed⟩ :=
        fails start (before.followedBy again (before.value, again.value)) rfl
      exact ⟨failure, Result.bind_error_next readAgain <| Result.bind_error_first failed⟩
  · cases impossible

theorem expressionStatement_stuck (failed : expressionStatement c = .error e)
    (inOrder : Token.InOrder c.rest) :
    Stuck (Fails expressionStatement)
      (fun kinds => ∃ d : Phrase, d.yield ++ [.mark .semicolon] = kinds) c e := by
  rcases Result.bind_eq_error.mp failed with failed | ⟨phrase, phraseRead, failed⟩
  · refine (expression_stuck failed inOrder).imp ?_ ?_
    · rintro kinds ⟨d, rfl⟩
      exact ⟨_, .mark .semicolon, d, rfl⟩
    · rintro other - ⟨failure, failed⟩
      exact ⟨failure, Result.bind_error_first failed⟩
  obtain ⟨d, used, passes, yield⟩ := expression_passes phraseRead inOrder
  rcases Result.bind_eq_error.mp failed with failed | ⟨whole, -, impossible⟩
  · refine .behind passes (terminated_stuck failed) ?_ ?_
    · rintro kinds rfl
      exact ⟨[], .nil, d, by simp [yield]⟩
    · rintro other there - ⟨again, readAgain, rfl⟩ fails
      obtain ⟨failure, failed⟩ := fails other again rfl
      exact ⟨failure, Result.bind_error_next readAgain <| Result.bind_error_first failed⟩
  · cases impossible

theorem statement_passes {p : Parsed Stmt c} (read : statement c = .ok p)
    (inOrder : Token.InOrder c.rest) (closed : Bool)
    (fits : closed = true → p.next.kinds.head? = some (.keyword .else)) :
    ∃ (cut : Bool) (d : StmtDerivation cut closed) (used : List Token),
      (cut = true → p.next.kinds = []) ∧ Passes (Leads statement) c used p.next ∧
        used.map (·.kind) = d.yield := by
  obtain ⟨used, took, -⟩ := (statement_placed inOrder read).holds
  have tokens {cut closed : Bool} {d : StmtDerivation cut closed} (readAs : ReadStatement p d) :
      used.map (·.kind) = d.yield := List.append_cancel_right (took.kinds.symm.trans readAs.kinds)
  obtain ⟨cut, atEnd, d, readAs⟩ := statement_sound read closed fits
  refine ⟨cut, d, used, atEnd, took.passes fun {other ahead} kinds same => ?_, tokens readAs⟩
  -- The statement is read again as one that is closed only if there is an `else` behind it.
  obtain ⟨lastCut, lastEnd, last, readLast⟩ :=
    statement_sound read (decide (p.next.kinds.head? = some (.keyword .else))) of_decide_eq_true
  have empty : lastCut = true → ahead = [] := by
    intro isCut
    rw [lastEnd isCut] at same
    exact List.head?_eq_none_iff.mp same
  rw [tokens readLast] at kinds
  obtain ⟨q, readAgain, gives⟩ := statement_complete last kinds empty fun isOpen => by
    rw [same]
    exact of_decide_eq_false isOpen
  exact ⟨q, readAgain, gives.kinds⟩

theorem takeTarget?_eq_none_of_heads {other : Cursor} (missed : c.takeTarget? = none)
    (first : other.kinds.head? = c.kinds.head?)
    (second : other.kinds.tail.head? = c.kinds.tail.head?) : other.takeTarget? = none := by
  cases taken : other.takeTarget? with
  | none => rfl
  | some target =>
      rw [Cursor.takeTarget?_kinds taken] at first second
      cases kinds : c.kinds with
      | nil =>
          rw [kinds] at first
          cases first
      | cons kind more =>
          rw [kinds] at first second
          cases more with
          | nil => cases second
          | cons next rest =>
              cases first
              cases second
              obtain ⟨again, found, -⟩ := takeTarget?_of_kinds kinds
              rw [missed] at found
              cases found

/-- Something else than a target, an expression, is stuck only where it is no target again. -/
theorem untargeted_stuck (noHead : c.take? StatementHead.ofToken? = none)
    (noTarget : c.takeTarget? = none) (failed : expressionStatement c = .error e)
    (inOrder : Token.InOrder c.rest) : Stuck (Fails statement) IsStatement c e := by
  have completes : ∀ kinds, (∃ d : Phrase, d.yield ++ [.mark .semicolon] = kinds) →
      ∃ extra, Spellable extra ∧ IsStatement (kinds ++ extra) := by
    rintro kinds ⟨d, rfl⟩
    exact ⟨[], .nil, .expr d, by simp [StmtDerivation.yield, ending]⟩
  have inner := expressionStatement_stuck failed inOrder
  cases named : c.take? Cursor.acceptName with
  | none =>
      refine inner.imp completes ?_
      rintro other same ⟨failure, failed⟩
      have noName : other.take? Cursor.acceptName = none := Cursor.take?_eq_none_of_head named same
      have noTargetAgain : other.takeTarget? = none := by
        rw [Cursor.takeTarget?, noName]
        rfl
      refine ⟨failure, ?_⟩
      rw [statement, Cursor.take?_eq_none_of_head noHead same, noTargetAgain]
      exact failed
  | some name =>
      obtain ⟨token, took, accepted⟩ := Cursor.take?_took named
      obtain ⟨d, yield⟩ := (Atom.name name.value).exists_phrase
      have isName := Cursor.acceptName_eq_some.mp accepted
      refine inner.imp_of_goes ⟨{ c with rest := [token] }, ?_, ?_⟩ completes ?_
      · rw [took.kinds]
        rfl
      · rintro ⟨failure, failed⟩
        have alone : ({ c with rest := [token] } : Cursor).kinds =
            d.yield ++ (ending true ++ []) := by
          rw [yield, Cursor.kinds, List.map_singleton, isName]
          rfl
        obtain ⟨p, read, -⟩ := expressionStatement_complete d (fun _ => rfl) alone
        rw [read] at failed
        cases failed
      · rintro other first second ⟨failure, failed⟩
        refine ⟨failure, ?_⟩
        rw [statement, Cursor.take?_eq_none_of_head noHead first,
          takeTarget?_eq_none_of_heads noTarget first second]
        exact failed

theorem headed_stuck {sort : StatementHead} {head : Parsed StatementHead c}
    {run : {c : Cursor} → Parsed StatementHead c → Except ParseError (Parsed Stmt c)}
    (runs : ∀ {c : Cursor} {head : Parsed StatementHead c},
      c.take? StatementHead.ofToken? = some head → head.value = sort → statement c = run head)
    (taken : c.take? StatementHead.ofToken? = some head) (found : head.value = sort)
    (inner : Stuck (FailsBehind run) (fun kinds => IsStatement (sort.kind :: kinds)) head.next e) :
    Stuck (Fails statement) IsStatement c e := by
  refine .afterToken taken inner ?_ ?_
  · rintro kind accepted kinds ⟨d, yield⟩
    rw [← StatementHead.ofToken?_eq_some.mp accepted, found]
    exact ⟨[], .nil, d, by rw [yield, List.append_nil]⟩
  · intro other again takenAgain value fails
    obtain ⟨failure, failed⟩ := fails other again rfl
    exact ⟨failure, (runs takenAgain (value.trans found)).trans failed⟩

/-- The statements that go on with a condition and a statement, when one of these fails. -/
theorem guarded_stuck {sort : StatementHead} {head : Parsed StatementHead c}
    (failed : condition head = .error e ∨
      ∃ test, condition head = .ok test ∧ statement test.next = .error e)
    (inner : ∀ test : Parsed Expr c, statement test.next = .error e → Token.InOrder test.next.rest →
      Stuck (Fails statement) IsStatement test.next e)
    (taken : c.take? StatementHead.ofToken? = some head) (found : head.value = sort)
    (inOrder : Token.InOrder c.rest)
    (wraps : ∀ (test : Phrase) (body : StmtDerivation false false), IsStatement
      (sort.kind :: .mark .leftParen :: test.yield ++ .mark .rightParen :: body.yield))
    (fails : ∀ {other : Cursor} {head : Parsed StatementHead other} {failure : ParseError},
      other.take? StatementHead.ofToken? = some head → head.value = sort →
        (condition head = .error failure ∨
          ∃ test, condition head = .ok test ∧ statement test.next = .error failure) →
            statement other = .error failure) :
    Stuck (Fails statement) IsStatement c e := by
  obtain ⟨token, accepted, headPasses⟩ := Cursor.take?_passes taken
  have isHead : token.kind = sort.kind := by
    rw [← StatementHead.ofToken?_eq_some.mp accepted, found]
  have testInOrder := headPasses.inOrder inOrder
  rcases failed with failed | ⟨test, testRead, failed⟩
  · refine .behind headPasses (condition_stuck failed testInOrder) ?_ ?_
    · rintro kinds ⟨test, rfl⟩
      obtain ⟨d, yield⟩ := wraps test .empty
      exact ⟨_, .mark .semicolon, d, by simp [yield, isHead, StmtDerivation.yield]⟩
    · rintro other there - ⟨again, takenAgain, value, rfl⟩ conditionFails
      obtain ⟨failure, failed⟩ := conditionFails other again rfl
      exact ⟨failure, fails takenAgain (value.trans found) (.inl failed)⟩
  · obtain ⟨phrase, used, testPasses, testYield⟩ := condition_passes testRead testInOrder
    have front := headPasses.trans testPasses
    refine .behind front (inner test failed (front.inOrder inOrder)) ?_ ?_
    · rintro kinds ⟨body, rfl⟩
      obtain ⟨d, yield⟩ := wraps phrase body
      exact ⟨[], .nil, d, by simp [yield, isHead, testYield]⟩
    · rintro other there - ⟨-, ⟨again, takenAgain, value, rfl⟩, testLeads⟩ ⟨failure, failed⟩
      obtain ⟨testAgain, readAgain, rfl⟩ := testLeads other again rfl
      exact ⟨failure, fails takenAgain (value.trans found) (.inr ⟨testAgain, readAgain, failed⟩)⟩

theorem takeTarget?_passes {target : Parsed String c} (taken : c.takeTarget? = some target) :
    ∃ used : List Token, used.map (·.kind) = [.name target.value, .mark .assign] ∧
      Passes (fun c there => ∃ p, c.takeTarget? = some p ∧ p.next = there) c used target.next := by
  obtain ⟨used, took, -⟩ := takeTarget?_holds taken
  have tokens : used.map (·.kind) = [.name target.value, .mark .assign] :=
    List.append_cancel_right (took.kinds.symm.trans (Cursor.takeTarget?_kinds taken))
  refine ⟨used, tokens, took.rest, took.finish, fun other ahead kinds _ => ?_⟩
  rw [tokens] at kinds
  obtain ⟨again, takenAgain, -, next⟩ := takeTarget?_of_kinds kinds
  exact ⟨again.next, next, again, takenAgain, rfl⟩

/-- At the end of the text a block can still be closed with anything in front of the brace. -/
theorem unclosed_stuck {more : List TokenKind} (failed : blockBody c = .error e)
    (ended : c.kinds = []) (spellable : Spellable more) :
    Stuck (Fails blockBody) (· = more) c e := by
  have fails {other : Cursor} (ended : other.kinds = []) :
      blockBody other = .error (other.refuse (.mark .rightBrace)) := by
    have missed : other.takeMark? .rightBrace = none := Cursor.takeMark?_eq_none (by simp [ended])
    rw [blockBody, missed]
    simp only [if_pos (other.atEnd_iff.mpr ended)]
    rfl
  rw [fails ended] at failed
  cases failed
  refine .here spellable rfl fun other same => ⟨_, fails ?_⟩
  rw [ended] at same
  exact List.head?_eq_none_iff.mp same

end

mutual

theorem statement_stuck {c : Cursor} {e : ParseError} (failed : statement c = .error e)
    (inOrder : Token.InOrder c.rest) : Stuck (Fails statement) IsStatement c e := by
  rw [statement] at failed
  split at failed
  next head taken =>
    obtain ⟨token, accepted, headPasses⟩ := Cursor.take?_passes taken
    have isHead := (StatementHead.ofToken?_eq_some.mp accepted).symm
    have bodyInOrder := headPasses.inOrder inOrder
    split at failed
    next => cases failed
    next found =>
      exact headed_stuck statement_var taken found (varStatement_stuck failed bodyInOrder)
    next found =>
      exact headed_stuck statement_unit taken found (unitStatement_stuck failed bodyInOrder)
    next found =>
      exact headed_stuck statement_constant taken found (constantStatement_stuck failed bodyInOrder)
    next found =>
      rw [found] at isHead
      rcases Result.bind_eq_error.mp failed with failed | ⟨body, -, impossible⟩
      · refine .behind headPasses (blockBody_stuck failed bodyInOrder) ?_ ?_
        · rintro kinds ⟨body, rfl⟩
          exact ⟨[], .nil, .block body, by simp [isHead, StatementHead.kind, StmtDerivation.yield]⟩
        · rintro other there - ⟨again, takenAgain, value, rfl⟩ ⟨failure, failed⟩
          refine ⟨failure, ?_⟩
          rw [statement, takenAgain]
          simp only [value, found]
          exact Result.bind_error_first failed
      · cases impossible
    next found =>
      rcases Result.bind_bind_eq_error.mp failed with failed | ⟨test, body, -, -, impossible⟩
      · refine guarded_stuck failed (fun _ failed => statement_stuck failed) taken found inOrder
          (fun test body => ⟨.loop test body, ?_⟩) (fun taken value failed => ?_)
        · simp [StatementHead.kind, StmtDerivation.yield, conditionYield]
        · rw [statement, taken]
          simp only [value]
          exact Result.bind_bind_eq_error.mpr (.inl failed)
      · cases impossible
    next found =>
      rcases Result.bind_bind_eq_error.mp failed with failed | ⟨test, yes, testRead, yesRead, failed⟩
      · refine guarded_stuck failed (fun _ failed => statement_stuck failed) taken found inOrder
          (fun test body => ⟨.branch test body, ?_⟩) (fun taken value failed => ?_)
        · simp [StatementHead.kind, StmtDerivation.yield, conditionYield]
        · rw [statement, taken]
          simp only [value]
          exact Result.bind_bind_eq_error.mpr (.inl failed)
      rw [found] at isHead
      obtain ⟨phrase, used, testPasses, yield⟩ := condition_passes testRead bodyInOrder
      have front := headPasses.trans testPasses
      have frontInOrder := front.inOrder inOrder
      simp only at failed
      split at failed
      next => cases failed
      next elseParsed elseTaken =>
        obtain ⟨elseToken, elseAccepted, elsePasses⟩ := Cursor.take?_passes elseTaken
        have isElse := Cursor.acceptKeyword_eq_some.mp elseAccepted
        have elseNext : yes.next.kinds.head? = some (.keyword .else) := by
          have kinds : yes.next.kinds = _ := elsePasses.kinds
          rw [kinds, List.map_singleton, isElse]
          rfl
        obtain ⟨cut, d, more, atEnd, yesPasses, yesYield⟩ :=
          statement_passes yesRead frontInOrder true fun _ => elseNext
        have whole := (front.trans yesPasses).trans elsePasses
        rcases Result.bind_eq_error.mp failed with failed | ⟨no, -, impossible⟩
        · cases cut with
          | true =>
              rw [atEnd rfl] at elseNext
              cases elseNext
          | false =>
              refine .behind whole (statement_stuck failed (whole.inOrder inOrder)) ?_ ?_
              · rintro kinds ⟨no, rfl⟩
                refine ⟨[], .nil, .choice phrase d no, ?_⟩
                simp [isHead, yield, yesYield, isElse, StatementHead.kind, StmtDerivation.yield,
                  conditionYield]
              · rintro other there - ⟨-, ⟨mid, ⟨-, ⟨again, takenAgain, value, rfl⟩, testLeads⟩,
                  yesAgain, yesReadAgain, rfl⟩, elseAgain, elseTakenAgain, -, rfl⟩ ⟨failure, failed⟩
                obtain ⟨testAgain, testReadAgain, rfl⟩ := testLeads other again rfl
                refine ⟨failure, ?_⟩
                rw [statement, takenAgain]
                simp only [value, found]
                refine Result.bind_error_next testReadAgain <|
                  Result.bind_error_next yesReadAgain ?_
                simp only [Parsed.followedBy, elseTakenAgain]
                exact Result.bind_error_first failed
        · cases impossible
  next noHead =>
    split at failed
    next target taken =>
      obtain ⟨used, tokens, passes⟩ := takeTarget?_passes taken
      refine .behind passes (assignment_stuck failed (passes.inOrder inOrder)) ?_ ?_
      · rintro kinds ⟨d, rfl⟩
        refine ⟨[], .nil, .assign target.value d, ?_⟩
        simp [tokens, StmtDerivation.yield, ending]
      · rintro other there same ⟨again, takenAgain, rfl⟩ fails
        obtain ⟨failure, failed⟩ := fails other again rfl
        refine ⟨failure, ?_⟩
        rw [statement, Cursor.take?_eq_none_of_head noHead same, takenAgain]
        exact failed
    next noTarget => exact untargeted_stuck noHead noTarget failed inOrder
termination_by (c.rest.length, 0)
decreasing_by
  · exact Prod.Lex.left _ _ (Parsed.shorter _)
  · exact Prod.Lex.left _ _ (Parsed.shorter _)
  · exact Prod.Lex.left _ _ (Parsed.shorter _)
  · exact Prod.Lex.left _ _
      (Nat.lt_trans (Parsed.shorter _) (Parsed.shorter (Parsed.followedBy _ _ _)))

theorem blockBody_stuck {c : Cursor} {e : ParseError} (failed : blockBody c = .error e)
    (inOrder : Token.InOrder c.rest) :
    Stuck (Fails blockBody)
      (fun kinds => ∃ body : BodyDerivation, body.yield ++ [.mark .rightBrace] = kinds) c e := by
  have unread := failed
  rw [blockBody] at failed
  split at failed
  next => cases failed
  next missed =>
    split at failed
    next atEnd =>
      refine (unclosed_stuck unread (c.atEnd_iff.mp atEnd) (.mark .rightBrace)).imp ?_ ?_
      · rintro kinds rfl
        exact ⟨[], .nil, .nil, rfl⟩
      · exact fun other _ fails => fails
    next going =>
      rcases Result.bind_eq_error.mp failed with failed | ⟨first, firstRead, failed⟩
      · refine (statement_stuck failed inOrder).imp ?_ ?_
        · rintro kinds ⟨d, rfl⟩
          exact ⟨_, .mark .rightBrace, .cons d .nil, by simp [BodyDerivation.yield]⟩
        · rintro other same ⟨failure, failed⟩
          have missedAgain : other.takeMark? .rightBrace = none :=
            Cursor.take?_eq_none_of_head missed same
          refine ⟨failure, ?_⟩
          rw [blockBody, missedAgain]
          simp only [Cursor.atEnd_congr same, if_neg going]
          exact Result.bind_error_first failed
      obtain ⟨cut, d, used, atEnd, passes, yield⟩ :=
        statement_passes firstRead inOrder false nofun
      rcases Result.bind_eq_error.mp failed with failed | ⟨rest, -, impossible⟩
      · have fails : ∀ other there : Cursor, other.kinds.head? = c.kinds.head? →
            Leads statement other there → Fails blockBody there → Fails blockBody other := by
          rintro other there same ⟨again, readAgain, rfl⟩ ⟨failure, failed⟩
          have missedAgain : other.takeMark? .rightBrace = none :=
            Cursor.take?_eq_none_of_head missed same
          refine ⟨failure, ?_⟩
          rw [blockBody, missedAgain]
          simp only [Cursor.atEnd_congr same, if_neg going]
          exact Result.bind_error_next readAgain <| Result.bind_error_first failed
        cases cut with
        | false =>
            refine .behind passes (blockBody_stuck failed (passes.inOrder inOrder)) ?_ fails
            rintro kinds ⟨body, rfl⟩
            exact ⟨[], .nil, .cons d body, by simp [yield, BodyDerivation.yield]⟩
        | true =>
            -- What closes the statement that is cut comes in front of the brace.
            obtain ⟨last, lastYield⟩ := d.exists_uncut rfl
            have closing := Spellable.append (.mark .semicolon) (.mark .rightBrace)
            refine .behind passes (unclosed_stuck failed (atEnd rfl) closing) ?_ fails
            rintro kinds rfl
            exact ⟨[], .nil, .cons last .nil, by simp [yield, lastYield, BodyDerivation.yield]⟩
      · cases impossible
termination_by (c.rest.length, 1)
decreasing_by
  · exact Prod.Lex.right _ (by decide)
  · exact Prod.Lex.left _ _ (Parsed.shorter _)

end

theorem statements_stuck {c : Cursor} {e : ParseError} (failed : statements c = .error e)
    (inOrder : Token.InOrder c.rest) :
    Stuck (Fails statements) (fun kinds => ∃ d : ProgramDerivation, d.yield = kinds) c e := by
  rw [statements] at failed
  split at failed
  next => cases failed
  next going =>
    rcases Result.bind_eq_error.mp failed with failed | ⟨first, firstRead, failed⟩
    · refine (statement_stuck failed inOrder).imp ?_ ?_
      · rintro kinds ⟨d, rfl⟩
        refine ⟨[], .nil, .whole (.cons d .nil), ?_⟩
        simp [ProgramDerivation.yield, BodyDerivation.yield]
      · rintro other same ⟨failure, failed⟩
        refine ⟨failure, ?_⟩
        rw [statements, Cursor.atEnd_congr same, if_neg going]
        exact Result.bind_error_first failed
    obtain ⟨cut, d, used, atEnd, passes, yield⟩ := statement_passes firstRead inOrder false nofun
    rcases Result.bind_eq_error.mp failed with failed | ⟨rest, -, impossible⟩
    · cases cut with
      | true =>
          rw [statements_of_empty (atEnd rfl)] at failed
          cases failed
      | false =>
          refine .behind passes (statements_stuck failed (passes.inOrder inOrder)) ?_ ?_
          · rintro kinds ⟨rest, rfl⟩
            refine ⟨[], .nil, rest.prepend (.cons d .nil), ?_⟩
            simp [ProgramDerivation.yield_prepend, yield, BodyDerivation.yield]
          · rintro other there same ⟨again, readAgain, rfl⟩ ⟨failure, failed⟩
            refine ⟨failure, ?_⟩
            rw [statements, Cursor.atEnd_congr same, if_neg going]
            exact Result.bind_error_next readAgain <| Result.bind_error_first failed
    · cases impossible
termination_by c.rest.length
decreasing_by exact Parsed.shorter _

end Grammar

end Quantities
