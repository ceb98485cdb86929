import Quantities.Proofs.Grammar.ExpressionStuck
import Quantities.Proofs.Grammar.StatementSound

/-!
The parts of statements: names, expressions behind a mark, conditions, and what closes a statement.
Each is passed when it is read, and a reading of it that fails is stuck.
-/

namespace Quantities

theorem Atom.exists_phrase (single : Atom) : ∃ d : Phrase, d.yield = [single.kind] :=
  ⟨.tighter (.tighter (.tighter (.tighter (.tighter (.tighter (.signed (.ascribed (.plain
    (.primary (.atom single (absurd · Bool.false_ne_true))))))))))), rfl⟩

theorem Cursor.atEnd_congr {c other : Cursor} (same : other.kinds.head? = c.kinds.head?) :
    other.atEnd = c.atEnd := by
  rw [Bool.eq_iff_iff, atEnd_iff, atEnd_iff, ← List.head?_eq_none_iff, same, List.head?_eq_none_iff]

namespace Grammar

section

variable {α : Type} {c : Cursor} {e : ParseError}

theorem expression_stuck (failed : expression c = .error e) (inOrder : Token.InOrder c.rest) :
    Stuck (Fails expression) (Stratum.level Level.all).Derives c e :=
  level_stuck Level.all List.suffix_rfl inOrder failed

theorem expression_passes {p : Parsed Expr c} (read : expression c = .ok p)
    (inOrder : Token.InOrder c.rest) :
    ∃ (d : Phrase) (used : List Token),
      Passes (Leads expression) c used p.next ∧ used.map (·.kind) = d.yield :=
  level_passes List.suffix_rfl inOrder read

theorem needName_stuck (failed : c.needName = .error e) :
    Stuck (Fails Cursor.needName) (· = [.name "x"]) c e :=
  Cursor.need_stuck failed .name rfl

theorem needName_passes {p : Parsed String c} (read : c.needName = .ok p) :
    ∃ token, token.kind = .name p.value ∧ Passes (Leads Cursor.needName) c [token] p.next := by
  obtain ⟨token, accepted, passes⟩ := Cursor.take?_passes (Cursor.need_eq_ok.mp read)
  refine ⟨token, Cursor.acceptName_eq_some.mp accepted, passes.imp ?_⟩
  rintro other there ⟨again, taken, -, next⟩
  exact ⟨again, Cursor.need_eq_ok.mpr taken, next⟩

theorem terminated_stuck {p : Parsed α c} (failed : terminated p = .error e) :
    Stuck (FailsBehind (terminated (α := α))) (· = [.mark .semicolon]) p.next e := by
  unfold terminated at failed
  split at failed
  next => cases failed
  next going =>
    rcases Result.bind_eq_error.mp failed with failed | ⟨closing, -, impossible⟩
    · refine (Cursor.needMark_stuck failed).imp ?_ ?_
      · rintro kinds rfl
        exact ⟨[], .nil, rfl⟩
      · rintro other same ⟨failure, failed⟩ start before rfl
        refine ⟨failure, ?_⟩
        change terminated before = _
        rw [terminated, Cursor.atEnd_congr same, if_neg going]
        exact Result.bind_error_first failed
    · cases impossible

theorem needAfter_stuck {sign : Mark} (failed : needAfter sign c = .error e)
    (inOrder : Token.InOrder c.rest) :
    Stuck (Fails (needAfter sign)) (fun kinds => ∃ d : Phrase, .mark sign :: d.yield = kinds) c e := by
  rcases Result.bind_eq_error.mp failed with failed | ⟨mark, markRead, failed⟩
  · refine (Cursor.needMark_stuck failed).imp ?_ ?_
    · rintro kinds rfl
      obtain ⟨d, yield⟩ := (Atom.word .scalar).exists_phrase
      exact ⟨_, .scalar, d, congrArg (.mark sign :: ·) yield⟩
    · rintro other - ⟨failure, failed⟩
      exact ⟨failure, Result.bind_error_first failed⟩
  · have taken := Cursor.needMark_eq_ok.mp markRead
    obtain ⟨token, -, passes⟩ := Cursor.takeMark?_passes taken
    rcases Result.bind_eq_error.mp failed with failed | ⟨phrase, -, impossible⟩
    · refine .afterMark taken (expression_stuck failed (passes.inOrder inOrder)) ?_ ?_
      · rintro kinds ⟨d, rfl⟩
        exact ⟨[], .nil, d, by simp⟩
      · rintro other again takenAgain ⟨failure, failed⟩
        exact ⟨failure, Result.bind_error_next (Cursor.needMark_eq_ok.mpr takenAgain) <|
          Result.bind_error_first failed⟩
    · cases impossible

theorem needAfter_passes {sign : Mark} {p : Parsed Expr c} (read : needAfter sign c = .ok p)
    (inOrder : Token.InOrder c.rest) :
    ∃ (d : Phrase) (used : List Token), Passes (Leads (needAfter sign)) c used p.next ∧
      used.map (·.kind) = .mark sign :: d.yield := by
  obtain ⟨mark, markRead, read⟩ := Result.bind_eq_ok.mp read
  obtain ⟨phrase, phraseRead, read⟩ := Result.bind_eq_ok.mp read
  cases read
  obtain ⟨token, isMark, markPasses⟩ := Cursor.takeMark?_passes (Cursor.needMark_eq_ok.mp markRead)
  obtain ⟨d, used, passes, yield⟩ := expression_passes phraseRead (markPasses.inOrder inOrder)
  refine ⟨d, token :: used, (markPasses.trans passes).imp ?_, by simp [isMark, yield]⟩
  rintro other there ⟨-, ⟨again, taken, -, rfl⟩, phraseAgain, readAgain, rfl⟩
  exact ⟨again.followedBy phraseAgain phraseAgain.value, Result.bind_eq_ok.mpr ⟨again,
    Cursor.needMark_eq_ok.mpr taken, Result.bind_eq_ok.mpr ⟨phraseAgain, readAgain, rfl⟩⟩, rfl⟩

theorem optionalAfter_stuck {sign : Mark} {p : Parsed α c} (failed : optionalAfter sign p = .error e)
    (inOrder : Token.InOrder p.next.rest) :
    Stuck (FailsBehind (optionalAfter (α := α) sign))
      (fun kinds => ∃ d : Phrase, optionalYield sign (some d) = kinds) p.next e := by
  unfold optionalAfter at failed
  split at failed
  next => cases failed
  next mark taken =>
    obtain ⟨token, -, passes⟩ := Cursor.takeMark?_passes taken
    rcases Result.bind_eq_error.mp failed with failed | ⟨phrase, -, impossible⟩
    · refine .afterMark taken (expression_stuck failed (passes.inOrder inOrder)) ?_ ?_
      · rintro kinds ⟨d, rfl⟩
        exact ⟨[], .nil, d, by simp [optionalYield]⟩
      · rintro other again takenAgain ⟨failure, failed⟩ start before rfl
        refine ⟨failure, ?_⟩
        change optionalAfter sign before = _
        rw [optionalAfter, takenAgain]
        exact Result.bind_error_first failed
    · cases impossible

theorem optionalAfter_passes {sign : Mark} {p : Parsed α c} {q : Parsed (α × Option Expr) c}
    (read : optionalAfter sign p = .ok q) (inOrder : Token.InOrder p.next.rest) :
    ∃ (phrase? : Option Phrase) (used : List Token),
      Passes (LeadsBehind (optionalAfter (α := α) sign)) p.next used q.next ∧
        used.map (·.kind) = optionalYield sign phrase? := by
  unfold optionalAfter at read
  split at read
  next missed =>
    cases read
    refine ⟨none, [], ⟨rfl, rfl, fun other ahead kinds same => ⟨other, kinds, ?_⟩⟩, rfl⟩
    rintro start before rfl
    have first : before.next.kinds.head? = p.next.kinds.head? := kinds ▸ same
    have missedAgain : before.next.takeMark? sign = none := Cursor.take?_eq_none_of_head missed first
    refine ⟨before.map fun value => (value, none), ?_, rfl⟩
    change optionalAfter sign before = _
    rw [optionalAfter, missedAgain]
    rfl
  next mark taken =>
    obtain ⟨phrase, phraseRead, read⟩ := Result.bind_eq_ok.mp read
    cases read
    obtain ⟨token, isMark, markPasses⟩ := Cursor.takeMark?_passes taken
    obtain ⟨d, used, passes, yield⟩ := expression_passes phraseRead (markPasses.inOrder inOrder)
    refine ⟨some d, token :: used, (markPasses.trans passes).imp ?_, by
      simp [isMark, yield, optionalYield]⟩
    rintro other there ⟨-, ⟨again, taken, -, rfl⟩, phraseAgain, readAgain, rfl⟩ start before rfl
    have takenAgain : before.next.takeMark? sign = some again := taken
    refine ⟨before.followedBy (again.followedBy phraseAgain ())
      (before.value, some phraseAgain.value), ?_, rfl⟩
    change optionalAfter sign before = _
    rw [optionalAfter, takenAgain]
    exact Result.bind_eq_ok.mpr ⟨phraseAgain, readAgain, rfl⟩

theorem condition_stuck {head : Parsed α c} (failed : condition head = .error e)
    (inOrder : Token.InOrder head.next.rest) :
    Stuck (FailsBehind (condition (α := α)))
      (fun kinds => ∃ d : Phrase, .mark .leftParen :: d.yield ++ [.mark .rightParen] = kinds)
      head.next e := by
  rcases Result.bind_eq_error.mp failed with failed | ⟨opening, openRead, failed⟩
  · refine (Cursor.needMark_stuck failed).imp ?_ ?_
    · rintro kinds rfl
      obtain ⟨d, yield⟩ := (Atom.word .scalar).exists_phrase
      exact ⟨_, Spellable.scalar.append (.mark .rightParen), d, by rw [yield]; rfl⟩
    · rintro other - ⟨failure, failed⟩ start before rfl
      exact ⟨failure, Result.bind_error_first failed⟩
  have opened := Cursor.needMark_eq_ok.mp openRead
  obtain ⟨token, isOpening, openPasses⟩ := Cursor.takeMark?_passes opened
  have innerInOrder := openPasses.inOrder inOrder
  rcases Result.bind_eq_error.mp failed with failed | ⟨test, testRead, failed⟩
  · refine .afterMark opened (expression_stuck failed innerInOrder) ?_ ?_
    · rintro kinds ⟨d, rfl⟩
      exact ⟨_, .mark .rightParen, d, rfl⟩
    · rintro other again takenAgain ⟨failure, failed⟩ start before rfl
      exact ⟨failure, Result.bind_error_next (Cursor.needMark_eq_ok.mpr takenAgain) <|
        Result.bind_error_first failed⟩
  obtain ⟨d, used, passes, yield⟩ := expression_passes testRead innerInOrder
  rcases Result.bind_eq_error.mp failed with failed | ⟨closing, -, impossible⟩
  · refine .behind (openPasses.trans passes) (Cursor.needMark_stuck failed) ?_ ?_
    · rintro kinds rfl
      exact ⟨[], .nil, d, by simp [isOpening, yield]⟩
    · rintro other there - ⟨-, ⟨again, takenAgain, -, rfl⟩, testAgain, readAgain, rfl⟩
        ⟨failure, failed⟩ start before rfl
      exact ⟨failure, Result.bind_error_next (Cursor.needMark_eq_ok.mpr takenAgain) <|
        Result.bind_error_next readAgain <| Result.bind_error_first failed⟩
  · cases impossible

theorem condition_passes {head : Parsed α c} {p : Parsed Expr c} (read : condition head = .ok p)
    (inOrder : Token.InOrder head.next.rest) :
    ∃ (d : Phrase) (used : List Token),
      Passes (LeadsBehind (condition (α := α))) head.next used p.next ∧
        used.map (·.kind) = .mark .leftParen :: d.yield ++ [.mark .rightParen] := by
  obtain ⟨opening, openRead, read⟩ := Result.bind_eq_ok.mp read
  obtain ⟨test, testRead, read⟩ := Result.bind_eq_ok.mp read
  obtain ⟨closing, closeRead, read⟩ := Result.bind_eq_ok.mp read
  cases read
  obtain ⟨first, isOpening, openPasses⟩ :=
    Cursor.takeMark?_passes (Cursor.needMark_eq_ok.mp openRead)
  obtain ⟨d, used, passes, yield⟩ := expression_passes testRead (openPasses.inOrder inOrder)
  obtain ⟨last, isClosing, closePasses⟩ :=
    Cursor.takeMark?_passes (Cursor.needMark_eq_ok.mp closeRead)
  refine ⟨d, _, ((openPasses.trans passes).trans closePasses).imp ?_, by
    simp [isOpening, yield, isClosing]⟩
  rintro other there ⟨-, ⟨-, ⟨again, taken, -, rfl⟩, testAgain, readAgain, rfl⟩,
    closeAgain, closed, -, rfl⟩ start before rfl
  refine ⟨before.followedBy (again.followedBy (testAgain.followedBy closeAgain ()) ())
    testAgain.value, ?_, rfl⟩
  exact Result.bind_eq_ok.mpr ⟨again, Cursor.needMark_eq_ok.mpr taken, Result.bind_eq_ok.mpr
    ⟨testAgain, readAgain, Result.bind_eq_ok.mpr ⟨closeAgain, Cursor.needMark_eq_ok.mpr closed, rfl⟩⟩⟩

end

end Grammar

end Quantities
