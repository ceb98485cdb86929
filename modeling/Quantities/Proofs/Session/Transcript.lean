import Quantities.Proofs.Session.Same
import Quantities.Proofs.Store.Arising

/-!
Transcripts. What failed, what only asked and what was cleared leaves no trace in the replies to come.
-/

namespace Quantities.Session

variable {session other next otherNext : Session} {line : String} {lines kept : List String}

/-- The lines that count once this one has been answered, the newest first: programs that succeeded
and names that were forgotten, since everything was last cleared. -/
def keptAfter (rounds : Nat) (session : Session) (line : String) (kept : List String) :
    List String :=
  match Command.ofLine line with
  | .clear => []
  | .forget name => if (session.forget? name).isSome then line :: kept else kept
  | .run source =>
    if source.isEmpty then kept
    else
      match session.run rounds source with
      | some (.ok _, _) => line :: kept
      | _ => kept
  | .help | .leave | .outline _ | .grouping _ | .typeOf _ | .unknown _ => kept

/-- The session after the lines have been answered one by one, and those of them that count. The
newest lines come first. -/
inductive Transcript (start : Session) : (lines kept : List String) → Session → Prop where
  | start : Transcript start [] [] start
  | line {lines kept : List String} {session next : Session} {rounds : Nat} {line : String}
      {reply : Reply} (earlier : Transcript start lines kept session)
      (answered : session.reply rounds line = some (reply, next)) :
      Transcript start (line :: lines) (session.keptAfter rounds line kept) next

/-- A line that counts leads from one session to the next. -/
inductive Advances (session : Session) (line : String) (next : Session) : Prop where
  | run {rounds : Nat} {source : String} {result : Option Value}
      (command : Command.ofLine line = .run source)
      (ran : session.run rounds source = some (.ok result, next)) : Advances session line next
  | forget {name : String} (command : Command.ofLine line = .forget name)
      (forgot : session.forget? name = some next) : Advances session line next

theorem Same.advances (same : session.Same other) (first : session.Advances line next)
    (second : other.Advances line otherNext) : next.Same otherNext := by
  cases first with
  | run command ran =>
      cases second with
      | run otherCommand otherRan =>
          cases command.symm.trans otherCommand
          exact same.run ran otherRan
      | forget otherCommand => cases command.symm.trans otherCommand
  | forget command forgot =>
      cases second with
      | run otherCommand => cases command.symm.trans otherCommand
      | forget otherCommand otherForgot =>
          cases command.symm.trans otherCommand
          obtain ⟨again, forgotAgain, sameNext⟩ := same.forget? forgot
          cases otherForgot.symm.trans forgotAgain
          exact sameNext

theorem Advances.start (advances : session.Advances line next) (wellFormed : session.WellFormed) :
    session.initial.Same next.initial := by
  cases advances with
  | run command ran =>
      obtain ⟨program, -, after, -, rfl⟩ := run_eq_ok.mp ran
      exact .refl wellFormed.start
  | forget command forgot =>
      obtain ⟨type, -, made⟩ := Option.bind_eq_some_iff.mp forgot
      cases made
      exact session.initial_update _ wellFormed.start rfl

/-- A line clears everything, or it counts, or the session stays as it was. -/
theorem keptAfter_cases {rounds : Nat} {reply : Reply}
    (answered : session.reply rounds line = some (reply, next)) (kept : List String) :
    session.keptAfter rounds line kept = [] ∧ next = session.reset ∨
      session.keptAfter rounds line kept = line :: kept ∧ session.Advances line next ∨
      session.keptAfter rounds line kept = kept ∧ next = session := by
  unfold Session.reply at answered
  unfold keptAfter
  cases command : Command.ofLine line with
  | help | leave | outline | grouping | typeOf | unknown =>
      rw [command] at answered
      cases answered
      exact .inr (.inr ⟨rfl, rfl⟩)
  | clear =>
      rw [command] at answered
      cases answered
      exact .inl ⟨rfl, rfl⟩
  | forget name =>
      rw [command, handle] at answered
      cases forgot : session.forget? name with
      | none =>
          rw [forgot] at answered
          cases answered
          exact .inr (.inr ⟨by simp [forgot], rfl⟩)
      | some after =>
          rw [forgot] at answered
          cases answered
          exact .inr (.inl ⟨by simp [forgot], .forget command forgot⟩)
  | run source =>
      rw [command, handle] at answered
      simp only
      by_cases blank : source.isEmpty = true
      · rw [if_pos blank] at answered ⊢
        cases answered
        exact .inr (.inr ⟨rfl, rfl⟩)
      · rw [if_neg blank] at answered ⊢
        obtain ⟨⟨outcome, after⟩, ran, made⟩ := Option.map_eq_some_iff.mp answered
        cases made
        rw [ran]
        cases outcome with
        | ok result => exact .inr (.inl ⟨rfl, .run command ran⟩)
        | error failure => exact .inr (.inr ⟨rfl, eq_of_run_error ran⟩)

/-- The session is the one that the lines that count lead to, as far as can be told. -/
inductive AmountsTo (start : Session) : List String → Session → Prop where
  | start {session : Session} (same : start.Same session) : AmountsTo start [] session
  | line {kept : List String} {line : String} {before next session : Session}
      (earlier : AmountsTo start kept before) (advances : before.Advances line next)
      (same : next.Same session) : AmountsTo start (line :: kept) session

namespace AmountsTo

variable {start : Session}

theorem unique (amounts : AmountsTo start kept session) (others : AmountsTo start kept other) :
    session.Same other := by
  induction amounts generalizing other with
  | start same =>
      cases others with
      | start otherSame => exact same.symm.trans otherSame
  | line earlier advances same ih =>
      cases others with
      | line otherEarlier otherAdvances otherSame =>
          have ended := (ih otherEarlier).advances advances otherAdvances
          exact (same.symm.trans ended).trans otherSame

theorem wellFormed (amounts : AmountsTo start kept session) : session.WellFormed := by
  cases amounts with
  | start same | line _ _ same => exact ⟨same.now.alike.right, same.start.alike.right⟩

theorem advance (amounts : AmountsTo start kept session) (advances : session.Advances line next) :
    AmountsTo start (line :: kept) next :=
  .line amounts advances (amounts.wellFormed.same.advances advances advances)

end AmountsTo

/-- Whatever was said, a session amounts to the lines that count, and starts as it did. -/
theorem Transcript.amountsTo {initial : Context} (wellFormed : initial.WellFormed)
    (transcript : Transcript (ofContext initial) lines kept session) :
    AmountsTo (ofContext initial) kept session ∧ initial.Same session.initial := by
  have start : initial.Same initial := .refl wellFormed
  induction transcript with
  | start => exact ⟨.start ⟨start, start⟩, start⟩
  | @line lines kept session next rounds line reply earlier answered ih =>
      obtain ⟨amounts, begins⟩ := ih
      rcases keptAfter_cases answered kept with ⟨clears, rfl⟩ | ⟨counts, advances⟩ | ⟨passes, rfl⟩
      · rw [clears]
        exact ⟨.start ⟨begins, begins⟩, begins⟩
      · rw [counts]
        exact ⟨amounts.advance advances, begins.trans (advances.start amounts.wellFormed)⟩
      · rw [passes]
        exact ⟨amounts, begins⟩

/-- If the same lines count in two transcripts, every line has the same reply after both. -/
theorem Transcript.same_reply {initial : Context} (arises : initial.Arises)
    {otherLines : List String} (transcript : Transcript (ofContext initial) lines kept session)
    (otherTranscript : Transcript (ofContext initial) otherLines kept other) (rounds : Nat)
    (line : String) :
    (session.reply rounds line).map (·.1) = (other.reply rounds line).map (·.1) := by
  have amounts := (transcript.amountsTo arises.wellFormed).1
  have otherAmounts := (otherTranscript.amountsTo arises.wellFormed).1
  exact (amounts.unique otherAmounts).reply rounds line

theorem Transcript.extend {start : Session} {more : List String} {rounds : Nat} {reply : Reply}
    (earlier : Transcript start lines kept session)
    (answered : session.reply rounds line = some (reply, next))
    (keeps : session.keptAfter rounds line kept = more) :
    Transcript start (line :: lines) more next := by
  rw [← keeps]
  exact .line earlier answered

theorem run_unbound {source name : String}
    (kinds : (Tokens.ofSource source).kinds = [.name name, .mark .semicolon])
    (unbound : session.context.getType? name = none) (rounds : Nat) :
    ∃ failure, session.run rounds source = some (.error failure, session) := by
  let phrase : Phrase := .tighter <| .tighter <| .tighter <| .tighter <| .tighter <| .tighter <|
    .signed <| .ascribed <| .plain <| .primary <| .atom (.name name) (absurd · Bool.false_ne_true)
  obtain ⟨program, read, trees⟩ :=
    Program.ofTokens_of_yield (d := .whole (.cons (.expr phrase) .nil)) kinds.symm
  obtain ⟨stmt, rfl, tree⟩ := List.map_eq_singleton_iff.mp trees
  have same : stmt.bare = (Stmt.expr .nowhere (.name .nowhere name)).bare := tree
  cases Stmt.twins_of_bare same with
  | @expr location _ e _ expressions =>
      have inferred := Expr.infer_eq_of_bare expressions session.context.getType?
      have refused : ∃ fault, e.infer session.context.getType? = .error fault := by
        cases typed : e.infer session.context.getType? with
        | error fault => exact ⟨fault, rfl⟩
        | ok type =>
            rw [typed, Expr.infer, unbound] at inferred
            cases inferred
      obtain ⟨fault, refused⟩ := refused
      have checked : (Stmt.checkAll [.expr location e] none session.context).result =
          .error fault := by
        rw [Stmt.checkAll, Stmt.check, refused]
        rfl
      refine ⟨.typing fault, ?_⟩
      have source : Program.ofSource source = .ok [.expr location e] := read
      rw [Session.run, source]
      simp only [runProgram, checked]

/-- A unit is declared alone, or after much else of which nothing counts. -/
theorem unit_same_reply : ∃ session other,
    Transcript prelude ["unit u;"] ["unit u;"] session ∧
      Transcript prelude ["unit u;", "y;", ".clear", ".undef s", ".help"] ["unit u;"] other ∧
      ∀ rounds line, (session.reply rounds line).map (·.1) = (other.reply rounds line).map (·.1) := by
  have help : Command.ofLine ".help" = .help := by decide +kernel
  have clear : Command.ofLine ".clear" = .clear := by decide +kernel
  have forget : Command.ofLine ".undef s" = .forget "s" := by decide +kernel
  have unbound : Command.ofLine "y;" = .run "y;" := by decide +kernel
  have unit : Command.ofLine "unit u;" = .run "unit u;" := by decide +kernel
  have unitKinds : (Tokens.ofSource "unit u;").kinds =
      [.keyword .unit, .name "u", .mark .semicolon] := by decide +kernel
  have nameKinds : (Tokens.ofSource "y;").kinds = [.name "y", .mark .semicolon] := by decide +kernel
  have declares {lines : List String} {before : Session}
      (earlier : Transcript prelude lines [] before) :
      ∃ session, Transcript prelude ("unit u;" :: lines) ["unit u;"] session := by
    obtain ⟨-, -, session, rounds, ran⟩ := unit_succeeds unitKinds before
    have answered : before.reply rounds "unit u;" =
        some (.ofOutcome "unit u;" (.ok (some (.unitConstructor (.fresh "u")))), session) := by
      rw [Session.reply, unit, handle, if_neg (by decide), ran]
      rfl
    exact ⟨session, earlier.extend answered (by simp [keptAfter, unit, ran])⟩
  have helped : Transcript prelude [".help"] [] prelude := by
    have answered : prelude.reply 0 ".help" = some (.output Prompt.help, prelude) := by
      rw [Session.reply, help]
      rfl
    exact Transcript.start.extend answered (by rw [keptAfter, help])
  obtain ⟨forgot, found⟩ : ∃ forgot, prelude.forget? "s" = some forgot := ⟨_, rfl⟩
  have forgotten : Transcript prelude [".undef s", ".help"] [".undef s"] forgot := by
    have answered : prelude.reply 0 ".undef s" = some (.silent, forgot) := by
      rw [Session.reply, forget, handle, found]
    exact helped.extend answered (by simp [keptAfter, forget, found])
  have cleared : Transcript prelude [".clear", ".undef s", ".help"] [] forgot.reset := by
    have answered : forgot.reply 0 ".clear" = some (.silent, forgot.reset) := by
      rw [Session.reply, clear]
      rfl
    exact forgotten.extend answered (by rw [keptAfter, clear])
  have refused : Transcript prelude ["y;", ".clear", ".undef s", ".help"] [] forgot.reset := by
    have missing : forgot.reset.context.getType? "y" = none := by
      cases found
      rfl
    obtain ⟨failure, ran⟩ := run_unbound nameKinds missing 0
    have answered : forgot.reset.reply 0 "y;" = some (.failed "y;" failure, forgot.reset) := by
      rw [Session.reply, unbound, handle, if_neg (by decide), ran]
      rfl
    exact cleared.extend answered (by simp [keptAfter, unbound, ran])
  obtain ⟨session, alone⟩ := declares .start
  obtain ⟨other, after⟩ := declares refused
  exact ⟨session, other, alone, after, Transcript.same_reply Context.prelude_arises alone after⟩

end Quantities.Session
