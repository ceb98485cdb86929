import Quantities.Proofs.Grammar.Lookahead
import Quantities.Proofs.Grammar.Stuck

/-!
A reading of an expression that fails is stuck where it fails: what was taken before can be completed
to an expression, and the refused token cannot come next.
-/

namespace Quantities

abbrev Stratum.Derives (stratum : Stratum) (kinds : List TokenKind) : Prop :=
  ∃ d : ExprDerivation stratum, d.yield = kinds

namespace Cursor

variable {α : Type} {c other : Cursor} {accept : TokenKind → Option α} {wanted : Wanted}

theorem take?_eq_none_of_head (missed : c.take? accept = none)
    (same : other.kinds.head? = c.kinds.head?) : other.take? accept = none :=
  take?_eq_none fun _ found => refused_of_take? missed (same ▸ found)

theorem need_eq_error {e : ParseError} :
    c.need wanted accept = .error e ↔ c.take? accept = none ∧ e = c.refuse wanted := by
  unfold need
  split
  next taken => simp [taken]
  next missed => simp [missed, eq_comm]

theorem need_stuck {e : ParseError} {Completes : List TokenKind → Prop} {more : List TokenKind}
    (failed : c.need wanted accept = .error e) (spellable : Spellable more)
    (completes : Completes more) :
    Stuck (Fails fun c => c.need wanted accept) Completes c e := by
  obtain ⟨missed, rfl⟩ := need_eq_error.mp failed
  refine .here spellable completes fun other same => ⟨other.refuse wanted, ?_⟩
  exact need_eq_error.mpr ⟨take?_eq_none_of_head missed same, rfl⟩

theorem needMark_stuck {sign : Mark} {e : ParseError} (failed : c.needMark sign = .error e) :
    Stuck (Fails fun c => c.needMark sign) (· = [.mark sign]) c e :=
  need_stuck failed (.mark sign) rfl

end Cursor

namespace Grammar

section

variable {c : Cursor} {e : ParseError}

theorem needExponent_stuck (failed : needExponent c = .error e) :
    Stuck (Fails needExponent) (fun kinds => ∃ x, kinds = [.number x]) c e := by
  obtain ⟨x, spellable⟩ := Spellable.number
  exact Cursor.need_stuck failed spellable ⟨x, rfl⟩

theorem exponent_stuck (failed : exponent c = .error e) :
    Stuck (Fails exponent) (fun kinds => ∃ size : Exponent, size.yield = kinds) c e := by
  unfold exponent at failed
  split at failed
  next sign taken =>
    rcases Result.bind_eq_error.mp failed with missing | ⟨size, -, impossible⟩
    · refine .afterMark taken (needExponent_stuck missing) ?_ ?_
      · rintro kinds ⟨x, rfl⟩
        exact ⟨[], .nil, .minus x, rfl⟩
      · rintro other again takenAgain ⟨failure, missing⟩
        refine ⟨failure, ?_⟩
        rw [exponent, takenAgain]
        exact Result.bind_error_first missing
    · cases impossible
  next noMinus =>
    split at failed
    next sign taken =>
      rcases Result.bind_eq_error.mp failed with missing | ⟨size, -, impossible⟩
      · refine .afterMark taken (needExponent_stuck missing) ?_ ?_
        · rintro kinds ⟨x, rfl⟩
          exact ⟨[], .nil, .plus x, rfl⟩
        · rintro other again takenAgain ⟨failure, missing⟩
          have isPlus := Cursor.takeMark?_kinds takenAgain
          have noMinusAgain : other.takeMark? .minus = none :=
            Cursor.takeMark?_eq_none (by rw [isPlus]; simp)
          refine ⟨failure, ?_⟩
          rw [exponent, noMinusAgain]
          simp only [takenAgain]
          exact Result.bind_error_first missing
      · cases impossible
    next noPlus =>
      refine (needExponent_stuck failed).imp ?_ ?_
      · rintro kinds ⟨x, rfl⟩
        exact ⟨[], .nil, .plain x, rfl⟩
      · rintro other same ⟨failure, missing⟩
        have noMinusAgain : other.takeMark? .minus = none :=
          Cursor.take?_eq_none_of_head noMinus same
        have noPlusAgain : other.takeMark? .plus = none := Cursor.take?_eq_none_of_head noPlus same
        refine ⟨failure, ?_⟩
        simp only [exponent, noMinusAgain, noPlusAgain]
        exact missing

end

theorem powers_stuck {asUnit : Bool} {c : Cursor} {e : ParseError} {base : Parsed Expr c}
    (d : ExprDerivation (.power asUnit)) (failed : powers base = .error e) :
    Stuck (FailsBehind powers)
      (fun kinds => (Stratum.power asUnit).Derives (d.yield ++ kinds))
      base.next e := by
  rw [powers] at failed
  split at failed
  next => cases failed
  next caret taken =>
    rcases Result.bind_eq_error.mp failed with missing | ⟨size, found, failed⟩
    · refine .afterMark taken (exponent_stuck missing) ?_ ?_
      · rintro kinds ⟨size, rfl⟩
        exact ⟨[], .nil, .power d size, by simp [ExprDerivation.yield]⟩
      · rintro other again takenAgain ⟨failure, missing⟩ c before rfl
        refine ⟨failure, ?_⟩
        change powers before = _
        rw [powers, takenAgain]
        exact Result.bind_error_first missing
    · obtain ⟨token, isCaret, caretPasses⟩ := Cursor.takeMark?_passes taken
      obtain ⟨exponent, used, sizePasses, yield⟩ := exponent_passes found
      have later := powers_stuck (.power d exponent) failed
      refine .behind (caretPasses.trans sizePasses) later ?_ ?_
      · rintro kinds ⟨whole, same⟩
        exact ⟨[], .nil, whole, by simp [same, isCaret, yield, ExprDerivation.yield]⟩
      · rintro other there - ⟨-, ⟨again, takenAgain, -, rfl⟩, sizeAgain, foundAgain, rfl⟩ fails c
          before rfl
        have takenAgain : before.next.takeMark? .caret = some again := takenAgain
        change ∃ failure, powers before = _
        rw [powers, takenAgain]
        simp only [foundAgain]
        exact fails c _ rfl
termination_by base.next.rest.length
decreasing_by exact Parsed.followedBy_shorter _ _ _

section

variable {stratum inner : Stratum} {c : Cursor} {e : ParseError}
  {part whole : (c : Cursor) → Except ParseError (Parsed Expr c)}
  {loop : {c : Cursor} → Parsed Expr c → Except ParseError (Parsed Expr c)}
  (opens : ∀ c : Cursor, whole c = part c >>= loop)

include opens

/-- A production that begins with a part and goes on in a loop may be stuck in the part. -/
theorem looped_stuck_first (wraps : ∀ d : ExprDerivation inner, stratum.Derives d.yield)
    (first : Stuck (Fails part) inner.Derives c e) : Stuck (Fails whole) stratum.Derives c e := by
  refine first.imp ?_ ?_
  · rintro kinds ⟨d, rfl⟩
    exact ⟨[], .nil, by simpa using wraps d⟩
  · rintro other - ⟨failure, failed⟩
    refine ⟨failure, ?_⟩
    rw [opens]
    exact Result.bind_error_first failed

/-- It may also be stuck in the loop behind what it has read. -/
theorem looped_stuck_behind {used : List Token} {left : Parsed Expr c} (d : ExprDerivation stratum)
    (passes : Passes (Leads part) c used left.next) (yield : used.map (·.kind) = d.yield)
    (later : Stuck (FailsBehind loop) (fun kinds => stratum.Derives (d.yield ++ kinds)) left.next e) :
    Stuck (Fails whole) stratum.Derives c e := by
  refine .behind passes later (fun kinds derives => ⟨[], .nil, ?_⟩) ?_
  · rw [yield, List.append_nil]
    exact derives
  · rintro other there - ⟨again, readAgain, rfl⟩ fails
    obtain ⟨failure, failed⟩ := fails other again rfl
    refine ⟨failure, ?_⟩
    rw [opens]
    exact Result.bind_error_next readAgain failed

end

mutual

theorem level_stuck (levels : List Level) (within : levels <:+ Level.all) {c : Cursor}
    {e : ParseError} (inOrder : Token.InOrder c.rest) (failed : level levels c = .error e) :
    Stuck (Fails (level levels)) (Stratum.level levels).Derives c e := by
  match levels with
  | [] =>
      rw [level] at failed
      refine (signed_stuck inOrder failed).imp ?_ ?_
      · rintro kinds ⟨whole, rfl⟩
        exact ⟨[], .nil, .signed whole, by simp [ExprDerivation.yield]⟩
      · rintro other - ⟨failure, failed⟩
        exact ⟨failure, by rw [level, failed]⟩
  | first :: tighter =>
      have tighterWithin := (List.suffix_cons first tighter).trans within
      have opens (c : Cursor) :
          level (first :: tighter) c = level tighter c >>= chain first tighter := by rw [level]
      rw [opens] at failed
      rcases Result.bind_eq_error.mp failed with failed | ⟨left, leftRead, failed⟩
      · exact looped_stuck_first opens (fun d => ⟨.tighter d, rfl⟩)
          (level_stuck tighter tighterWithin inOrder failed)
      · obtain ⟨d, used, passes, yield⟩ := level_passes tighterWithin inOrder leftRead
        exact looped_stuck_behind opens (.tighter d) passes yield
          (chain_stuck within (.tighter d) failed (passes.inOrder inOrder))
termination_by (c.rest.length, 2 * levels.length + 4)
decreasing_by
  · exact Prod.Lex.right _ (by simp +arith)
  · exact Prod.Lex.right _ (by simp +arith)
  · exact Prod.Lex.left _ _ (Parsed.shorter _)

theorem chain_stuck {first : Level} {tighter : List Level} (within : first :: tighter <:+ Level.all)
    {c : Cursor} {left : Parsed Expr c} {e : ParseError}
    (d : ExprDerivation (.level (first :: tighter))) (failed : chain first tighter left = .error e)
    (inOrder : Token.InOrder left.next.rest) :
    Stuck (FailsBehind (chain first tighter))
      (fun kinds => (Stratum.level (first :: tighter)).Derives (d.yield ++ kinds))
      left.next e := by
  have tighterWithin := (List.suffix_cons first tighter).trans within
  rw [chain] at failed
  split at failed
  next => cases failed
  next connector taken =>
    obtain ⟨token, accepted, connectorPasses⟩ := Cursor.take?_passes taken
    obtain ⟨atLevel, isConnector⟩ := Level.connector?_eq_some.mp accepted
    have rightInOrder := connectorPasses.inOrder inOrder
    rcases Result.bind_eq_error.mp failed with failed | ⟨right, rightRead, failed⟩
    · refine .afterToken taken (level_stuck tighter tighterWithin rightInOrder failed) ?_ ?_
      · rintro kind accepted kinds ⟨operand, rfl⟩
        obtain ⟨atLevel, rfl⟩ := Level.connector?_eq_some.mp accepted
        exact ⟨[], .nil, .join connector.value atLevel d operand, by simp [ExprDerivation.yield]⟩
      · rintro other again takenAgain - ⟨failure, failed⟩ c before rfl
        refine ⟨failure, ?_⟩
        change chain first tighter before = _
        rw [chain, takenAgain]
        exact Result.bind_error_first failed
    · obtain ⟨operand, used, passes, yield⟩ := level_passes tighterWithin rightInOrder rightRead
      have later := chain_stuck within (.join connector.value atLevel d operand) failed
        (passes.inOrder rightInOrder)
      refine .behind (connectorPasses.trans passes) later ?_ ?_
      · rintro kinds ⟨whole, same⟩
        exact ⟨[], .nil, whole, by simp [same, ← isConnector, yield, ExprDerivation.yield]⟩
      · rintro other there - ⟨-, ⟨again, takenAgain, value, rfl⟩, rightAgain, readAgain, rfl⟩ fails c
          before rfl
        obtain ⟨failure, failed⟩ := fails c (before.followedBy (again.followedBy rightAgain ())
          (again.value.join before.value rightAgain.value)) rfl
        refine ⟨failure, ?_⟩
        change chain first tighter before = _
        rw [chain, takenAgain]
        exact Result.bind_error_next readAgain failed
termination_by (left.next.rest.length, 2 * tighter.length + 5)
decreasing_by
  · exact Prod.Lex.left _ _ (Parsed.shorter _)
  · exact Prod.Lex.left _ _ (Parsed.followedBy_shorter _ _ _)

theorem signed_stuck {c : Cursor} {e : ParseError} (inOrder : Token.InOrder c.rest)
    (failed : signed c = .error e) :
    Stuck (Fails signed) Stratum.signed.Derives c e := by
  rw [signed] at failed
  split at failed
  next missed =>
    refine (ascribed_stuck inOrder failed).imp ?_ ?_
    · rintro kinds ⟨whole, rfl⟩
      exact ⟨[], .nil, .ascribed whole, by simp [ExprDerivation.yield]⟩
    · rintro other same ⟨failure, failed⟩
      exact ⟨failure, by rw [signed, Cursor.take?_eq_none_of_head missed same, failed]⟩
  next op taken =>
    obtain ⟨token, -, passes⟩ := Cursor.take?_passes taken
    rcases Result.bind_eq_error.mp failed with failed | ⟨operand, -, impossible⟩
    · refine .afterToken taken (signed_stuck (passes.inOrder inOrder) failed) ?_ ?_
      · rintro kind accepted kinds ⟨operand, rfl⟩
        rw [← SignOp.ofToken?_eq_some.mp accepted]
        exact ⟨[], .nil, .sign op.value operand, by simp [ExprDerivation.yield]⟩
      · rintro other again takenAgain - ⟨failure, failed⟩
        refine ⟨failure, ?_⟩
        rw [signed, takenAgain]
        exact Result.bind_error_first failed
    · cases impossible
termination_by (c.rest.length, 3)
decreasing_by
  · exact Prod.Lex.right _ (by decide)
  · exact Prod.Lex.left _ _ (Parsed.shorter _)

theorem ascribed_stuck {c : Cursor} {e : ParseError} (inOrder : Token.InOrder c.rest)
    (failed : ascribed c = .error e) :
    Stuck (Fails ascribed) Stratum.ascribed.Derives c e := by
  have notUnit : false = true → startsUnit c.kind? = true := nofun
  have opens (c : Cursor) : ascribed c = power c >>= units := by rw [ascribed]
  rw [opens] at failed
  rcases Result.bind_eq_error.mp failed with failed | ⟨operand, operandRead, failed⟩
  · exact looped_stuck_first opens (fun d => ⟨.plain d, rfl⟩)
      (power_stuck false notUnit inOrder failed)
  · obtain ⟨d, used, passes, yield⟩ := power_passes notUnit inOrder operandRead
    exact looped_stuck_behind opens (.plain d) passes yield
      (units_stuck (.plain d) failed (passes.inOrder inOrder))
termination_by (c.rest.length, 2)
decreasing_by
  · exact Prod.Lex.right _ (by decide)
  · exact Prod.Lex.left _ _ (Parsed.shorter _)

theorem units_stuck {c : Cursor} {operand : Parsed Expr c} {e : ParseError}
    (d : ExprDerivation .ascribed) (failed : units operand = .error e)
    (inOrder : Token.InOrder operand.next.rest) :
    Stuck (FailsBehind units) (fun kinds => Stratum.ascribed.Derives (d.yield ++ kinds))
      operand.next e := by
  rw [units] at failed
  split at failed
  next starts =>
    rcases Result.bind_eq_error.mp failed with failed | ⟨unit, unitRead, failed⟩
    · refine (power_stuck true (fun _ => starts) inOrder failed).imp ?_ ?_
      · rintro kinds ⟨unit, rfl⟩
        exact ⟨[], .nil, .ascribe d unit, by simp [ExprDerivation.yield]⟩
      · rintro other same ⟨failure, failed⟩ c before rfl
        rw [Cursor.kind?_eq_head?, ← same, ← Cursor.kind?_eq_head?] at starts
        refine ⟨failure, ?_⟩
        change units before = _
        rw [units, if_pos starts]
        exact Result.bind_error_first failed
    · obtain ⟨unitDerivation, used, passes, yield⟩ := power_passes (fun _ => starts) inOrder unitRead
      have later := units_stuck (.ascribe d unitDerivation) failed (passes.inOrder inOrder)
      refine .behind passes later ?_ ?_
      · rintro kinds ⟨whole, same⟩
        exact ⟨[], .nil, whole, by simp [same, yield, ExprDerivation.yield]⟩
      · rintro other there same ⟨again, readAgain, rfl⟩ fails c before rfl
        rw [Cursor.kind?_eq_head?, ← same, ← Cursor.kind?_eq_head?] at starts
        obtain ⟨failure, failed⟩ := fails c (before.followedBy again (.ascription
          (before.value.location.merge again.value.location) before.value again.value)) rfl
        refine ⟨failure, ?_⟩
        change units before = _
        rw [units, if_pos starts]
        exact Result.bind_error_next readAgain failed
  next => cases failed
termination_by (operand.next.rest.length, 2)
decreasing_by
  · exact Prod.Lex.right _ (by decide)
  · exact Prod.Lex.left _ _ (Parsed.followedBy_shorter _ _ _)

theorem power_stuck (asUnit : Bool) {c : Cursor} {e : ParseError}
    (starts : asUnit = true → startsUnit c.kind? = true) (inOrder : Token.InOrder c.rest)
    (failed : power c = .error e) :
    Stuck (Fails power) (Stratum.power asUnit).Derives c e := by
  have opens (c : Cursor) : power c = primary c >>= powers := by rw [power]
  rw [opens] at failed
  rcases Result.bind_eq_error.mp failed with failed | ⟨base, baseRead, failed⟩
  · exact looped_stuck_first opens (fun d => ⟨.primary d, rfl⟩)
      (primary_stuck asUnit inOrder failed)
  · obtain ⟨d, used, passes, yield⟩ := primary_passes starts inOrder baseRead
    exact looped_stuck_behind opens (.primary d) passes yield (powers_stuck (.primary d) failed)
termination_by (c.rest.length, 1)
decreasing_by exact Prod.Lex.right _ (by decide)

theorem primary_stuck (asUnit : Bool) {c : Cursor} {e : ParseError}
    (inOrder : Token.InOrder c.rest) (failed : primary c = .error e) :
    Stuck (Fails primary) (Stratum.primary asUnit).Derives c e := by
  rw [primary] at failed
  split at failed
  next opening taken =>
    obtain ⟨token, isOpening, openPasses⟩ := Cursor.takeMark?_passes taken
    have innerInOrder := openPasses.inOrder inOrder
    rcases Result.bind_eq_error.mp failed with failed | ⟨inner, innerRead, failed⟩
    · refine .afterMark taken (level_stuck Level.all List.suffix_rfl innerInOrder failed) ?_ ?_
      · rintro kinds ⟨whole, rfl⟩
        exact ⟨_, .mark .rightParen, .paren whole, rfl⟩
      · rintro other again takenAgain ⟨failure, failed⟩
        refine ⟨failure, ?_⟩
        rw [primary, takenAgain]
        exact Result.bind_error_first failed
    · rcases Result.bind_eq_error.mp failed with failed | ⟨closing, -, impossible⟩
      · obtain ⟨d, used, passes, yield⟩ := level_passes List.suffix_rfl innerInOrder innerRead
        refine .behind (openPasses.trans passes) (Cursor.needMark_stuck failed) ?_ ?_
        · rintro kinds rfl
          exact ⟨[], .nil, .paren d, by simp [isOpening, yield, ExprDerivation.yield]⟩
        · rintro other there - ⟨-, ⟨again, takenAgain, -, rfl⟩, innerAgain, readAgain, rfl⟩
            ⟨failure, failed⟩
          have takenAgain : other.takeMark? .leftParen = some again := takenAgain
          refine ⟨failure, ?_⟩
          rw [primary, takenAgain]
          exact Result.bind_error_next readAgain (Result.bind_error_first failed)
      · cases impossible
  next missed =>
    rcases Result.bind_eq_error.mp failed with failed | ⟨atom, -, impossible⟩
    · have refused : Stuck (Fails fun c => c.need .expression atom?) (· = [.keyword .scalar]) c e :=
        Cursor.need_stuck failed .scalar rfl
      refine refused.imp ?_ ?_
      · rintro kinds rfl
        exact ⟨[], .nil, .atom (.word .scalar) (fun _ => rfl), rfl⟩
      · rintro other same ⟨failure, failed⟩
        have noParen : other.takeMark? .leftParen = none := Cursor.take?_eq_none_of_head missed same
        refine ⟨failure, ?_⟩
        rw [primary, noParen]
        exact Result.bind_error_first failed
    · cases impossible
termination_by (c.rest.length, 0)
decreasing_by exact Prod.Lex.left _ _ (Parsed.shorter _)

end

end Grammar

end Quantities
