import Quantities.Proofs.Grammar.ExpressionComplete
import Quantities.Proofs.Grammar.ExpressionCut
import Quantities.Proofs.Grammar.Passes

/-!
What an expression ends in front of. The token behind an expression cannot carry it on, so that the
tokens of an expression are passed.
-/

namespace Quantities

theorem Ends.congr {levels : List Level} {rest others : List TokenKind} (ends : Ends levels rest)
    (same : others.head? = rest.head?) : Ends levels others :=
  ⟨fun level member kind found => ends.noConnector level member kind (same ▸ found),
    same ▸ ends.noUnit, same ▸ ends.noCaret⟩

namespace Grammar

theorem powers_ends {c : Cursor} {base p : Parsed Expr c} (read : powers base = .ok p) :
    p.next.kinds.head? ≠ some (.mark .caret) := by
  rw [powers] at read
  split at read
  next missed =>
    cases read
    intro caret
    have refused := Cursor.refused_of_take? missed caret
    cases refused
  next caret taken =>
    obtain ⟨size, -, read⟩ := Result.bind_eq_ok.mp read
    exact powers_ends read
termination_by base.next.rest.length
decreasing_by exact Parsed.followedBy_shorter _ _ _

theorem power_ends {c : Cursor} {p : Parsed Expr c} (read : power c = .ok p) :
    p.next.kinds.head? ≠ some (.mark .caret) := by
  rw [power] at read
  obtain ⟨base, -, read⟩ := Result.bind_eq_ok.mp read
  exact powers_ends read

theorem units_ends {c : Cursor} {operand p : Parsed Expr c}
    (noCaret : operand.next.kinds.head? ≠ some (.mark .caret)) (read : units operand = .ok p) :
    Ends [] p.next.kinds := by
  rw [units] at read
  split at read
  next =>
    obtain ⟨unit, unitRead, read⟩ := Result.bind_eq_ok.mp read
    have unitEnds := power_ends unitRead
    exact units_ends unitEnds read
  next noUnit =>
    cases read
    rw [Cursor.kind?_eq_head?, Bool.not_eq_true] at noUnit
    exact ⟨fun _ member => absurd member List.not_mem_nil, noUnit, noCaret⟩
termination_by operand.next.rest.length
decreasing_by exact Parsed.followedBy_shorter _ _ _

theorem signed_ends {c : Cursor} {p : Parsed Expr c} (read : signed c = .ok p) :
    Ends [] p.next.kinds := by
  rw [signed] at read
  split at read
  next =>
    rw [ascribed] at read
    obtain ⟨operand, operandRead, read⟩ := Result.bind_eq_ok.mp read
    exact units_ends (power_ends operandRead) read
  next op taken =>
    obtain ⟨operand, operandRead, read⟩ := Result.bind_eq_ok.mp read
    cases read
    have operandEnds := signed_ends operandRead
    exact operandEnds
termination_by c.rest.length
decreasing_by exact Parsed.shorter _

theorem chain_ends {first : Level} {tighter : List Level}
    (tighterEnds : ∀ {c : Cursor} {p : Parsed Expr c}, level tighter c = .ok p →
      Ends tighter p.next.kinds)
    {c : Cursor} {left p : Parsed Expr c} (leftEnds : Ends tighter left.next.kinds)
    (read : chain first tighter left = .ok p) : Ends (first :: tighter) p.next.kinds := by
  rw [chain] at read
  split at read
  next missed =>
    cases read
    refine ⟨fun level member kind found => ?_, leftEnds.noUnit, leftEnds.noCaret⟩
    rcases List.mem_cons.mp member with rfl | later
    · exact Cursor.refused_of_take? missed found
    · exact leftEnds.noConnector level later kind found
  next connector taken =>
    obtain ⟨right, rightRead, read⟩ := Result.bind_eq_ok.mp read
    have rightEnds := tighterEnds rightRead
    exact chain_ends tighterEnds rightEnds read
termination_by left.next.rest.length
decreasing_by exact Parsed.followedBy_shorter _ _ _

theorem level_ends (levels : List Level) {c : Cursor} {p : Parsed Expr c}
    (read : level levels c = .ok p) : Ends levels p.next.kinds := by
  induction levels generalizing c with
  | nil =>
      rw [level] at read
      exact signed_ends read
  | cons first tighter ih =>
      rw [level] at read
      obtain ⟨left, leftRead, read⟩ := Result.bind_eq_ok.mp read
      exact chain_ends ih (ih leftRead) read

section

variable {c : Cursor}

theorem exponent_passes {p : Parsed Float c} (read : exponent c = .ok p) :
    ∃ (size : Exponent) (used : List Token),
      Passes (Leads exponent) c used p.next ∧ used.map (·.kind) = size.yield := by
  obtain ⟨used, took⟩ := exponent_took read
  obtain ⟨size, kinds, -⟩ := exponent_sound read
  rw [took.kinds] at kinds
  have yield : used.map (·.kind) = size.yield := List.append_cancel_right kinds
  refine ⟨size, used, took.passes fun kinds _ => ?_, yield⟩
  rw [yield] at kinds
  obtain ⟨again, readAgain, -, left⟩ := exponent_complete size kinds
  exact ⟨again, readAgain, left⟩

variable {p : Parsed Expr c}

theorem level_passes {levels : List Level} (within : levels <:+ Level.all)
    (inOrder : Token.InOrder c.rest) (read : level levels c = .ok p) :
    ∃ (d : ExprDerivation (.level levels)) (used : List Token),
      Passes (Leads (level levels)) c used p.next ∧ used.map (·.kind) = d.yield := by
  have distinct := List.Nodup.sublist within.sublist Level.all_nodup
  obtain ⟨d, used, cuts⟩ := level_cut levels within inOrder read
  have yield := yield_eq_kinds cuts.readAs cuts.took
  refine ⟨d, used, cuts.took.passes fun kinds same => ?_, yield.symm⟩
  rw [← yield] at kinds
  have ends := (level_ends levels read).congr same
  obtain ⟨q, readAgain, gives⟩ :=
    level_of_reaches (reaches d kinds (allows_of_ends ends) distinct) ends
  exact ⟨q, readAgain, gives.kinds⟩

theorem power_passes {asUnit : Bool} (starts : asUnit = true → startsUnit c.kind? = true)
    (inOrder : Token.InOrder c.rest) (read : power c = .ok p) :
    ∃ (d : ExprDerivation (.power asUnit)) (used : List Token),
      Passes (Leads power) c used p.next ∧ used.map (·.kind) = d.yield := by
  obtain ⟨d, used, cuts⟩ := power_cut asUnit starts inOrder read
  have yield := yield_eq_kinds cuts.readAs cuts.took
  refine ⟨d, used, cuts.took.passes fun kinds same => ?_, yield.symm⟩
  rw [← yield] at kinds
  obtain ⟨q, readAgain, gives⟩ :=
    power_of_reaches (reaches d kinds trivial trivial) (same ▸ power_ends read)
  exact ⟨q, readAgain, gives.kinds⟩

theorem primary_passes {asUnit : Bool} (starts : asUnit = true → startsUnit c.kind? = true)
    (inOrder : Token.InOrder c.rest) (read : primary c = .ok p) :
    ∃ (d : ExprDerivation (.primary asUnit)) (used : List Token),
      Passes (Leads primary) c used p.next ∧ used.map (·.kind) = d.yield := by
  obtain ⟨d, used, cuts⟩ := primary_cut asUnit starts inOrder read
  have yield := yield_eq_kinds cuts.readAs cuts.took
  refine ⟨d, used, cuts.took.passes fun kinds _ => ?_, yield.symm⟩
  rw [← yield] at kinds
  obtain ⟨q, readAgain, gives⟩ := reaches d kinds trivial trivial
  exact ⟨q, readAgain, gives.kinds⟩

end

end Grammar

end Quantities
