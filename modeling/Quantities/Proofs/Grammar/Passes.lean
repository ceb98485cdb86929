import Quantities.Proofs.Grammar.Took

/-!
Runs that pass a row of tokens. With the same token behind them, the tokens are passed again from
every other cursor.
-/

namespace Quantities

section

variable {α β : Type}

/-- The next token is accepted with the value, and the second cursor is behind it. -/
def Takes (accept : TokenKind → Option α) (value : α) (c there : Cursor) : Prop :=
  ∃ p, c.take? accept = some p ∧ p.value = value ∧ p.next = there

def Leads (run : (c : Cursor) → Except ParseError (Parsed α c)) (c there : Cursor) : Prop :=
  ∃ p, run c = .ok p ∧ p.next = there

/-- The reading goes on from the first cursor to the second, whatever was read before. -/
def LeadsBehind (run : {c : Cursor} → Parsed α c → Except ParseError (Parsed β c))
    (c there : Cursor) : Prop :=
  ∀ (start : Cursor) (before : Parsed α start), before.next = c →
    ∃ p, run before = .ok p ∧ p.next = there

end

structure Passes (Run : Cursor → Cursor → Prop) (c : Cursor) (used : List Token) (next : Cursor) :
    Prop where
  rest : c.rest = used ++ next.rest
  finish : next.finish = c.finish
  again : ∀ (other : Cursor) (ahead : List TokenKind), other.kinds = used.map (·.kind) ++ ahead →
    ahead.head? = next.kinds.head? → ∃ there : Cursor, there.kinds = ahead ∧ Run other there

theorem Cursor.head?_ahead {c : Cursor} {used left : List Token} {ahead : List TokenKind}
    (rest : c.rest = used ++ left) (same : ahead.head? = left.head?.map (·.kind)) :
    (used.map (·.kind) ++ ahead).head? = c.kinds.head? := by
  rw [Cursor.kinds, rest]
  cases used with
  | nil => simpa using same
  | cons token more => rfl

/-- What a reading took is passed if it is read again with the same token behind it. -/
theorem Parsed.Took.passes {α : Type} {c : Cursor} {p : Parsed α c} {used : List Token}
    {run : (c : Cursor) → Except ParseError (Parsed α c)} (took : p.Took used)
    (again : ∀ {other : Cursor} {ahead : List TokenKind},
      other.kinds = used.map (·.kind) ++ ahead → ahead.head? = p.next.kinds.head? →
        ∃ q, run other = .ok q ∧ q.next.kinds = ahead) : Passes (Leads run) c used p.next where
  rest := took.rest
  finish := took.finish
  again := fun other ahead kinds same => by
    obtain ⟨q, read, left⟩ := again kinds same
    exact ⟨q.next, left, q, read, rfl⟩

namespace Passes

variable {Run More : Cursor → Cursor → Prop} {c mid next : Cursor} {used more : List Token}

theorem kinds (passes : Passes Run c used next) :
    c.kinds = used.map (·.kind) ++ next.kinds := by
  rw [Cursor.kinds, passes.rest, List.map_append]
  rfl

theorem inOrder (passes : Passes Run c used next) (inOrder : Token.InOrder c.rest) :
    Token.InOrder next.rest :=
  inOrder.sublist (passes.rest ▸ List.sublist_append_right used next.rest)

theorem imp (passes : Passes Run c used next) (leads : ∀ c there, Run c there → More c there) :
    Passes More c used next where
  rest := passes.rest
  finish := passes.finish
  again := fun other ahead kinds same => by
    obtain ⟨there, thereKinds, run⟩ := passes.again other ahead kinds same
    exact ⟨there, thereKinds, leads other there run⟩

theorem trans (first : Passes Run c used mid) (second : Passes More mid more next) :
    Passes (fun c there => ∃ mid, Run c mid ∧ More mid there) c (used ++ more) next where
  rest := by rw [first.rest, second.rest, List.append_assoc]
  finish := second.finish.trans first.finish
  again := by
    intro other ahead kinds same
    rw [List.map_append, List.append_assoc] at kinds
    have between : (more.map (·.kind) ++ ahead).head? = mid.kinds.head? :=
      Cursor.head?_ahead second.rest (same.trans List.head?_map)
    obtain ⟨behind, behindKinds, run⟩ := first.again other _ kinds between
    obtain ⟨there, thereKinds, goesOn⟩ := second.again behind ahead behindKinds same
    exact ⟨there, thereKinds, behind, run, goesOn⟩

end Passes

namespace Cursor

variable {α : Type} {c : Cursor}

theorem take?_passes {accept : TokenKind → Option α} {p : Parsed α c}
    (taken : c.take? accept = some p) :
    ∃ token, accept token.kind = some p.value ∧ Passes (Takes accept p.value) c [token] p.next := by
  obtain ⟨token, took, accepted⟩ := take?_took taken
  refine ⟨token, accepted, took.rest, took.finish, fun other ahead kinds _ => ?_⟩
  obtain ⟨again, takenAgain, value, next⟩ := take?_of_kinds kinds accepted
  exact ⟨again.next, next, again, takenAgain, value, rfl⟩

theorem takeMark?_passes {sign : Mark} {p : Parsed Unit c} (taken : c.takeMark? sign = some p) :
    ∃ token, token.kind = .mark sign ∧ Passes (Takes (acceptMark sign) ()) c [token] p.next := by
  obtain ⟨token, accepted, passes⟩ := take?_passes taken
  exact ⟨token, acceptMark_eq_some.mp accepted, passes⟩

end Cursor

end Quantities
