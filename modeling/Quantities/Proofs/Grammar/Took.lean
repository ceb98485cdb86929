import Quantities.Proofs.Grammar.Reading
import Quantities.Proofs.Token.Span

/-!
The tokens that a reading takes. The stretch from where a reading starts to the last token it has
taken covers these tokens.
-/

namespace Quantities

/-- The reading took the tokens, and these are all that it took. -/
structure Parsed.Took {α : Type} {c : Cursor} (p : Parsed α c) (used : List Token) : Prop where
  rest : c.rest = used ++ p.next.rest
  finish : p.next.finish = c.finish
  passed : used.getLast?.map (·.location.finish) = some p.next.passed

namespace Parsed.Took

variable {α β γ : Type} {c : Cursor} {p : Parsed α c} {used more : List Token}

theorem map (took : p.Took used) (f : α → β) : (p.map f).Took used :=
  ⟨took.rest, took.finish, took.passed⟩

theorem followedBy (took : p.Took used) {q : Parsed β p.next} (others : q.Took more) (value : γ) :
    (p.followedBy q value).Took (used ++ more) where
  rest := by rw [took.rest, others.rest, List.append_assoc]; rfl
  finish := others.finish.trans took.finish
  passed := by
    obtain ⟨last, found, same⟩ := Option.map_eq_some_iff.mp others.passed
    rw [List.getLast?_append, found]
    exact congrArg some same

theorem kinds (took : p.Took used) : c.kinds = used.map (·.kind) ++ p.next.kinds := by
  rw [Cursor.kinds, took.rest, List.map_append]
  rfl

theorem ne_nil (took : p.Took used) : used ≠ [] := by
  rintro rfl
  cases took.passed

theorem covers (took : p.Took used) : p.location.Covers used where
  start := by
    obtain ⟨first, others, rfl⟩ := List.exists_cons_of_ne_nil took.ne_nil
    rw [Parsed.location, Cursor.location, took.rest]
    rfl
  finish := took.passed

theorem inOrder (took : p.Took used) (inOrder : Token.InOrder c.rest) :
    Token.InOrder p.next.rest :=
  inOrder.sublist (took.rest ▸ List.sublist_append_right used p.next.rest)

end Parsed.Took

namespace Cursor

variable {α : Type} {c : Cursor} {accept : TokenKind → Option α} {p : Parsed α c}

theorem take?_took (taken : c.take? accept = some p) :
    ∃ token, p.Took [token] ∧ accept token.kind = some p.value := by
  unfold take? at taken
  split at taken
  next => cases taken
  next token rest tokens =>
    split at taken
    next value accepted =>
      cases taken
      exact ⟨token, ⟨tokens, rfl, rfl⟩, accepted⟩
    next => cases taken

end Cursor

end Quantities
