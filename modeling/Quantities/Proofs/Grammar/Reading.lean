import Quantities.Grammar.Cursor
import Quantities.Proofs.Result

/-! Readings by the kinds of their tokens. -/

namespace Quantities

def Tokens.kinds (tokens : Tokens) : List TokenKind := tokens.items.map (·.kind)

theorem Parsed.followedBy_shorter {α β γ : Type} {c : Cursor} (p : Parsed α c)
    (q : Parsed β p.next) (value : γ) :
    (p.followedBy q value).next.rest.length < p.next.rest.length := q.shorter

namespace Cursor

/-- The kinds of the tokens still to be read. -/
def kinds (c : Cursor) : List TokenKind := c.rest.map (·.kind)

variable {α : Type} {c : Cursor} {accept : TokenKind → Option α}

theorem kind?_eq_head? (c : Cursor) : c.kind? = c.kinds.head? := by
  simp [kind?, kinds]

theorem atEnd_iff (c : Cursor) : c.atEnd = true ↔ c.kinds = [] := by
  simp [atEnd, kinds]

theorem take?_kinds {p : Parsed α c} (taken : c.take? accept = some p) :
    ∃ kind, c.kinds = kind :: p.next.kinds ∧ accept kind = some p.value := by
  unfold take? at taken
  split at taken
  next => cases taken
  next token rest tokens =>
    split at taken
    next value accepted =>
      cases taken
      exact ⟨token.kind, by simp [kinds, tokens, behind], accepted⟩
    next => cases taken

theorem take?_of_kinds {kind : TokenKind} {rest : List TokenKind} {value : α}
    (kinds : c.kinds = kind :: rest) (accepted : accept kind = some value) :
    ∃ p, c.take? accept = some p ∧ p.value = value ∧ p.next.kinds = rest := by
  unfold take?
  split
  next empty => simp [Cursor.kinds, empty] at kinds
  next token tokens found =>
    simp only [Cursor.kinds, found, List.map_cons, List.cons.injEq] at kinds
    obtain ⟨rfl, rfl⟩ := kinds
    split
    next other same =>
      rw [accepted] at same
      cases same
      exact ⟨_, rfl, rfl, rfl⟩
    next refused =>
      rw [accepted] at refused
      cases refused

theorem take?_eq_none (refused : ∀ kind, c.kinds.head? = some kind → accept kind = none) :
    c.take? accept = none := by
  cases taken : c.take? accept with
  | none => rfl
  | some p =>
      obtain ⟨kind, kinds, accepted⟩ := take?_kinds taken
      have none := refused kind (by rw [kinds]; rfl)
      rw [accepted] at none
      cases none

theorem refused_of_take? (missed : c.take? accept = none) {kind : TokenKind}
    (first : c.kinds.head? = some kind) : accept kind = none := by
  cases accepted : accept kind with
  | none => rfl
  | some value =>
      cases kinds : c.kinds with
      | nil => simp [kinds] at first
      | cons other rest =>
          rw [kinds] at first
          cases first
          obtain ⟨p, taken, -⟩ := take?_of_kinds kinds accepted
          rw [missed] at taken
          cases taken

theorem need_eq_ok {wanted : Wanted} {p : Parsed α c} :
    c.need wanted accept = .ok p ↔ c.take? accept = some p := by
  unfold need
  split
  next taken => simp [taken]
  next missed => simp [missed]

theorem acceptMark_eq_some {sign : Mark} {kind : TokenKind} :
    acceptMark sign kind = some () ↔ kind = .mark sign := by
  unfold acceptMark
  split
  next other => simp
  next notMark =>
    simp only [reduceCtorEq, false_iff]
    exact notMark sign

theorem acceptKeyword_eq_some {word : Keyword} {kind : TokenKind} :
    acceptKeyword word kind = some () ↔ kind = .keyword word := by
  unfold acceptKeyword
  split
  next other => simp
  next notKeyword =>
    simp only [reduceCtorEq, false_iff]
    exact notKeyword word

theorem acceptName_eq_some {text : String} {kind : TokenKind} :
    acceptName kind = some text ↔ kind = .name text := by
  cases kind <;> simp [acceptName]

theorem acceptNumber_eq_some {x : Float} {kind : TokenKind} :
    acceptNumber kind = some x ↔ kind = .number x := by
  cases kind <;> simp [acceptNumber]

theorem takeMark?_kinds {sign : Mark} {p : Parsed Unit c} (taken : c.takeMark? sign = some p) :
    c.kinds = .mark sign :: p.next.kinds := by
  obtain ⟨kind, kinds, accepted⟩ := take?_kinds taken
  rw [kinds, acceptMark_eq_some.mp accepted]

theorem takeMark?_of_kinds {sign : Mark} {rest : List TokenKind}
    (kinds : c.kinds = .mark sign :: rest) :
    ∃ p, c.takeMark? sign = some p ∧ p.next.kinds = rest := by
  obtain ⟨p, taken, -, next⟩ := take?_of_kinds kinds (acceptMark_eq_some.mpr rfl)
  exact ⟨p, taken, next⟩

theorem takeMark?_eq_none {sign : Mark} (other : c.kinds.head? ≠ some (.mark sign)) :
    c.takeMark? sign = none := by
  apply take?_eq_none
  intro kind first
  cases accepted : acceptMark sign kind with
  | none => rfl
  | some value =>
      rw [acceptMark_eq_some.mp accepted] at first
      exact absurd first other

theorem needMark_eq_ok {sign : Mark} {p : Parsed Unit c} :
    c.needMark sign = .ok p ↔ c.takeMark? sign = some p := need_eq_ok

end Cursor

end Quantities
