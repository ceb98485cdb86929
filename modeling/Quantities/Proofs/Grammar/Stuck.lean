import Quantities.Proofs.Grammar.Passes
import Quantities.Proofs.Token.Scanning

/-!
Where a reading is stuck. The tokens in front of the place can be completed to what was to be read,
and with the token at the place, or the end of the text there, they can not: the reading fails on
every row that begins so.
-/

namespace Quantities

def Spellable (kinds : List TokenKind) : Prop := ∃ text, Lexeme.kinds text = kinds

namespace Spellable

theorem nil : Spellable [] := ⟨[], Lexeme.kinds_nil⟩

theorem append {kinds more : List TokenKind} (first : Spellable kinds) (second : Spellable more) :
    Spellable (kinds ++ more) := by
  obtain ⟨text, rfl⟩ := first
  obtain ⟨other, rfl⟩ := second
  exact ⟨text ++ '\n' :: other, Lexeme.kinds_append_lineFeed text other⟩

theorem mark (sign : Mark) : Spellable [.mark sign] :=
  ⟨sign.text.toList, by cases sign <;> decide +kernel⟩

theorem scalar : Spellable [.keyword .scalar] := ⟨"scalar".toList, by decide +kernel⟩

theorem name : Spellable [.name "x"] := ⟨['x'], by decide +kernel⟩

theorem number : ∃ x, Spellable [.number x] := ⟨1, ['1'], by decide +kernel⟩

end Spellable

def Fails {β : Cursor → Type} (run : (c : Cursor) → Except ParseError (β c)) (c : Cursor) : Prop :=
  ∃ e, run c = .error e

/-- The reading does not go on from the cursor, whatever was read before. -/
def FailsBehind {α : Type} {β : Cursor → Type}
    (run : {c : Cursor} → Parsed α c → Except ParseError (β c)) (next : Cursor) : Prop :=
  ∀ (start : Cursor) (before : Parsed α start), before.next = next → ∃ e, run before = .error e

variable {Fail Inner : Cursor → Prop} {Completes Part : List TokenKind → Prop} {c : Cursor}
  {e : ParseError}

/-- From the cursor, what can be read ends with the tokens that are used, and the error is at the
token that is left next. -/
structure StuckAt (Fail : Cursor → Prop) (Completes : List TokenKind → Prop) (c : Cursor)
    (e : ParseError) (used left : List Token) : Prop where
  rest : c.rest = used ++ left
  refused : ∃ (there : Cursor) (wanted : Wanted), there.rest = left ∧ there.finish = c.finish ∧
    e = there.refuse wanted
  viable : ∃ more, Spellable more ∧ Completes (used.map (·.kind) ++ more)
  fails : ∀ (other : Cursor) (ahead : List TokenKind),
    other.kinds = used.map (·.kind) ++ ahead → ahead.head? = left.head?.map (·.kind) → Fail other

theorem StuckAt.imp {used left : List Token} (inner : StuckAt Inner Part c e used left)
    (completes : ∀ kinds, Part kinds → ∃ extra, Spellable extra ∧ Completes (kinds ++ extra))
    (fails : ∀ (other : Cursor) (ahead : List TokenKind), other.kinds = used.map (·.kind) ++ ahead →
      ahead.head? = left.head?.map (·.kind) → Inner other → Fail other) :
    StuckAt Fail Completes c e used left where
  rest := inner.rest
  refused := inner.refused
  viable := by
    obtain ⟨more, spellable, part⟩ := inner.viable
    obtain ⟨extra, spelled, completed⟩ := completes _ part
    refine ⟨more ++ extra, spellable.append spelled, ?_⟩
    simpa only [List.append_assoc] using completed
  fails := fun other ahead kinds same =>
    fails other ahead kinds same (inner.fails other ahead kinds same)

def Stuck (Fail : Cursor → Prop) (Completes : List TokenKind → Prop) (c : Cursor)
    (e : ParseError) : Prop :=
  ∃ used left, StuckAt Fail Completes c e used left

namespace Stuck

theorem here {wanted : Wanted} {more : List TokenKind} (spellable : Spellable more)
    (completes : Completes more)
    (fails : ∀ other : Cursor, other.kinds.head? = c.kinds.head? → Fail other) :
    Stuck Fail Completes c (c.refuse wanted) := by
  refine ⟨[], c.rest, rfl, ⟨c, wanted, rfl, rfl, rfl⟩, ⟨more, spellable, completes⟩, ?_⟩
  intro other ahead kinds same
  apply fails
  rw [kinds, List.map_nil, List.nil_append, same, Cursor.kinds, List.head?_map]

theorem behind {Run : Cursor → Cursor → Prop} {next : Cursor} {front : List Token}
    (passes : Passes Run c front next) (inner : Stuck Inner Part next e)
    (completes : ∀ kinds, Part kinds → ∃ extra, Spellable extra ∧
      Completes (front.map (·.kind) ++ (kinds ++ extra)))
    (fails : ∀ other there : Cursor, other.kinds.head? = c.kinds.head? → Run other there →
      Inner there → Fail other) : Stuck Fail Completes c e := by
  obtain ⟨used, left, rest, ⟨there, wanted, thereRest, finish, refused⟩,
    ⟨more, spellable, part⟩, innerFails⟩ := inner
  refine ⟨front ++ used, left, ?_, ⟨there, wanted, thereRest, ?_, refused⟩, ?_, ?_⟩
  · rw [passes.rest, rest, List.append_assoc]
  · exact finish.trans passes.finish
  · obtain ⟨extra, spelled, completed⟩ := completes _ part
    refine ⟨more ++ extra, spellable.append spelled, ?_⟩
    simpa only [List.map_append, List.append_assoc] using completed
  · intro other ahead kinds same
    rw [List.map_append, List.append_assoc] at kinds
    have between := Cursor.head?_ahead rest same
    have first : other.kinds.head? = c.kinds.head? := by
      rw [kinds]
      exact Cursor.head?_ahead passes.rest (between.trans List.head?_map)
    obtain ⟨there, thereKinds, run⟩ := passes.again other _ kinds between
    exact fails other there first run (innerFails there ahead thereKinds same)

theorem imp (inner : Stuck Inner Part c e)
    (completes : ∀ kinds, Part kinds → ∃ extra, Spellable extra ∧ Completes (kinds ++ extra))
    (fails : ∀ other : Cursor, other.kinds.head? = c.kinds.head? → Inner other → Fail other) :
    Stuck Fail Completes c e := by
  obtain ⟨used, left, stuck⟩ := inner
  refine ⟨used, left, stuck.imp completes fun other ahead kinds same => fails other ?_⟩
  rw [kinds]
  exact Cursor.head?_ahead stuck.rest same

/-- The part is not stuck at its first token if something that begins with this token is read. -/
theorem imp_of_goes (inner : Stuck Inner Part c e)
    (goes : ∃ there : Cursor, there.kinds.head? = c.kinds.head? ∧ ¬ Inner there)
    (completes : ∀ kinds, Part kinds → ∃ extra, Spellable extra ∧ Completes (kinds ++ extra))
    (fails : ∀ other : Cursor, other.kinds.head? = c.kinds.head? →
      other.kinds.tail.head? = c.kinds.tail.head? → Inner other → Fail other) :
    Stuck Fail Completes c e := by
  obtain ⟨used, left, stuck⟩ := inner
  refine ⟨used, left, stuck.imp completes fun other ahead kinds same => fails other ?_ ?_⟩
  · rw [kinds]
    exact Cursor.head?_ahead stuck.rest same
  · cases used with
    | nil =>
        obtain ⟨there, begins, reads⟩ := goes
        have first : there.kinds.head? = left.head?.map (·.kind) := by
          rw [begins, Cursor.kinds, stuck.rest, List.nil_append, List.head?_map]
        exact absurd (stuck.fails there there.kinds rfl first) reads
    | cons token more =>
        have behind := Cursor.head?_ahead (c := { c with rest := more ++ left }) rfl same
        rw [kinds, Cursor.kinds, stuck.rest]
        exact behind

theorem afterToken {α : Type} {accept : TokenKind → Option α} {p : Parsed α c}
    (taken : c.take? accept = some p) (inner : Stuck Inner Part p.next e)
    (completes : ∀ kind, accept kind = some p.value → ∀ kinds, Part kinds →
      ∃ extra, Spellable extra ∧ Completes (kind :: (kinds ++ extra)))
    (fails : ∀ (other : Cursor) (again : Parsed α other), other.take? accept = some again →
      again.value = p.value → Inner again.next → Fail other) : Stuck Fail Completes c e := by
  obtain ⟨token, accepted, passes⟩ := Cursor.take?_passes taken
  refine .behind passes inner (completes token.kind accepted) ?_
  rintro other there - ⟨again, takenAgain, value, rfl⟩
  exact fails other again takenAgain value

theorem afterMark {sign : Mark} {p : Parsed Unit c} (taken : c.takeMark? sign = some p)
    (inner : Stuck Inner Part p.next e)
    (completes : ∀ kinds, Part kinds →
      ∃ extra, Spellable extra ∧ Completes (.mark sign :: (kinds ++ extra)))
    (fails : ∀ (other : Cursor) (again : Parsed Unit other), other.takeMark? sign = some again →
      Inner again.next → Fail other) : Stuck Fail Completes c e := by
  refine .afterToken taken inner (fun kind accepted => ?_) fun other again takenAgain _ =>
    fails other again takenAgain
  rw [Cursor.acceptMark_eq_some.mp accepted]
  exact completes

end Stuck

end Quantities
