import Quantities.Proofs.Store.Action

/-!
The care that users take. Scopes of one arena are left innermost first, and a context that was made
in a scope is not used once the scope has been left. Forks have an arena of their own, which outlives
the scope that they were made in.
-/

namespace Quantities.Store

/-- A scope that has been entered: its arena, and how many contexts had been made by then. -/
structure Entry where
  arena : Nat
  since : Nat
deriving Repr, DecidableEq

/-- The arenas made so far, the arena of each context as long as the context may be used, and each
scope as long as it may be left. -/
structure Usage where
  arenas : Nat
  contexts : List (Option Nat)
  marks : List (Option Entry)
deriving Repr, DecidableEq

namespace Usage

def empty : Usage := ⟨0, [], []⟩

/-- The arena of a context that may be used. -/
def arena? (usage : Usage) (context : Nat) : Option Nat := usage.contexts[context]?.join

/-- A scope that may be left. -/
def scope? (usage : Usage) (mark : Nat) : Option Entry := usage.marks[mark]?.join

/-- One more context may be used. -/
def allow (usage : Usage) (arena : Nat) : Usage :=
  { usage with contexts := usage.contexts ++ [some arena] }

/-- One more arena, with a context in it. -/
def widen (usage : Usage) : Usage := { usage.allow usage.arenas with arenas := usage.arenas + 1 }

/-- Gives up what was made in an arena since a scope of it began. -/
def leave (usage : Usage) (mark : Nat) (entry : Entry) : Usage :=
  { usage with
    contexts := usage.contexts.mapIdx fun context kept =>
      kept.filter fun arena => arena != entry.arena || context < entry.since
    marks := usage.marks.mapIdx fun other kept =>
      kept.filter fun older => older.arena != entry.arena || other < mark }

/-- There is no next step when an action is careless. -/
def step (usage : Usage) : Action → Option Usage
  | .create => some usage.widen
  | .add _ context _ _ | .delete _ context _ => do
    let arena ← usage.arena? context
    return usage.allow arena
  | .set context _ _ | .get _ context _ => do
    let _ ← usage.arena? context
    return usage
  | .fork context => do
    let _ ← usage.arena? context
    return usage.widen
  | .enter context => do
    let arena ← usage.arena? context
    return { usage with marks := usage.marks ++ [some ⟨arena, usage.contexts.length⟩] }
  | .restore mark => do
    let entry ← usage.scope? mark
    return (usage.leave mark entry).allow entry.arena

/-- The care over a whole run. -/
def after? (actions : List Action) : Option Usage := actions.foldlM step empty

theorem arena_allow_eq_some {usage : Usage} {arena context found : Nat} :
    (usage.allow arena).arena? context = some found ↔
      usage.arena? context = some found ∨ context = usage.contexts.length ∧ arena = found := by
  simp only [arena?, allow, Option.join_eq_some_iff, List.getElem?_append]
  split
  next old =>
    constructor
    · exact .inl
    · rintro (older | ⟨rfl, -⟩)
      · exact older
      · exact absurd old (Nat.lt_irrefl _)
  next beyond =>
    have none : usage.contexts[context]? = none := List.getElem?_eq_none (by omega)
    rw [none]
    constructor
    · intro newest
      obtain ⟨inside, same⟩ := List.getElem?_eq_some_iff.mp newest
      simp only [List.length_singleton] at inside
      simp only [List.getElem_singleton] at same
      exact .inr ⟨by omega, Option.some.inj same⟩
    · rintro (older | ⟨rfl, rfl⟩)
      · cases older
      · simp

theorem arena_leave_eq_some {usage : Usage} {mark context found : Nat} {entry : Entry} :
    (usage.leave mark entry).arena? context = some found ↔
      usage.arena? context = some found ∧ (found ≠ entry.arena ∨ context < entry.since) := by
  simp only [arena?, leave, Option.join_eq_some_iff, List.getElem?_mapIdx, Option.map_eq_some_iff,
    Option.filter_eq_some_iff, Bool.or_eq_true, bne_iff_ne, decide_eq_true_eq]
  constructor
  · rintro ⟨_, usable, rfl, kept⟩
    exact ⟨usable, kept⟩
  · rintro ⟨usable, kept⟩
    exact ⟨_, usable, rfl, kept⟩

theorem scope_leave_eq_some {usage : Usage} {mark other : Nat} {entry found : Entry} :
    (usage.leave mark entry).scope? other = some found ↔
      usage.scope? other = some found ∧ (found.arena ≠ entry.arena ∨ other < mark) := by
  simp only [scope?, leave, Option.join_eq_some_iff, List.getElem?_mapIdx, Option.map_eq_some_iff,
    Option.filter_eq_some_iff, Bool.or_eq_true, bne_iff_ne, decide_eq_true_eq]
  constructor
  · rintro ⟨_, entered, rfl, kept⟩
    exact ⟨entered, kept⟩
  · rintro ⟨entered, kept⟩
    exact ⟨_, entered, rfl, kept⟩

end Usage

end Quantities.Store
