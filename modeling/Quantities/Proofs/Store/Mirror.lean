import Quantities.Proofs.Context.Bounded
import Quantities.Proofs.Store.Reference

/-!
Cells and references. Each cell in use stands for one reference and holds what is held there, and no
two cells stand for the same one. Cells that are dropped and made again stand for new references.
-/

namespace Quantities.Store

/-- The references that the cells of each store stand for, in the order of the cells. -/
abbrev Links : Type := Nat → List Nat

structure Mirror (links : Links) (workspace : Workspace) (heap : Heap) : Prop where
  held : ∀ store, (workspace.stores.getD store #[]).toList.map some =
    (links store).map fun reference => heap[reference]?
  distinct : ∀ {store other cell place reference : Nat}, (links store)[cell]? = some reference →
    (links other)[place]? = some reference → store = other ∧ cell = place

section Stores

variable {stores : Array (Array Value)} {store other : Nat} {cells : Array Value}

theorem getD_put (bound : store < stores.size) :
    (stores.setIfInBounds store cells).getD other #[] =
      if other = store then cells else stores.getD other #[] := by
  simp only [Array.getD_eq_getD_getElem?, Array.getElem?_setIfInBounds]
  by_cases same : other = store
  · simp [same, bound]
  · simp [same, Ne.symm same]

theorem getD_push : (stores.push cells).getD other #[] =
    if other = stores.size then cells else stores.getD other #[] := by
  simp only [Array.getD_eq_getD_getElem?, Array.getElem?_push]
  split <;> rfl

end Stores

namespace Mirror

variable {links : Links} {workspace : Workspace} {heap : Heap} {store cell reference : Nat}

theorem read (mirror : Mirror links workspace heap)
    (leads : (links store)[cell]? = some reference) :
    ∃ v, (workspace.stores.getD store #[])[cell]? = some v ∧ heap[reference]? = some v := by
  have same := congrArg (·[cell]?) (mirror.held store)
  simp only [List.getElem?_map, leads, Array.getElem?_toList, Option.map_some] at same
  obtain ⟨v, found, holds⟩ := Option.map_eq_some_iff.mp same
  exact ⟨v, found, holds.symm⟩

theorem size (mirror : Mirror links workspace heap) (store : Nat) :
    (workspace.stores.getD store #[]).size = (links store).length := by
  have same := congrArg List.length (mirror.held store)
  simpa using same

theorem lt_of_leads (mirror : Mirror links workspace heap)
    (leads : (links store)[cell]? = some reference) : reference < heap.length := by
  obtain ⟨v, -, found⟩ := mirror.read leads
  exact (List.getElem?_eq_some_iff.mp found).1

theorem links_eq_nil (mirror : Mirror links workspace heap) (unmade : workspace.stores.size ≤ store) :
    links store = [] := by
  have size := mirror.size store
  rw [Array.getD_eq_getD_getElem?, Array.getElem?_eq_none unmade] at size
  exact List.eq_nil_of_length_eq_zero size.symm

theorem map_append (mirror : Mirror links workspace heap) (store : Nat) (more : Heap) :
    ((links store).map fun reference => (heap ++ more)[reference]?) =
      (links store).map fun reference => heap[reference]? := by
  apply List.map_congr_left
  intro reference member
  obtain ⟨cell, leads⟩ := List.mem_iff_getElem?.mp member
  exact List.getElem?_append_left (mirror.lt_of_leads leads)

theorem empty : Mirror (fun _ => []) .empty [] :=
  ⟨fun store => by simp [Workspace.empty], nofun⟩

theorem create (mirror : Mirror links workspace heap) :
    Mirror links ⟨workspace.stores.push #[]⟩ heap := by
  refine ⟨fun store => ?_, mirror.distinct⟩
  rw [getD_push]
  split
  next newest =>
    rw [mirror.links_eq_nil (Nat.le_of_eq newest.symm)]
    rfl
  next => exact mirror.held store

theorem push (mirror : Mirror links workspace heap) (made : store < workspace.stores.size)
    (v : Value) :
    Mirror (Function.update links store (links store ++ [heap.length]))
      ⟨workspace.stores.setIfInBounds store ((workspace.stores.getD store #[]).push v)⟩
      (heap ++ [v]) := by
  have leads {other place reference : Nat}
      (found : (Function.update links store (links store ++ [heap.length]) other)[place]? =
        some reference) :
      (links other)[place]? = some reference ∨
        other = store ∧ place = (links store).length ∧ reference = heap.length := by
    by_cases same : other = store
    · subst same
      rw [Function.update_self, List.getElem?_append] at found
      split at found
      next => exact .inl found
      next beyond =>
        obtain ⟨inside, last⟩ := List.getElem?_eq_some_iff.mp found
        simp only [List.length_singleton] at inside
        simp only [List.getElem_singleton] at last
        exact .inr ⟨rfl, by omega, last.symm⟩
    · rw [Function.update_of_ne same] at found
      exact .inl found
  constructor
  · intro other
    rw [getD_put made]
    by_cases same : other = store
    · subst same
      have older := (mirror.held other).trans (mirror.map_append other [v]).symm
      rw [if_pos rfl, Function.update_self, Array.toList_push, List.map_append, older,
        List.map_append]
      simp
    · rw [if_neg same, Function.update_of_ne same, mirror.map_append]
      exact mirror.held other
  · intro one other cell place reference found otherFound
    rcases leads found with older | ⟨rfl, rfl, rfl⟩
    · rcases leads otherFound with otherOlder | ⟨rfl, rfl, rfl⟩
      · exact mirror.distinct older otherOlder
      · exact absurd (mirror.lt_of_leads older) (Nat.lt_irrefl _)
    · rcases leads otherFound with otherOlder | ⟨rfl, rfl, -⟩
      · exact absurd (mirror.lt_of_leads otherOlder) (Nat.lt_irrefl _)
      · exact ⟨rfl, rfl⟩

/-- What is written to a cell and to its reference is not seen elsewhere. -/
theorem write (mirror : Mirror links workspace heap) (made : store < workspace.stores.size)
    (leads : (links store)[cell]? = some reference) (v : Value) :
    Mirror links
      ⟨workspace.stores.setIfInBounds store
        ((workspace.stores.getD store #[]).setIfInBounds cell v)⟩
      (heap.set reference v) := by
  have bound := mirror.lt_of_leads leads
  refine ⟨fun other => ?_, mirror.distinct⟩
  rw [getD_put made]
  apply List.ext_getElem?
  intro place
  have older := congrArg (·[place]?) (mirror.held other)
  simp only [List.getElem?_map, Array.getElem?_toList] at older ⊢
  cases found : (links other)[place]? with
  | none =>
      rw [found, Option.map_none, Option.map_eq_none_iff] at older
      rw [Option.map_none, Option.map_eq_none_iff]
      by_cases here : other = store
      · subst here
        rw [if_pos rfl, Array.getElem?_eq_none_iff, Array.size_setIfInBounds]
        exact Array.getElem?_eq_none_iff.mp older
      · rw [if_neg here]
        exact older
  | some target =>
      rw [found, Option.map_some] at older
      rw [Option.map_some, List.getElem?_set]
      by_cases same : reference = target
      · subst same
        obtain ⟨rfl, rfl⟩ := mirror.distinct leads found
        obtain ⟨old, inUse, -⟩ := mirror.read leads
        have inside := (Array.getElem?_eq_some_iff.mp inUse).1
        rw [if_pos rfl, if_pos rfl, if_pos bound,
          Array.getElem?_setIfInBounds_self_of_lt inside, Option.map_some]
      · rw [if_neg same, ← older]
        by_cases here : other = store
        · subst here
          have apart : cell ≠ place := by
            rintro rfl
            exact same (Option.some.inj (leads.symm.trans found))
          rw [if_pos rfl, Array.getElem?_setIfInBounds_ne apart]
        · rw [if_neg here]

theorem take (mirror : Mirror links workspace heap) (made : store < workspace.stores.size)
    (count : Nat) :
    Mirror (Function.update links store ((links store).take count))
      ⟨workspace.stores.setIfInBounds store ((workspace.stores.getD store #[]).take count)⟩
      heap := by
  have leads {other place reference : Nat}
      (found : (Function.update links store ((links store).take count) other)[place]? =
        some reference) : (links other)[place]? = some reference := by
    by_cases same : other = store
    · subst same
      rw [Function.update_self, List.getElem?_take] at found
      split at found
      next => exact found
      next => cases found
    · rw [Function.update_of_ne same] at found
      exact found
  refine ⟨fun other => ?_, fun found otherFound => mirror.distinct (leads found) (leads otherFound)⟩
  rw [getD_put made]
  by_cases same : other = store
  · subst same
    rw [if_pos rfl, Function.update_self, List.map_take, ← mirror.held other, ← List.map_take]
    simp
  · rw [if_neg same, Function.update_of_ne same]
    exact mirror.held other

theorem copy (mirror : Mirror links workspace heap) (store : Nat) :
    Mirror (Function.update links workspace.stores.size ((links store).map (· + heap.length)))
      ⟨workspace.stores.push (workspace.stores.getD store #[])⟩ (heap ++ heap) := by
  have leads {other place reference : Nat}
      (found : (Function.update links workspace.stores.size
        ((links store).map (· + heap.length)) other)[place]? = some reference) :
      reference < heap.length ∧ (links other)[place]? = some reference ∨
        other = workspace.stores.size ∧
          ∃ original, (links store)[place]? = some original ∧
            reference = original + heap.length := by
    by_cases same : other = workspace.stores.size
    · subst same
      rw [Function.update_self, List.getElem?_map] at found
      obtain ⟨original, originalFound, rfl⟩ := Option.map_eq_some_iff.mp found
      exact .inr ⟨rfl, original, originalFound, rfl⟩
    · rw [Function.update_of_ne same] at found
      exact .inl ⟨mirror.lt_of_leads found, found⟩
  constructor
  · intro other
    rw [getD_push]
    by_cases same : other = workspace.stores.size
    · subst same
      rw [if_pos rfl, Function.update_self, List.map_map, mirror.held store]
      apply List.map_congr_left
      intro reference member
      rw [Function.comp, List.getElem?_append_right (Nat.le_add_left _ _), Nat.add_sub_cancel]
    · rw [if_neg same, Function.update_of_ne same, mirror.map_append]
      exact mirror.held other
  · intro one other cell place reference found otherFound
    rcases leads found with ⟨bound, older⟩ | ⟨rfl, original, originalFound, rfl⟩
    · rcases leads otherFound with ⟨-, otherOlder⟩ | ⟨rfl, original, originalFound, rfl⟩
      · exact mirror.distinct older otherOlder
      · omega
    · rcases leads otherFound with ⟨bound, -⟩ | ⟨rfl, other, otherFound, same⟩
      · omega
      · obtain rfl : original = other := by omega
        exact ⟨rfl, (mirror.distinct originalFound otherFound).2⟩

end Mirror

end Quantities.Store
