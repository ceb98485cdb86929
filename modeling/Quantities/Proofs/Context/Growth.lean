import Quantities.Proofs.Context.Extension
import Quantities.Proofs.Context.Stack

/-!
What running does to a context. New values come to lie on the old ones, and the types stay as they
are, whatever is written to the cells of values.
-/

namespace Quantities

namespace Context

/-- The second context has new values on those of the first one, and the types that it had. -/
structure Grows (before after : Context) : Prop where
  wellFormed : after.WellFormed
  values : before.scope.values <:+ after.scope.values
  types : after.scope.types = before.scope.types
  size : before.cells.size ≤ after.cells.size
  typeStack : after.typeStack = before.typeStack

namespace Grows

variable {before middle after : Context}

theorem refl (wellFormed : before.WellFormed) : before.Grows before :=
  ⟨wellFormed, List.suffix_refl _, rfl, Nat.le_refl _, rfl⟩

theorem trans (first : before.Grows middle) (second : middle.Grows after) : before.Grows after :=
  ⟨second.wellFormed, first.values.trans second.values, second.types.trans first.types,
    Nat.le_trans first.size second.size, second.typeStack.trans first.typeStack⟩

theorem setValue? (wellFormed : before.WellFormed) {name : String} {v : Value}
    (written : before.setValue? name v = some after) : before.Grows after := by
  obtain ⟨scope, size, types, -⟩ := wellFormed.setValue? written
  refine ⟨⟨⟨?_, ?_⟩, ?_, ?_⟩, ?_, ?_, Nat.le_of_eq size.symm, types⟩
  · rw [scope, size]
    exact wellFormed.bounded.types
  · rw [scope, size]
    exact wellFormed.bounded.values
  · rw [scope]
    exact wellFormed.distinct
  · rw [scope]
    exact wellFormed.apart
  · exact ⟨[], by rw [scope, List.nil_append]⟩
  · rw [scope]

theorem read_leave (after : Context) {bindings : List (String × Nat)}
    (bounded : ∀ binding ∈ bindings, binding.2 < before.cells.size) :
    Stack.read (after.leave before.mark).cells bindings = Stack.read after.cells bindings := by
  apply Stack.read_congr
  intro binding member
  have bound := bounded binding member
  simp only [Context.leave, mark, Array.take_eq_extract]
  rw [Array.getElem?_extract, Nat.zero_add]
  split
  next => rfl
  next outside =>
    have beyond : after.cells.size ≤ binding.2 := by omega
    exact (Array.getElem?_eq_none beyond).symm

theorem leave (wellFormed : before.WellFormed) (grows : before.Grows after) :
    before.Grows (after.leave before.mark) := by
  have size : (after.leave before.mark).cells.size = before.cells.size := by
    have := grows.size
    simp only [Context.leave, mark, Array.take_eq_extract, Array.size_extract]
    omega
  refine ⟨⟨⟨?_, ?_⟩, wellFormed.distinct, wellFormed.apart⟩, List.suffix_refl _, rfl,
    Nat.le_of_eq size.symm, ?_⟩
  · rw [size]
    exact wellFormed.bounded.types
  · rw [size]
    exact wellFormed.bounded.values
  · have left := read_leave after wellFormed.bounded.types
    have kept : Stack.read after.cells before.scope.types = before.typeStack := by
      rw [← grows.types]
      exact grows.typeStack
    exact left.trans kept

theorem valueStack_leave (wellFormed : before.WellFormed) (grows : before.Grows after) :
    (after.leave before.mark).valueStack =
      after.valueStack.drop (after.valueStack.length - before.valueStack.length) := by
  have left := read_leave after wellFormed.bounded.values
  obtain ⟨added, together⟩ := grows.values
  have whole : after.valueStack =
      Stack.read after.cells added ++ Stack.read after.cells before.scope.values := by
    rw [valueStack, ← together, Stack.read, List.map_append]
    rfl
  have lengths : after.valueStack.length - before.valueStack.length =
      (Stack.read after.cells added).length := by
    rw [whole]
    simp [valueStack, Stack.read]
  rw [lengths, whole, List.drop_left]
  exact left

end Grows

end Context

/-- New bindings of values, and writes to the cells of old ones, leave the types as they are. -/
theorem Context.Extends.grows {before after : Context} {newValues : List (String × Nat)}
    {written : Nat → Prop} (extension : before.Extends after [] newValues written)
    (wellFormed : before.WellFormed)
    (visible : ∀ cell < before.cells.size, written cell →
      ∃ name, before.scope.values.lookup name = some cell) : before.Grows after := by
  have values {binding : String × Nat} (member : binding ∈ after.scope.values) :
      binding ∈ newValues ∧ before.cells.size ≤ binding.2 ∧ binding.2 < after.cells.size ∨
        binding ∈ before.scope.values ∧ binding.2 < before.cells.size := by
    rw [extension.values] at member
    rcases List.mem_append.mp member with newer | older
    · exact .inl ⟨newer, extension.fresh binding newer⟩
    · exact .inr ⟨older, wellFormed.bounded.values binding older⟩
  have grown := extension.le_size
  refine ⟨⟨⟨?_, ?_⟩, ?_, ?_⟩, ⟨newValues, extension.values.symm⟩, extension.types, grown, ?_⟩
  · rw [extension.types]
    exact fun type member => Nat.lt_of_lt_of_le (wellFormed.bounded.types type member) grown
  · intro binding member
    rcases values member with ⟨-, -, bound⟩ | ⟨-, bound⟩
    · exact bound
    · exact Nat.lt_of_lt_of_le bound grown
  · rw [extension.values, List.map_append]
    refine List.nodup_append.mpr ⟨extension.distinct, wellFormed.distinct, ?_⟩
    intro cell newer other older same
    obtain ⟨binding, member, rfl⟩ := List.mem_map.mp newer
    obtain ⟨under, underMember, rfl⟩ := List.mem_map.mp older
    have low := (extension.fresh binding member).1
    have high := wellFormed.bounded.values under underMember
    omega
  · rw [extension.types]
    intro type typeMember value member
    rcases values member with ⟨-, low, -⟩ | ⟨older, -⟩
    · have high := wellFormed.bounded.types type typeMember
      omega
    · exact wellFormed.apart type typeMember value older
  · rw [typeStack, typeStack, extension.types]
    apply Stack.read_congr
    intro type member
    apply extension.kept type.2 (wellFormed.bounded.types type member)
    intro hit
    obtain ⟨name, found⟩ := visible type.2 (wellFormed.bounded.types type member) hit
    exact wellFormed.apart type member _ (Scope.mem_of_lookup found) rfl

namespace Stmt

variable {before : Context} {rounds : Nat} {last : Option Value} {step : Step (Option Value)}

theorem run_grows (stmt : Stmt) (wellFormed : before.WellFormed)
    (ran : stmt.run rounds before = some step) : before.Grows step.context :=
  (run_extends stmt ran).grows wellFormed fun _ old assigns => assigns.visible old

theorem runAll_grows (body : List Stmt) (wellFormed : before.WellFormed)
    (ran : runAll rounds body last before = some step) : before.Grows step.context := by
  obtain ⟨newValues, extension⟩ := runAll_extends body ran
  exact extension.grows wellFormed fun _ old assigns => assigns.visible old

end Stmt

end Quantities
