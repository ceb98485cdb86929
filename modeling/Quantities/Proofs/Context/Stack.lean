import Quantities.Proofs.Context.Bounded

/-!
What can be seen of a context: the names with what is bound to them, the newest first. Which cells
the bindings lead to cannot be seen, as long as no two of them share one.
-/

namespace Quantities

/-- Bindings with what is in their cells. -/
abbrev Stack : Type := List (String × Option Value)

namespace Stack

def read (cells : Array Value) (bindings : List (String × Nat)) : Stack :=
  bindings.map fun binding => (binding.1, cells[binding.2]?)

/-- Writes to the newest binding of a name. -/
def write (name : String) (v : Value) : Stack → Stack
  | [] => []
  | (other, old) :: rest =>
    if name = other then (other, some v) :: rest else (other, old) :: write name v rest

variable {cells : Array Value} {bindings : List (String × Nat)}

theorem lookup_read (cells : Array Value) (bindings : List (String × Nat)) (name : String) :
    (read cells bindings).lookup name = (bindings.lookup name).map fun cell => cells[cell]? := by
  induction bindings with
  | nil => rfl
  | cons first rest ih =>
      obtain ⟨other, cell⟩ := first
      simp only [read, List.map_cons, List.lookup_cons] at ih ⊢
      split
      next => rfl
      next => exact ih

theorem read_congr {others : Array Value}
    (same : ∀ binding ∈ bindings, others[binding.2]? = cells[binding.2]?) :
    read others bindings = read cells bindings := by
  apply List.map_congr_left
  intro binding member
  rw [same binding member]

theorem read_push (bounded : ∀ binding ∈ bindings, binding.2 < cells.size) (v : Value) :
    read (cells.push v) bindings = read cells bindings :=
  read_congr fun binding member => Context.getElem?_push_of_lt (bounded binding member) v

theorem read_bind (bounded : ∀ binding ∈ bindings, binding.2 < cells.size) (v : Value)
    (name : String) :
    read (cells.push v) ((name, cells.size) :: bindings) = (name, some v) :: read cells bindings := by
  have older := read_push bounded v
  simp only [read, List.map_cons] at older ⊢
  rw [older]
  simp

theorem read_set {cell : Nat} (other : ∀ binding ∈ bindings, cell ≠ binding.2) (v : Value) :
    read (cells.setIfInBounds cell v) bindings = read cells bindings :=
  read_congr fun binding member => Array.getElem?_setIfInBounds_ne (other binding member)

theorem read_set_newest {name : String} {cell : Nat} (distinct : (bindings.map (·.2)).Nodup)
    (found : bindings.lookup name = some cell) (bound : cell < cells.size) (v : Value) :
    read (cells.setIfInBounds cell v) bindings = write name v (read cells bindings) := by
  induction bindings with
  | nil => cases found
  | cons first rest ih =>
      obtain ⟨other, place⟩ := first
      obtain ⟨absent, restDistinct⟩ := List.nodup_cons.mp distinct
      rw [Scope.lookup_cons] at found
      by_cases same : name = other
      · rw [if_pos same] at found
        cases found
        have apart : ∀ binding ∈ rest, cell ≠ binding.2 := by
          rintro binding member rfl
          exact absent (List.mem_map.mpr ⟨binding, member, rfl⟩)
        have others : read (cells.setIfInBounds cell v) rest = read cells rest := read_set apart v
        simp only [read, List.map_cons] at others ⊢
        rw [others, write, if_pos same]
        simp [bound]
      · rw [if_neg same] at found
        have apart : cell ≠ place := by
          rintro rfl
          exact absent (List.mem_map.mpr ⟨_, Scope.mem_of_lookup found, rfl⟩)
        have others := ih restDistinct found
        simp only [read, List.map_cons] at others ⊢
        rw [others, write, if_neg same, Array.getElem?_setIfInBounds_ne apart]

end Stack

namespace Context

def typeStack (context : Context) : Stack := .read context.cells context.scope.types

def valueStack (context : Context) : Stack := .read context.cells context.scope.values

theorem getType?_eq_join (context : Context) (name : String) :
    context.getType? name = (context.typeStack.lookup name).join := by
  rw [typeStack, Stack.lookup_read, getType?]
  cases context.scope.types.lookup name <;> rfl

theorem getValue?_eq_join (context : Context) (name : String) :
    context.getValue? name = (context.valueStack.lookup name).join := by
  rw [valueStack, Stack.lookup_read, getValue?]
  cases context.scope.values.lookup name <;> rfl

variable {a b : Context}

theorem getType?_of_stack (sameStack : a.typeStack = b.typeStack) : a.getType? = b.getType? := by
  funext name
  rw [getType?_eq_join, getType?_eq_join, sameStack]

theorem getValue?_of_stack (sameStack : a.valueStack = b.valueStack) :
    a.getValue? = b.getValue? := by
  funext name
  rw [getValue?_eq_join, getValue?_eq_join, sameStack]

/-- The bindings lead to cells in use, and no value shares its cell with another binding. -/
structure WellFormed (context : Context) : Prop where
  bounded : context.Bounded
  distinct : (context.scope.values.map (·.2)).Nodup
  apart : ∀ type ∈ context.scope.types, ∀ value ∈ context.scope.values, type.2 ≠ value.2

variable {context : Context}

theorem Bounded.typeStack_addType (bounded : context.Bounded) (name : String) (type : Value) :
    (context.addType name type).typeStack = (name, some type) :: context.typeStack :=
  Stack.read_bind bounded.types type name

theorem Bounded.valueStack_addType (bounded : context.Bounded) (name : String) (type : Value) :
    (context.addType name type).valueStack = context.valueStack :=
  Stack.read_push bounded.values type

theorem Bounded.valueStack_addValue (bounded : context.Bounded) (name : String) (v : Value) :
    (context.addValue name v).valueStack = (name, some v) :: context.valueStack :=
  Stack.read_bind bounded.values v name

theorem WellFormed.addType (wellFormed : context.WellFormed) (name : String) (type : Value) :
    (context.addType name type).WellFormed := by
  refine ⟨wellFormed.bounded.addType name type, wellFormed.distinct, ?_⟩
  intro binding member value valueMember
  rcases List.mem_cons.mp member with rfl | older
  · have := wellFormed.bounded.values value valueMember
    simp only
    omega
  · exact wellFormed.apart binding older value valueMember

theorem WellFormed.addValue (wellFormed : context.WellFormed) (name : String) (v : Value) :
    (context.addValue name v).WellFormed := by
  refine ⟨wellFormed.bounded.addValue name v, ?_, ?_⟩
  · refine List.nodup_cons.mpr ⟨?_, wellFormed.distinct⟩
    intro member
    obtain ⟨value, valueMember, same⟩ := List.mem_map.mp member
    have := wellFormed.bounded.values value valueMember
    simp only at same
    omega
  · intro type typeMember value member
    rcases List.mem_cons.mp member with rfl | older
    · have := wellFormed.bounded.types type typeMember
      simp only
      omega
    · exact wellFormed.apart type typeMember value older

theorem WellFormed.setValue? {name : String} {v : Value} {after : Context}
    (wellFormed : context.WellFormed) (written : context.setValue? name v = some after) :
    after.scope = context.scope ∧ after.cells.size = context.cells.size ∧
      after.typeStack = context.typeStack ∧
      after.valueStack = context.valueStack.write name v := by
  obtain ⟨cell, found, written⟩ := Option.bind_eq_some_iff.mp written
  cases written
  have member := Scope.mem_of_lookup found
  refine ⟨rfl, by simp, ?_, ?_⟩
  · exact Stack.read_set (fun type typeMember =>
      (wellFormed.apart type typeMember _ member).symm) v
  · exact Stack.read_set_newest wellFormed.distinct found (wellFormed.bounded.values _ member) v

theorem empty_wellFormed : empty.WellFormed :=
  ⟨empty_bounded, .nil, nofun⟩

theorem prelude_wellFormed : prelude.WellFormed := by
  unfold prelude
  apply List.foldlRecOn
  · exact empty_wellFormed
  · intro context wellFormed unit _
    exact (wellFormed.addType unit.1 _).addValue unit.1 _

theorem WellFormed.deleteType (wellFormed : context.WellFormed) (name : String) :
    (context.deleteType name).WellFormed := by
  refine ⟨⟨?_, wellFormed.bounded.values⟩, wellFormed.distinct, ?_⟩
  · exact fun binding member => wellFormed.bounded.types binding (Scope.mem_uncover member)
  · exact fun type member => wellFormed.apart type (Scope.mem_uncover member)

theorem WellFormed.deleteValue (wellFormed : context.WellFormed) (name : String) :
    (context.deleteValue name).WellFormed := by
  refine ⟨⟨wellFormed.bounded.types, ?_⟩, ?_, ?_⟩
  · exact fun binding member => wellFormed.bounded.values binding (Scope.mem_uncover member)
  · exact wellFormed.distinct.sublist (List.eraseP_sublist.map _)
  · exact fun type typeMember value member =>
      wellFormed.apart type typeMember value (Scope.mem_uncover member)

end Context

end Quantities
