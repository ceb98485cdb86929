import Quantities.Context

/-!
Contexts whose bindings lead to cells in use. Then a new binding hides the bindings of its own name
and leaves all others as they were.
-/

namespace Quantities

/-- Every binding leads to a cell in use. -/
structure Context.Bounded (context : Context) : Prop where
  types : ∀ binding ∈ context.scope.types, binding.2 < context.cells.size
  values : ∀ binding ∈ context.scope.values, binding.2 < context.cells.size

namespace Scope

theorem mem_of_lookup {bindings : List (String × Nat)} {name : String} {cell : Nat}
    (found : bindings.lookup name = some cell) : (name, cell) ∈ bindings := by
  induction bindings with
  | nil => cases found
  | cons first rest ih =>
      rw [List.lookup_cons] at found
      split at found
      next same =>
        cases found
        have key : name = first.1 := by simpa using same
        simp [key]
      next => exact List.mem_cons_of_mem _ (ih found)

theorem lookup_cons (bindings : List (String × Nat)) (name other : String) (cell : Nat) :
    ((name, cell) :: bindings).lookup other =
      if other = name then some cell else bindings.lookup other := by
  by_cases same : other = name
  · simp [same]
  · have differ : (other == name) = false := by simpa using same
    simp [List.lookup_cons, differ, same]

theorem mem_uncover {bindings : List (String × Nat)} {name : String} {binding : String × Nat}
    (member : binding ∈ uncover name bindings) : binding ∈ bindings := List.mem_of_mem_eraseP member

end Scope

namespace Context

theorem getElem?_push_of_lt {cells : Array Value} {cell : Nat} (bound : cell < cells.size)
    (v : Value) : (cells.push v)[cell]? = cells[cell]? := by
  rw [Array.getElem?_push, if_neg (by omega)]

/-- A new cell shows through the newest binding only. -/
theorem read_push {cells : Array Value} {bindings : List (String × Nat)}
    (bounded : ∀ binding ∈ bindings, binding.2 < cells.size) (v : Value) (name : String) :
    (bindings.lookup name).bind (fun cell => (cells.push v)[cell]?) =
      (bindings.lookup name).bind fun cell => cells[cell]? := by
  cases found : bindings.lookup name with
  | none => rfl
  | some cell =>
      exact getElem?_push_of_lt (bounded (name, cell) (Scope.mem_of_lookup found)) v

theorem read_bind {cells : Array Value} {bindings : List (String × Nat)}
    (bounded : ∀ binding ∈ bindings, binding.2 < cells.size) (v : Value) (name other : String) :
    (((name, cells.size) :: bindings).lookup other).bind (fun cell => (cells.push v)[cell]?) =
      if other = name then some v
      else (bindings.lookup other).bind fun cell => cells[cell]? := by
  rw [Scope.lookup_cons]
  by_cases same : other = name
  · simp [same]
  · rw [if_neg same, if_neg same, read_push bounded]

variable {context : Context}

theorem Bounded.getType?_addType (bounded : context.Bounded) (name other : String) (type : Value) :
    (context.addType name type).getType? other =
      if other = name then some type else context.getType? other :=
  read_bind bounded.types type name other

theorem Bounded.getValue?_addType (bounded : context.Bounded) (name other : String)
    (type : Value) : (context.addType name type).getValue? other = context.getValue? other :=
  read_push bounded.values type other

theorem Bounded.getType?_addValue (bounded : context.Bounded) (name other : String) (v : Value) :
    (context.addValue name v).getType? other = context.getType? other :=
  read_push bounded.types v other

theorem bounded_push {cells : Array Value} {bindings : List (String × Nat)}
    (bounded : ∀ binding ∈ bindings, binding.2 < cells.size) (v : Value) :
    ∀ binding ∈ bindings, binding.2 < (cells.push v).size := by
  intro binding member
  have := bounded binding member
  rw [Array.size_push]
  omega

theorem bounded_bind {cells : Array Value} {bindings : List (String × Nat)}
    (bounded : ∀ binding ∈ bindings, binding.2 < cells.size) (v : Value) (name : String) :
    ∀ binding ∈ (name, cells.size) :: bindings, binding.2 < (cells.push v).size := by
  intro binding member
  rcases List.mem_cons.mp member with rfl | older
  · rw [Array.size_push]
    exact Nat.lt_succ_self _
  · exact bounded_push bounded v binding older

theorem Bounded.addType (bounded : context.Bounded) (name : String) (type : Value) :
    (context.addType name type).Bounded :=
  ⟨bounded_bind bounded.types type name, bounded_push bounded.values type⟩

theorem Bounded.addValue (bounded : context.Bounded) (name : String) (v : Value) :
    (context.addValue name v).Bounded :=
  ⟨bounded_push bounded.types v, bounded_bind bounded.values v name⟩

theorem empty_bounded : empty.Bounded := by
  constructor <;> intro binding member <;> cases member

end Context

end Quantities
