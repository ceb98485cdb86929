import Mathlib.Logic.Function.Basic
import Quantities.Proofs.Store.Action

/-!
Contexts that bind names to references. A reference is made fresh for each binding and is never
given up, so that a scope is left by going back to the bindings it began with.
-/

namespace Quantities.Store

/-- Bindings of names to references for each role, the newest first. -/
abbrev Names : Type := Role → List (String × Nat)

/-- What is held at each reference. -/
abbrev Heap : Type := List Value

namespace Names

/-- The reference of the first pair with a name. -/
def first? (name : String) : List (String × Nat) → Option Nat
  | [] => none
  | (other, reference) :: older => if name = other then some reference else first? name older

/-- Drops the first pair with a name. -/
def drop (name : String) : List (String × Nat) → List (String × Nat)
  | [] => []
  | (other, reference) :: older =>
    if name = other then older else (other, reference) :: drop name older

variable {name : String} {pairs : List (String × Nat)}

theorem mem_of_first {reference : Nat} (found : first? name pairs = some reference) :
    (name, reference) ∈ pairs := by
  induction pairs with
  | nil => cases found
  | cons pair older ih =>
      obtain ⟨other, place⟩ := pair
      rw [first?] at found
      split at found
      next same =>
        cases found
        rw [same]
        exact List.mem_cons_self
      next => exact List.mem_cons_of_mem _ (ih found)

theorem drop_sublist (name : String) (pairs : List (String × Nat)) :
    (drop name pairs).Sublist pairs := by
  induction pairs with
  | nil => exact .slnil
  | cons newest older ih =>
      rw [drop]
      split
      next => exact List.sublist_cons_self _ _
      next => exact ih.cons_cons _

end Names

/-- A fork copies every reference to one that lies as many places further on as there were
references. -/
def references : Keeper Heap Names Names where
  create heap := (fun _ => [], heap)
  add role heap names name v :=
    (Function.update names role ((name, heap.length) :: names role), heap ++ [v])
  delete role heap names name :=
    (Function.update names role (Names.drop name (names role)), heap)
  set? heap names name v :=
    (Names.first? name (names .value)).map fun reference => heap.set reference v
  get? role heap names name := (Names.first? name (names role)).bind fun reference => heap[reference]?
  fork heap names :=
    (fun role => (names role).map fun (name, reference) => (name, reference + heap.length),
      heap ++ heap)
  enter _ names := names
  restore heap names := (names, heap)

/-- Which binding a reference was made for. -/
abbrev Labels : Type := Nat → Role × String

/-- The pairs of some bindings are held, and each has the reference of a binding of its role and
name. -/
def Names.Labelled (labels : Labels) (heap : Heap) (names : Names) : Prop :=
  ∀ role, ∀ pair ∈ names role, pair.2 < heap.length ∧ labels pair.2 = (role, pair.1)

abbrev References : Type := Desk Heap Names Names

/-- No reference serves two roles or two names, in all the contexts and marks made so far. -/
structure References.Labelled (labels : Labels) (desk : References) : Prop where
  contexts : ∀ names ∈ desk.contexts, names.Labelled labels desk.world
  marks : ∀ names ∈ desk.marks, names.Labelled labels desk.world

namespace Names.Labelled

variable {labels : Labels} {heap : Heap} {names : Names}

theorem mono {others : Labels} {larger : Heap} (labelled : names.Labelled labels heap)
    (size : heap.length ≤ larger.length)
    (same : ∀ reference < heap.length, others reference = labels reference) :
    names.Labelled others larger := by
  intro role pair member
  obtain ⟨bound, label⟩ := labelled role pair member
  exact ⟨Nat.lt_of_lt_of_le bound size, (same _ bound).trans label⟩

theorem update (labelled : names.Labelled labels heap) {role : Role} {pairs : List (String × Nat)}
    (changed : ∀ pair ∈ pairs, pair.2 < heap.length ∧ labels pair.2 = (role, pair.1)) :
    Names.Labelled labels heap (Function.update names role pairs) := by
  intro other pair member
  by_cases same : other = role
  · subst same
    rw [Function.update_self] at member
    exact changed pair member
  · rw [Function.update_of_ne same] at member
    exact labelled other pair member

end Names.Labelled

namespace References.Labelled

variable {labels : Labels} {desk : References}

theorem empty (labels : Labels) : References.Labelled labels ⟨[], [], []⟩ := ⟨nofun, nofun⟩

theorem mono {others : Labels} {larger : Heap} (labelled : desk.Labelled labels)
    (size : desk.world.length ≤ larger.length)
    (same : ∀ reference < desk.world.length, others reference = labels reference) :
    References.Labelled others { desk with world := larger } :=
  ⟨fun names member => (labelled.contexts names member).mono size same,
    fun names member => (labelled.marks names member).mono size same⟩

theorem put {heap : Heap} {names : Names}
    (labelled : References.Labelled labels { desk with world := heap })
    (made : names.Labelled labels heap) : References.Labelled labels (desk.put (names, heap)) := by
  refine ⟨?_, labelled.marks⟩
  intro others member
  rcases List.mem_append.mp member with older | newest
  · exact labelled.contexts others older
  · cases List.mem_singleton.mp newest
    exact made

theorem step {answer : Answer} {next : References} {action : Action}
    (labelled : desk.Labelled labels) (stepped : references.step desk action = some (answer, next)) :
    ∃ labels : Labels, next.Labelled labels := by
  cases action with
  | create =>
      cases stepped
      exact ⟨labels, labelled.put nofun⟩
  | add role context name v =>
      obtain ⟨names, found, made⟩ := Option.bind_eq_some_iff.mp stepped
      cases made
      have given := labelled.contexts names (List.mem_of_getElem? found)
      -- The new reference is made for this binding, and the older ones keep theirs.
      have same : ∀ reference < desk.world.length,
          Function.update labels desk.world.length (role, name) reference = labels reference :=
        fun reference bound => Function.update_of_ne (Nat.ne_of_lt bound) _ _
      have size : desk.world.length ≤ (desk.world ++ [v]).length := by simp
      refine ⟨Function.update labels desk.world.length (role, name),
        (labelled.mono size same).put ((given.mono size same).update ?_)⟩
      intro pair member
      rcases List.mem_cons.mp member with rfl | older
      · simp
      · exact given.mono size same role pair older
  | delete role context name =>
      obtain ⟨names, found, made⟩ := Option.bind_eq_some_iff.mp stepped
      cases made
      have given := labelled.contexts names (List.mem_of_getElem? found)
      exact ⟨labels, labelled.put
        (given.update fun pair member => given role pair ((Names.drop_sublist _ _).subset member))⟩
  | set context name v =>
      obtain ⟨names, found, written⟩ := Option.bind_eq_some_iff.mp stepped
      split at written
      next heap wrote =>
        cases written
        obtain ⟨reference, -, rfl⟩ := Option.map_eq_some_iff.mp wrote
        exact ⟨labels, labelled.mono (by simp) fun _ _ => rfl⟩
      next =>
        cases written
        exact ⟨labels, labelled⟩
  | get role context name =>
      obtain ⟨names, found, made⟩ := Option.bind_eq_some_iff.mp stepped
      cases made
      exact ⟨labels, labelled⟩
  | fork context =>
      obtain ⟨names, found, made⟩ := Option.bind_eq_some_iff.mp stepped
      cases made
      have given := labelled.contexts names (List.mem_of_getElem? found)
      have size : desk.world.length ≤ (desk.world ++ desk.world).length := by simp
      -- The copy of a reference is made for the binding that the reference was made for.
      let copied : Labels := fun reference =>
        labels (if reference < desk.world.length then reference else reference - desk.world.length)
      have same : ∀ reference < desk.world.length, copied reference = labels reference :=
        fun reference bound => by simp only [copied, if_pos bound]
      refine ⟨copied, (labelled.mono size same).put ?_⟩
      intro role pair member
      obtain ⟨⟨name, reference⟩, original, rfl⟩ := List.mem_map.mp member
      obtain ⟨bound, label⟩ := given role _ original
      refine ⟨by simpa using bound, ?_⟩
      have beyond : ¬ reference + desk.world.length < desk.world.length := by omega
      simp only [copied, if_neg beyond, Nat.add_sub_cancel]
      exact label
  | enter context =>
      obtain ⟨names, found, made⟩ := Option.bind_eq_some_iff.mp stepped
      cases made
      refine ⟨labels, labelled.contexts, ?_⟩
      intro others member
      rcases List.mem_append.mp member with older | newest
      · exact labelled.marks others older
      · cases List.mem_singleton.mp newest
        exact labelled.contexts names (List.mem_of_getElem? found)
  | restore mark =>
      obtain ⟨names, found, made⟩ := Option.bind_eq_some_iff.mp stepped
      cases made
      exact ⟨labels, labelled.put (labelled.marks names (List.mem_of_getElem? found))⟩

theorem run (actions : List Action) {answers : List Answer} {next : References}
    (labelled : desk.Labelled labels) (ran : references.run desk actions = some (answers, next)) :
    ∃ labels : Labels, next.Labelled labels := by
  refine Keeper.run_keeps (fun desk : References => ∃ labels : Labels, desk.Labelled labels) ?_ actions
    ⟨labels, labelled⟩ ran
  rintro desk next action answer ⟨labels, labelled⟩ stepped
  exact labelled.step stepped

theorem unique {one other : Names} (labelled : desk.Labelled labels)
    (oneMember : one ∈ desk.contexts) (otherMember : other ∈ desk.contexts) {role otherRole : Role}
    {name otherName : String} {reference : Nat}
    (found : Names.first? name (one role) = some reference)
    (otherFound : Names.first? otherName (other otherRole) = some reference) :
    role = otherRole ∧ name = otherName := by
  obtain ⟨-, label⟩ := labelled.contexts one oneMember role _ (Names.mem_of_first found)
  obtain ⟨-, otherLabel⟩ :=
    labelled.contexts other otherMember otherRole _ (Names.mem_of_first otherFound)
  exact Prod.ext_iff.mp (label.symm.trans otherLabel)

end References.Labelled

end Quantities.Store
