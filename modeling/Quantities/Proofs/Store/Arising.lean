import Mathlib.Data.List.Nodup
import Quantities.Proofs.Context.Stack
import Quantities.Proofs.Store.Refinement

/-!
Contexts that arise. However a careful user came to a context, its bindings lead to cells in use, and
no cell serves two bindings of values or a value and a type, in it or in a context that shares its
cells.
-/

namespace Quantities

namespace Store

/-- Each binding of a role has a reference of its own. -/
def Names.Distinct (names : Names) : Prop := ∀ role, ((names role).map (·.2)).Nodup

theorem Names.Distinct.update {names : Names} (distinct : names.Distinct) {role : Role}
    {pairs : List (String × Nat)} (changed : (pairs.map (·.2)).Nodup) :
    Names.Distinct (Function.update names role pairs) := by
  intro other
  by_cases same : other = role
  · subst same
    rwa [Function.update_self]
  · rw [Function.update_of_ne same]
    exact distinct other

/-- In all the contexts and marks made so far. -/
structure References.Distinct (desk : References) : Prop where
  contexts : ∀ names ∈ desk.contexts, names.Distinct
  marks : ∀ names ∈ desk.marks, names.Distinct

namespace References.Distinct

variable {desk next : References}

theorem put {heap : Heap} {names : Names} (distinct : desk.Distinct) (made : names.Distinct) :
    References.Distinct (desk.put (names, heap)) := by
  refine ⟨?_, distinct.marks⟩
  intro others member
  rcases List.mem_append.mp member with older | newest
  · exact distinct.contexts others older
  · cases List.mem_singleton.mp newest
    exact made

theorem step {labels : Labels} {answer : Answer} {action : Action} (distinct : desk.Distinct)
    (labelled : desk.Labelled labels)
    (stepped : references.step desk action = some (answer, next)) : next.Distinct := by
  cases action with
  | create =>
      cases stepped
      exact distinct.put fun _ => .nil
  | add role context name v =>
      obtain ⟨names, found, made⟩ := Option.bind_eq_some_iff.mp stepped
      cases made
      have member := List.mem_of_getElem? found
      refine distinct.put ((distinct.contexts names member).update ?_)
      refine List.nodup_cons.mpr ⟨?_, distinct.contexts names member role⟩
      intro used
      obtain ⟨pair, pairMember, same⟩ := List.mem_map.mp used
      have bound := (labelled.contexts names member role pair pairMember).1
      exact Nat.ne_of_lt bound same
  | delete role context name =>
      obtain ⟨names, found, made⟩ := Option.bind_eq_some_iff.mp stepped
      cases made
      have given := distinct.contexts names (List.mem_of_getElem? found)
      exact distinct.put (given.update ((given role).sublist ((Names.drop_sublist name _).map _)))
  | set context name v =>
      obtain ⟨names, found, written⟩ := Option.bind_eq_some_iff.mp stepped
      split at written <;> cases written <;> exact ⟨distinct.contexts, distinct.marks⟩
  | get role context name =>
      obtain ⟨names, found, made⟩ := Option.bind_eq_some_iff.mp stepped
      cases made
      exact distinct
  | fork context =>
      obtain ⟨names, found, made⟩ := Option.bind_eq_some_iff.mp stepped
      cases made
      refine distinct.put fun role => ?_
      have given := distinct.contexts names (List.mem_of_getElem? found) role
      have shift : Function.Injective (· + desk.world.length) := fun _ _ => Nat.add_right_cancel
      have shifted := List.Nodup.map shift given
      simpa [Function.comp_def] using shifted
  | enter context =>
      obtain ⟨names, found, made⟩ := Option.bind_eq_some_iff.mp stepped
      cases made
      refine ⟨distinct.contexts, ?_⟩
      intro others member
      rcases List.mem_append.mp member with older | newest
      · exact distinct.marks others older
      · cases List.mem_singleton.mp newest
        exact distinct.contexts names (List.mem_of_getElem? found)
  | restore mark =>
      obtain ⟨names, found, made⟩ := Option.bind_eq_some_iff.mp stepped
      cases made
      exact distinct.put (distinct.marks names (List.mem_of_getElem? found))

end References.Distinct

theorem References.exists_labels_distinct (actions : List Action) {answers : List Answer}
    {model : References} (ran : references.run ⟨[], [], []⟩ actions = some (answers, model)) :
    ∃ labels : Labels, model.Labelled labels ∧ model.Distinct := by
  refine Keeper.run_keeps
    (fun desk : References => ∃ labels : Labels, desk.Labelled labels ∧ desk.Distinct) ?_ actions
    ⟨fun _ => (.type, ""), .empty _, ⟨nofun, nofun⟩⟩ ran
  rintro desk next action answer ⟨labels, labelled, distinct⟩ stepped
  obtain ⟨others, labelledNext⟩ := labelled.step stepped
  exact ⟨others, labelledNext, distinct.step labelled stepped⟩

/-- A context of a desk that may still be used, with its arena. -/
def Usable (usage : Usage) (desk : Cells) (arena : Nat) (context : Context) : Prop :=
  ∃ number handle, usage.arena? number = some arena ∧ desk.contexts[number]? = some handle ∧
    context = desk.world.view handle

/-- The cells of a context stand for references, and its bindings are those that these were made
for. -/
structure Placed (known : List Nat) (labels : Labels) (context : Context) : Prop where
  size : context.cells.size = known.length
  label : ∀ role, ∀ binding ∈ bindings context.scope role, ∃ reference,
    known[binding.2]? = some reference ∧ labels reference = (role, binding.1)
  distinct : ∀ role, ((bindings context.scope role).map fun binding => known[binding.2]?).Nodup

theorem Linked.placed {links : Links} {usage : Usage} {desk : Cells} {model : References}
    (linked : Linked links usage desk model) {labels : Labels} (labelled : model.Labelled labels)
    (distinct : model.Distinct) {arena : Nat} {context : Context}
    (usable : Usable usage desk arena context) : Placed (links arena) labels context := by
  obtain ⟨number, handle, given, found, rfl⟩ := usable
  obtain ⟨-, other, names, foundAgain, modelFound, rfl, follows⟩ := linked.context given
  cases Option.some.inj (found.symm.trans foundAgain)
  have member := List.mem_of_getElem? modelFound
  refine ⟨linked.mirror.size _, ?_, ?_⟩
  · intro role binding bound
    obtain ⟨pair, pairMember, leads⟩ := Leads.exists_of_mem (follows role) bound
    rw [leads.name]
    exact ⟨pair.2, leads.reference, (labelled.contexts names member role pair pairMember).2⟩
  · intro role
    have references := List.Nodup.map (fun _ _ => Option.some.inj) (distinct.contexts names member role)
    rw [List.map_map] at references
    exact (Leads.map_reference (follows role)).symm ▸ references

namespace Placed

variable {known : List Nat} {labels : Labels} {context other : Context}

theorem lt_size (placed : Placed known labels context) (role : Role) {binding : String × Nat}
    (member : binding ∈ bindings context.scope role) : binding.2 < context.cells.size := by
  obtain ⟨reference, leads, -⟩ := placed.label role binding member
  rw [placed.size]
  exact (List.getElem?_eq_some_iff.mp leads).1

theorem apart (placed : Placed known labels context) (otherPlaced : Placed known labels other) :
    ∀ type ∈ other.scope.types, ∀ value ∈ context.scope.values, type.2 ≠ value.2 := by
  intro type typeMember value valueMember same
  obtain ⟨reference, leads, label⟩ := placed.label .value value valueMember
  obtain ⟨otherReference, otherLeads, otherLabel⟩ := otherPlaced.label .type type typeMember
  rw [same, leads] at otherLeads
  cases otherLeads
  cases label.symm.trans otherLabel

theorem wellFormed (placed : Placed known labels context) : context.WellFormed := by
  refine ⟨⟨fun _ => placed.lt_size .type, fun _ => placed.lt_size .value⟩, ?_, placed.apart placed⟩
  have references : ((context.scope.values.map (·.2)).map fun cell => known[cell]?).Nodup := by
    rw [List.map_map]
    exact placed.distinct .value
  exact references.of_map

end Placed

end Store

namespace Context

/-- A careful user can have both contexts at one time, and they share their cells. -/
def Shares (context other : Context) : Prop :=
  ∃ actions usage answers desk arena, Store.Usage.after? actions = some usage ∧
    Store.workspaces.run ⟨.empty, [], []⟩ actions = some (answers, desk) ∧
      Store.Usable usage desk arena context ∧ Store.Usable usage desk arena other

/-- A careful user can come to have the context. -/
def Arises (context : Context) : Prop := context.Shares context

variable {context other : Context}

theorem Shares.exists_placed (shares : context.Shares other) :
    ∃ known labels, Store.Placed known labels context ∧ Store.Placed known labels other := by
  obtain ⟨actions, usage, answers, desk, arena, careful, ran, usable, otherUsable⟩ := shares
  obtain ⟨_, _, model, links, ranAgain, modelRan, linked⟩ := Store.Linked.empty.run actions careful
  cases Option.some.inj (ran.symm.trans ranAgain)
  obtain ⟨labels, labelled, distinct⟩ := Store.References.exists_labels_distinct actions modelRan
  exact ⟨links arena, labels, linked.placed labelled distinct usable,
    linked.placed labelled distinct otherUsable⟩

theorem Shares.apart (shares : context.Shares other) :
    ∀ type ∈ other.scope.types, ∀ value ∈ context.scope.values, type.2 ≠ value.2 := by
  obtain ⟨known, labels, placed, otherPlaced⟩ := shares.exists_placed
  exact placed.apart otherPlaced

theorem Arises.wellFormed (arises : context.Arises) : context.WellFormed := by
  obtain ⟨known, labels, placed, -⟩ := arises.exists_placed
  exact placed.wellFormed

/-- The units of the prelude, each bound as a type and as a value in a context made from the last. -/
def preludeActions : List Store.Action :=
  let bind (context : Nat) (label : String) (unit : Measure) : List Store.Action :=
    [.add .type context label (.unitConstructor unit),
      .add .value (context + 1) label (.unitConstructor unit)]
  let derived (label base : String) (factor : Float) : Measure :=
    ⟨Dimensions.single label, Dimensions.single base, factor⟩
  .create :: (bind 0 "m" (.fresh "m") ++ bind 2 "s" (.fresh "s") ++
    bind 4 "km" (derived "km" "m" 1000) ++ bind 6 "min" (derived "min" "s" 60) ++
    bind 8 "h" (derived "h" "s" 3600))

theorem prelude_arises : prelude.Arises :=
  ⟨preludeActions, _, _, _, 0, rfl, rfl, ⟨10, _, rfl, rfl, rfl⟩, ⟨10, _, rfl, rfl, rfl⟩⟩

/-- A truth that can be assigned to. -/
def switch : Context := (empty.addValue "x" (.boolean false)).addType "x" .booleanType

theorem switch_arises : switch.Arises :=
  ⟨[.create, .add .value 0 "x" (.boolean false), .add .type 1 "x" .booleanType], _, _, _, 0, rfl, rfl,
    ⟨2, _, rfl, rfl, rfl⟩, ⟨2, _, rfl, rfl, rfl⟩⟩

end Context

end Quantities
