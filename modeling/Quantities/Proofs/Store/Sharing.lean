import Quantities.Proofs.Store.Refinement

/-!
What the users of contexts can rely on: the answers are those of references, and an assignment
reaches the contexts with the same binding and nothing else.
-/

namespace Quantities.Store

/-- A context that may be used, with its arena, its bindings to cells and its bindings to
references. -/
structure InUse (usage : Usage) (desk : Cells) (model : References) (context arena : Nat)
    (handle : Handle) (names : Names) : Prop where
  usable : usage.arena? context = some arena
  handle : desk.contexts[context]? = some handle
  names : model.contexts[context]? = some names

/-- What a context sees of a write through another one: before it and after it. -/
structure Seen (name : String) (v : Value) (arena : Nat) (names : Names) (otherArena : Nat)
    (otherNames : Names) (before after : Context) : Prop where
  /-- The write is seen where the same binding is the first of the name. -/
  shared : after.getValue? name =
    if Names.first? name (otherNames .value) = Names.first? name (names .value) then some v
    else before.getValue? name
  /-- It does not reach the values of other names. -/
  names : ∀ other, other ≠ name → after.getValue? other = before.getValue? other
  /-- It does not reach the types. -/
  types : ∀ other, after.getType? other = before.getType? other
  /-- It does not reach another arena. -/
  arenas : arena ≠ otherArena → after = before

structure Isolated (usage : Usage) (desk : Cells) (model : References) : Prop where
  /-- Every lookup hits a cell in use. -/
  allocated : ∀ {context arena handle names}, InUse usage desk model context arena handle names →
    ∀ {role name cell}, (bindings handle.scope role).lookup name = some cell →
      cell < (desk.world.view handle).cells.size
  seen : ∀ {writer arena handle names}, InUse usage desk model writer arena handle names →
    ∀ {reader otherArena other otherNames},
      InUse usage desk model reader otherArena other otherNames →
    ∀ {name v written}, desk.world.setValue? handle name v = some written →
      Seen name v arena names otherArena otherNames (desk.world.view other) (written.view other)
  /-- The next fork has an arena that no context has had. -/
  fresh : ∀ {context arena handle names}, InUse usage desk model context arena handle names →
    arena < usage.arenas

theorem references_get_set {heap : Heap} {reference : Nat} (bound : reference < heap.length)
    (role : Role) (names : Names) (name : String) (v : Value) :
    references.get? role (heap.set reference v) names name =
      if Names.first? name (names role) = some reference then some v
      else references.get? role heap names name := by
  simp only [references]
  cases found : Names.first? name (names role) with
  | none => rfl
  | some other =>
      rw [Option.bind_some, Option.bind_some, List.getElem?_set]
      by_cases same : reference = other
      · rw [if_pos same, if_pos bound, if_pos (congrArg some same.symm)]
      · rw [if_neg same, if_neg fun both => same (Option.some.inj both).symm]

namespace Linked

variable {links : Links} {usage : Usage} {desk : Cells} {model : References}
  {context arena : Nat} {handle : Handle} {names : Names}

theorem inUse (linked : Linked links usage desk model)
    (inUse : InUse usage desk model context arena handle names) :
    arena < usage.arenas ∧ handle.store = arena ∧
      Follows (links handle.store) (bindings handle.scope) names := by
  obtain ⟨bound, handle', names', found, modelFound, store, follows⟩ :=
    linked.context inUse.usable
  cases Option.some.inj (inUse.handle.symm.trans found)
  cases Option.some.inj (inUse.names.symm.trans modelFound)
  exact ⟨bound, store, store ▸ follows⟩

/-- A write is seen wherever a name leads to the same reference. -/
theorem get_written (linked : Linked links usage desk model)
    (writer : InUse usage desk model context arena handle names) {reader otherArena : Nat}
    {other : Handle} {otherNames : Names}
    (reads : InUse usage desk model reader otherArena other otherNames) {name : String} {v : Value}
    {written : Workspace} (wrote : desk.world.setValue? handle name v = some written) :
    ∃ reference, Names.first? name (names .value) = some reference ∧ ∀ role otherName,
      workspaces.get? role written other otherName =
        if Names.first? otherName (otherNames role) = some reference then some v
        else workspaces.get? role desk.world other otherName := by
  obtain ⟨bound, rfl, follows⟩ := linked.inUse writer
  obtain ⟨-, -, otherFollows⟩ := linked.inUse reads
  rcases set_mirrors linked.mirror follows (linked.arenas ▸ bound) name v with
    ⟨refused, -⟩ | ⟨written', reference, wrote', first, mirror, -⟩
  · cases wrote.symm.trans refused
  · cases Option.some.inj (wrote.symm.trans wrote')
    refine ⟨reference, first, fun role otherName => ?_⟩
    have held : reference < model.world.length := by
      rcases Leads.lookup (follows .value) name with ⟨-, absent⟩ | ⟨cell, target, -, found, leads⟩
      · cases first.symm.trans absent
      · cases Option.some.inj (first.symm.trans found)
        exact linked.mirror.lt_of_leads leads
    rw [get_eq mirror otherFollows, get_eq linked.mirror otherFollows, references_get_set held]

theorem allocated (linked : Linked links usage desk model)
    (inUse : InUse usage desk model context arena handle names) {role : Role} {name : String}
    {cell : Nat} (found : (bindings handle.scope role).lookup name = some cell) :
    cell < (desk.world.view handle).cells.size := by
  obtain ⟨-, -, follows⟩ := linked.inUse inUse
  rcases Leads.lookup (follows role) name with ⟨absent, -⟩ | ⟨place, reference, same, -, leads⟩
  · cases found.symm.trans absent
  · cases Option.some.inj (found.symm.trans same)
    have inside := (List.getElem?_eq_some_iff.mp leads).1
    rw [← linked.mirror.size] at inside
    exact inside

theorem seen (linked : Linked links usage desk model) {labels : Labels}
    (labelled : model.Labelled labels)
    (writes : InUse usage desk model context arena handle names) {reader otherArena : Nat}
    {other : Handle} {otherNames : Names}
    (reads : InUse usage desk model reader otherArena other otherNames) {name : String} {v : Value}
    {written : Workspace} (wrote : desk.world.setValue? handle name v = some written) :
    Seen name v arena names otherArena otherNames (desk.world.view other) (written.view other) := by
  obtain ⟨reference, first, seen⟩ := linked.get_written writes reads wrote
  have only {role : Role} {otherName : String}
      (found : Names.first? otherName (otherNames role) = some reference) :
      role = .value ∧ otherName = name :=
    labelled.unique (List.mem_of_getElem? reads.names) (List.mem_of_getElem? writes.names)
      found first
  refine ⟨?_, ?_, ?_, ?_⟩
  · rw [first]
    exact seen .value name
  · intro otherName differs
    exact (seen .value otherName).trans (if_neg fun found => differs (only found).2)
  · intro otherName
    refine (seen .type otherName).trans (if_neg fun found => ?_)
    cases (only found).1
  · intro apart
    obtain ⟨-, rfl, -⟩ := linked.inUse writes
    obtain ⟨-, rfl, -⟩ := linked.inUse reads
    obtain ⟨context, -, same⟩ := Option.bind_eq_some_iff.mp wrote
    cases same
    simp only [Workspace.view, Array.getD_eq_getD_getElem?]
    rw [Array.getElem?_setIfInBounds_ne apart]

end Linked

theorem contexts_refine_references {actions : List Action} {usage : Usage}
    (careful : Usage.after? actions = some usage) :
    ∃ answers desk model, workspaces.run ⟨.empty, [], []⟩ actions = some (answers, desk) ∧
      references.run ⟨[], [], []⟩ actions = some (answers, model) ∧ Isolated usage desk model := by
  obtain ⟨answers, desk, model, links, ran, modelRan, linked⟩ := Linked.empty.run actions careful
  obtain ⟨labels, labelled⟩ := (References.Labelled.empty fun _ => (.type, "")).run actions modelRan
  exact ⟨answers, desk, model, ran, modelRan, linked.allocated, linked.seen labelled,
    fun inUse => (linked.inUse inUse).1⟩

/-- A name is hidden in a nested scope and assigned to there, through a fork too. After the scope
has been left its cells are used again. -/
def excursion : List Action :=
  [.create, .add .value 0 "x" (.boolean false), .enter 1, .add .value 1 "x" .booleanType,
    .set 2 "x" (.boolean true), .fork 2, .delete .value 3 "x", .set 4 "x" (.boolean true),
    .set 1 "x" .booleanConstructor, .restore 0, .add .type 5 "x" .booleanType,
    .get .value 6 "x", .get .value 4 "x", .get .value 3 "x", .get .type 6 "x",
    .set 6 "y" .booleanType]

theorem excursion_refines_references :
    Usage.after? excursion =
        some ⟨2, [some 0, some 0, none, some 1, some 1, some 0, some 0], [none]⟩ ∧
      ∃ answers desk model, workspaces.run ⟨.empty, [], []⟩ excursion = some (answers, desk) ∧
        references.run ⟨[], [], []⟩ excursion = some (answers, model) ∧
        Isolated ⟨2, [some 0, some 0, none, some 1, some 1, some 0, some 0], [none]⟩ desk model :=
  ⟨rfl, contexts_refine_references rfl⟩

example : (workspaces.run ⟨.empty, [], []⟩ excursion).map (·.1.drop 11) =
    some [.found (some .booleanConstructor), .found (some (.boolean true)),
      .found (some (.boolean true)), .found (some .booleanType), .refused] := rfl

end Quantities.Store
