import Mathlib.Data.List.Forall2
import Quantities.Proofs.Store.Mirror
import Quantities.Proofs.Store.Usage

/-!
Bindings to cells and bindings to references. As long as a context may be used, its bindings lead to
cells that stand for the references that the same names are bound to. What stands under a scope lies
in cells made before it, so that leaving it takes nothing away.
-/

namespace Quantities.Store

/-- The bindings of a scope by their role. -/
def bindings (scope : Scope) : Role → List (String × Nat)
  | .type => scope.types
  | .value => scope.values

/-- A name that is bound to a cell and to the reference that the cell stands for. -/
structure Leads (known : List Nat) (binding pair : String × Nat) : Prop where
  name : binding.1 = pair.1
  reference : known[binding.2]? = some pair.2

namespace Leads

variable {known : List Nat} {bindings pairs : List (String × Nat)}

theorem lookup (leads : List.Forall₂ (Leads known) bindings pairs) (name : String) :
    bindings.lookup name = none ∧ Names.first? name pairs = none ∨
      ∃ cell reference, bindings.lookup name = some cell ∧
        Names.first? name pairs = some reference ∧ known[cell]? = some reference := by
  induction leads with
  | nil => exact .inl ⟨rfl, rfl⟩
  | @cons binding pair older olderPairs newest rest ih =>
      obtain ⟨label, cell⟩ := binding
      obtain ⟨pairLabel, reference⟩ := pair
      obtain ⟨rfl, leads⟩ := newest
      rw [Scope.lookup_cons, Names.first?]
      split
      next => exact .inr ⟨cell, reference, rfl, rfl, leads⟩
      next => exact ih

theorem drop (leads : List.Forall₂ (Leads known) bindings pairs) (name : String) :
    List.Forall₂ (Leads known) (Scope.uncover name bindings) (Names.drop name pairs) := by
  induction leads with
  | nil => exact .nil
  | @cons binding pair older olderPairs newest rest ih =>
      obtain ⟨label, cell⟩ := binding
      obtain ⟨pairLabel, reference⟩ := pair
      obtain ⟨rfl, leads⟩ := newest
      rw [Names.drop, Scope.uncover, List.eraseP_cons]
      by_cases here : name = label
      · simp only [here, beq_self_eq_true, if_true]
        exact rest
      · simp only [if_neg here, beq_eq_false_iff_ne.mpr (Ne.symm here)]
        exact .cons ⟨rfl, leads⟩ ih

theorem exists_of_mem (leads : List.Forall₂ (Leads known) bindings pairs) {binding : String × Nat}
    (member : binding ∈ bindings) : ∃ pair ∈ pairs, Leads known binding pair := by
  induction leads with
  | nil => cases member
  | cons newest rest ih =>
      rcases List.mem_cons.mp member with rfl | older
      · exact ⟨_, List.mem_cons_self, newest⟩
      · obtain ⟨pair, pairMember, leads⟩ := ih older
        exact ⟨pair, List.mem_cons_of_mem _ pairMember, leads⟩

theorem map_reference (leads : List.Forall₂ (Leads known) bindings pairs) :
    (bindings.map fun binding => known[binding.2]?) = pairs.map fun pair => some pair.2 := by
  induction leads with
  | nil => rfl
  | cons newest rest ih => rw [List.map_cons, List.map_cons, newest.reference, ih]

end Leads

/-- The same names in the same order for each role. -/
def Follows (known : List Nat) (bound : Role → List (String × Nat)) (names : Names) : Prop :=
  ∀ role, List.Forall₂ (Leads known) (bound role) (names role)

namespace Follows

variable {known more : List Nat} {bound : Role → List (String × Nat)} {names : Names}

theorem of_prefix (follows : Follows known bound names) (start : known <+: more) :
    Follows more bound names := by
  obtain ⟨rest, rfl⟩ := start
  refine fun role => (follows role).imp fun binding pair leads => ⟨leads.name, ?_⟩
  have inside := (List.getElem?_eq_some_iff.mp leads.reference).1
  rw [List.getElem?_append_left inside]
  exact leads.reference

theorem update (follows : Follows known bound names) {role : Role}
    {bindings pairs : List (String × Nat)} (changed : List.Forall₂ (Leads known) bindings pairs) :
    Follows known (Function.update bound role bindings) (Function.update names role pairs) := by
  intro other
  by_cases same : other = role
  · subst same
    rw [Function.update_self, Function.update_self]
    exact changed
  · rw [Function.update_of_ne same, Function.update_of_ne same]
    exact follows other

theorem shift (follows : Follows known bound names) (distance : Nat) :
    Follows (known.map (· + distance)) bound
      fun role => (names role).map fun (name, reference) => (name, reference + distance) := by
  intro role
  rw [List.forall₂_map_right_iff]
  refine (follows role).imp fun binding pair leads => ⟨leads.name, ?_⟩
  rw [List.getElem?_map, leads.reference]
  rfl

end Follows

/-- The desk of contexts with cells. -/
abbrev Cells : Type := Desk Workspace Handle HandleMark

/-- A context of an arena, whose bindings lead to known cells. -/
def Tied (desk : Cells) (model : References) (known : List Nat) (context arena : Nat) : Prop :=
  ∃ handle names, desk.contexts[context]? = some handle ∧ model.contexts[context]? = some names ∧
    handle.store = arena ∧ Follows known (bindings handle.scope) names

/-- How many cells there were when a scope began. -/
def floor (marks : List HandleMark) (mark : Nat) : Nat :=
  (marks[mark]?.map fun kept => kept.mark.size).getD 0

/-- A scope that may be left. What was made in its arena before it needs the cells under it only. -/
structure Entered (desk : Cells) (model : References) (usage : Usage) (known : List Nat)
    (mark : Nat) (entry : Entry) : Prop where
  tied : ∃ kept names, desk.marks[mark]? = some kept ∧ model.marks[mark]? = some names ∧
    kept.store = entry.arena ∧
      Follows (known.take (floor desk.marks mark)) (bindings kept.mark.scope) names
  floor : floor desk.marks mark ≤ known.length
  since : entry.since ≤ usage.contexts.length
  contexts : ∀ {context}, usage.arena? context = some entry.arena → context < entry.since →
    Tied desk model (known.take (Store.floor desk.marks mark)) context entry.arena
  marks : ∀ {older outer}, usage.scope? older = some outer → outer.arena = entry.arena →
    older < mark → Store.floor desk.marks older ≤ Store.floor desk.marks mark

structure Linked (links : Links) (usage : Usage) (desk : Cells) (model : References) : Prop where
  mirror : Mirror links desk.world model.world
  arenas : usage.arenas = desk.world.stores.size
  contexts : desk.contexts.length = usage.contexts.length
  modelContexts : model.contexts.length = usage.contexts.length
  marks : desk.marks.length = usage.marks.length
  modelMarks : model.marks.length = usage.marks.length
  context : ∀ {context arena}, usage.arena? context = some arena →
    arena < usage.arenas ∧ Tied desk model (links arena) context arena
  mark : ∀ {mark entry}, usage.scope? mark = some entry →
    entry.arena < usage.arenas ∧ Entered desk model usage (links entry.arena) mark entry

theorem Tied.put {desk : Cells} {model : References} {known : List Nat} {context arena : Nat}
    (tied : Tied desk model known context arena) (made : Handle × Workspace)
    (modelled : Names × Heap) : Tied (desk.put made) (model.put modelled) known context arena := by
  obtain ⟨handle, names, found, modelFound, store, follows⟩ := tied
  have inside := (List.getElem?_eq_some_iff.mp found).1
  have modelInside := (List.getElem?_eq_some_iff.mp modelFound).1
  refine ⟨handle, names, ?_, ?_, store, follows⟩
  · exact (List.getElem?_append_left inside).trans found
  · exact (List.getElem?_append_left modelInside).trans modelFound

namespace Linked

variable {links : Links} {usage : Usage} {desk : Cells} {model : References}

theorem empty : Linked (fun _ => []) .empty ⟨.empty, [], []⟩ ⟨[], [], []⟩ :=
  ⟨.empty, rfl, rfl, rfl, rfl, rfl, nofun, nofun⟩

theorem grow (linked : Linked links usage desk model) {larger : Links} {workspace : Workspace}
    {heap : Heap} {arenas : Nat} (mirror : Mirror larger workspace heap)
    (arenasMade : arenas = workspace.stores.size) (size : usage.arenas ≤ arenas)
    (more : ∀ arena, links arena <+: larger arena) :
    Linked larger { usage with arenas } { desk with world := workspace }
      { model with world := heap } := by
  refine ⟨mirror, arenasMade, linked.contexts, linked.modelContexts, linked.marks, linked.modelMarks,
    ?_, ?_⟩
  · intro context arena usable
    obtain ⟨made, handle, names, found, modelFound, store, follows⟩ := linked.context usable
    exact ⟨Nat.lt_of_lt_of_le made size, handle, names, found, modelFound, store,
      follows.of_prefix (more arena)⟩
  · intro mark entry usable
    obtain ⟨made, entered⟩ := linked.mark usable
    obtain ⟨rest, longer⟩ := more entry.arena
    have under : (larger entry.arena).take (floor desk.marks mark) =
        (links entry.arena).take (floor desk.marks mark) := by
      rw [← longer, List.take_append_of_le_length entered.floor]
    refine ⟨Nat.lt_of_lt_of_le made size, ?_, ?_, entered.since, ?_, entered.marks⟩
    · rw [under]
      exact entered.tied
    · exact Nat.le_trans entered.floor (more entry.arena).length_le
    · rw [under]
      exact entered.contexts

theorem put (linked : Linked links usage desk model) (handle : Handle) {names : Names}
    (made : handle.store < usage.arenas)
    (follows : Follows (links handle.store) (bindings handle.scope) names) :
    Linked links (usage.allow handle.store) (desk.put (handle, desk.world))
      (model.put (names, model.world)) := by
  have contexts : (desk.put (handle, desk.world)).contexts.length =
      (usage.allow handle.store).contexts.length := by
    simp [Desk.put, Usage.allow, linked.contexts]
  have modelContexts : (model.put (names, model.world)).contexts.length =
      (usage.allow handle.store).contexts.length := by
    simp [Desk.put, Usage.allow, linked.modelContexts]
  refine ⟨linked.mirror, linked.arenas, contexts, modelContexts, linked.marks, linked.modelMarks,
    ?_, ?_⟩
  · intro context arena usable
    rcases Usage.arena_allow_eq_some.mp usable with older | ⟨rfl, rfl⟩
    · obtain ⟨bound, tied⟩ := linked.context older
      exact ⟨bound, tied.put _ _⟩
    · refine ⟨made, handle, names, ?_, ?_, rfl, follows⟩
      · rw [← linked.contexts]
        exact List.getElem?_concat_length
      · rw [← linked.modelContexts]
        exact List.getElem?_concat_length
  · intro mark entry usable
    obtain ⟨bound, entered⟩ := linked.mark usable
    refine ⟨bound, entered.tied, entered.floor, ?_, ?_, entered.marks⟩
    · exact Nat.le_trans entered.since (by simp [Usage.allow])
    · intro context usable before
      rcases Usage.arena_allow_eq_some.mp usable with older | ⟨rfl, -⟩
      · exact (entered.contexts older before).put _ _
      · exact absurd (Nat.lt_of_lt_of_le before entered.since) (Nat.lt_irrefl _)

theorem make (linked : Linked links usage desk model) {larger : Links} {workspace : Workspace}
    {heap : Heap} {arenas : Nat} (handle : Handle) {names : Names}
    (mirror : Mirror larger workspace heap) (arenasMade : arenas = workspace.stores.size)
    (size : usage.arenas ≤ arenas) (more : ∀ arena, links arena <+: larger arena)
    (made : handle.store < arenas)
    (follows : Follows (larger handle.store) (bindings handle.scope) names) :
    Linked larger { usage.allow handle.store with arenas } (desk.put (handle, workspace))
      (model.put (names, heap)) :=
  (linked.grow mirror arenasMade size more).put handle made follows

theorem enter (linked : Linked links usage desk model) {context arena : Nat} {handle : Handle}
    {names : Names} (usable : usage.arena? context = some arena)
    (found : desk.contexts[context]? = some handle)
    (modelFound : model.contexts[context]? = some names) :
    Linked links { usage with marks := usage.marks ++ [some ⟨arena, usage.contexts.length⟩] }
      { desk with marks := desk.marks ++ [desk.world.mark handle] }
      { model with marks := model.marks ++ [names] } := by
  refine ⟨linked.mirror, linked.arenas, linked.contexts, linked.modelContexts,
    by simp [linked.marks], by simp [linked.modelMarks], linked.context, ?_⟩
  have floorOlder {older : Nat} (before : older < desk.marks.length) :
      floor (desk.marks ++ [desk.world.mark handle]) older =
        floor desk.marks older := by
    simp only [floor]
    rw [List.getElem?_append_left before]
  -- A scope that may be left is an older one, or it is the one that is entered.
  have split {mark : Nat} {entry : Entry}
      (usable : Usage.scope?
        { usage with marks := usage.marks ++ [some ⟨arena, usage.contexts.length⟩] } mark =
          some entry) :
      usage.scope? mark = some entry ∧ mark < desk.marks.length ∨
        mark = desk.marks.length ∧ entry = ⟨arena, usage.contexts.length⟩ := by
    rw [linked.marks]
    rw [Usage.scope?, Option.join_eq_some_iff, List.getElem?_append] at usable
    split at usable
    next inside => exact .inl ⟨Option.join_eq_some_iff.mpr usable, inside⟩
    next beyond =>
      obtain ⟨inside, same⟩ := List.getElem?_eq_some_iff.mp usable
      simp only [List.length_singleton] at inside
      simp only [List.getElem_singleton] at same
      exact .inr ⟨by omega, (Option.some.inj same).symm⟩
  intro mark entry newUsable
  rcases split newUsable with ⟨older, inside⟩ | ⟨rfl, rfl⟩
  · obtain ⟨bound, entered⟩ := linked.mark older
    refine ⟨bound, ?_, ?_, entered.since, ?_, ?_⟩
    · obtain ⟨kept, names, found, modelFound, store, follows⟩ := entered.tied
      have modelInside := (List.getElem?_eq_some_iff.mp modelFound).1
      refine ⟨kept, names, (List.getElem?_append_left inside).trans found,
        (List.getElem?_append_left modelInside).trans modelFound, store, ?_⟩
      rw [floorOlder inside]
      exact follows
    · rw [floorOlder inside]
      exact entered.floor
    · rw [floorOlder inside]
      exact entered.contexts
    · intro under outer outerUsable same before
      rw [floorOlder inside, floorOlder (Nat.lt_trans before inside)]
      rcases split outerUsable with ⟨underOlder, -⟩ | ⟨rfl, -⟩
      · exact entered.marks underOlder same before
      · exact absurd (Nat.lt_trans before inside) (Nat.lt_irrefl _)
  · obtain ⟨bound, handle', names', found', modelFound', store, follows⟩ := linked.context usable
    cases Option.some.inj (found.symm.trans found')
    cases Option.some.inj (modelFound.symm.trans modelFound')
    have whole : floor (desk.marks ++ [desk.world.mark handle])
        desk.marks.length = (links arena).length := by
      rw [floor, List.getElem?_concat_length, ← store, ← linked.mirror.size]
      rfl
    refine ⟨bound, ?_, ?_, Nat.le_refl _, ?_, ?_⟩
    · refine ⟨desk.world.mark handle, names, List.getElem?_concat_length, ?_, store, ?_⟩
      · rw [linked.marks, ← linked.modelMarks]
        exact List.getElem?_concat_length
      · rw [whole, List.take_length]
        exact follows
    · exact Nat.le_of_eq whole
    · intro other otherUsable _
      rw [whole, List.take_length]
      exact (linked.context otherUsable).2
    · intro under outer outerUsable same before
      rw [whole, floorOlder before]
      rcases split outerUsable with ⟨underOlder, -⟩ | ⟨rfl, -⟩
      · have floor := (linked.mark underOlder).2.floor
        rw [same] at floor
        exact floor
      · exact absurd before (Nat.lt_irrefl _)

/-- What is still used after a scope has been left does not miss the cells of the scope. -/
theorem leave (linked : Linked links usage desk model) {mark : Nat} {entry : Entry}
    (usable : usage.scope? mark = some entry) :
    Linked (Function.update links entry.arena ((links entry.arena).take (floor desk.marks mark)))
      (usage.leave mark entry)
      { desk with world := ⟨desk.world.stores.setIfInBounds entry.arena
        ((desk.world.stores.getD entry.arena #[]).take (floor desk.marks mark))⟩ } model := by
  obtain ⟨made, entered⟩ := linked.mark usable
  refine ⟨linked.mirror.take (linked.arenas ▸ made) _, ?_, ?_, ?_, ?_, ?_, ?_, ?_⟩
  · simpa [Usage.leave] using linked.arenas
  · simpa [Usage.leave] using linked.contexts
  · simpa [Usage.leave] using linked.modelContexts
  · simpa [Usage.leave] using linked.marks
  · simpa [Usage.leave] using linked.modelMarks
  · intro context arena stays
    obtain ⟨before, outside⟩ := Usage.arena_leave_eq_some.mp stays
    obtain ⟨bound, tied⟩ := linked.context before
    refine ⟨bound, ?_⟩
    by_cases same : arena = entry.arena
    · subst same
      rw [Function.update_self]
      exact entered.contexts before (outside.resolve_left (· rfl))
    · rw [Function.update_of_ne same]
      exact tied
  · intro other outer stays
    obtain ⟨before, outside⟩ := Usage.scope_leave_eq_some.mp stays
    obtain ⟨bound, outerEntered⟩ := linked.mark before
    refine ⟨bound, ?_⟩
    have known : floor desk.marks other ≤ (Function.update links entry.arena
          ((links entry.arena).take (floor desk.marks mark)) outer.arena).length ∧
        (Function.update links entry.arena
          ((links entry.arena).take (floor desk.marks mark)) outer.arena).take (floor desk.marks other) =
            (links outer.arena).take (floor desk.marks other) := by
      by_cases same : outer.arena = entry.arena
      · have under := entered.marks before same (outside.resolve_left (· same))
        have enough := outerEntered.floor
        rw [same, Function.update_self, List.length_take, List.take_take, Nat.min_eq_left under]
        rw [same] at enough
        exact ⟨by omega, rfl⟩
      · rw [Function.update_of_ne same]
        exact ⟨outerEntered.floor, rfl⟩
    refine ⟨?_, known.1, ?_, ?_, ?_⟩
    · rw [known.2]
      exact outerEntered.tied
    · simpa [Usage.leave] using outerEntered.since
    · intro context stays before
      rw [known.2]
      exact outerEntered.contexts (Usage.arena_leave_eq_some.mp stays).1 before
    · intro older under stays same before
      exact outerEntered.marks (Usage.scope_leave_eq_some.mp stays).1 same before

end Linked

end Quantities.Store
