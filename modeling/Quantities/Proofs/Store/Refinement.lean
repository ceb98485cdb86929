import Quantities.Proofs.Store.Linked

/-!
Contexts refine references. As long as their users take care, contexts with cells give the answers
that contexts with references give, although cells are dropped and made again.
-/

namespace Quantities.Store

section Operations

variable {links : Links} {workspace : Workspace} {heap : Heap} {handle : Handle} {names : Names}

theorem bindings_add (role : Role) (workspace : Workspace) (handle : Handle) (name : String)
    (v : Value) : ∃ scope,
      workspaces.add role workspace handle name v = (⟨handle.store, scope⟩,
        ⟨workspace.stores.setIfInBounds handle.store
          ((workspace.stores.getD handle.store #[]).push v)⟩) ∧
      bindings scope = Function.update (bindings handle.scope) role
        ((name, (workspace.stores.getD handle.store #[]).size) :: bindings handle.scope role) := by
  cases role with
  | type =>
      refine ⟨_, rfl, funext fun other => ?_⟩
      cases other <;> rfl
  | value =>
      refine ⟨_, rfl, funext fun other => ?_⟩
      cases other <;> rfl

theorem bindings_delete (role : Role) (made : handle.store < workspace.stores.size)
    (name : String) : ∃ scope,
      workspaces.delete role workspace handle name = (⟨handle.store, scope⟩, workspace) ∧
      bindings scope = Function.update (bindings handle.scope) role
        (Scope.uncover name (bindings handle.scope role)) := by
  have same : workspace.stores.setIfInBounds handle.store
      (workspace.stores.getD handle.store #[]) = workspace.stores := by
    apply Array.ext_getElem?
    intro store
    rw [Array.getElem?_setIfInBounds]
    split
    next here =>
      subst here
      simp [made]
    next => rfl
  cases role with
  | type =>
      refine ⟨_, Prod.ext rfl (congrArg Workspace.mk same), funext fun other => ?_⟩
      cases other <;> rfl
  | value =>
      refine ⟨_, Prod.ext rfl (congrArg Workspace.mk same), funext fun other => ?_⟩
      cases other <;> rfl

theorem get_eq_bind (role : Role) (workspace : Workspace) (handle : Handle) (name : String) :
    workspaces.get? role workspace handle name =
      ((bindings handle.scope role).lookup name).bind fun cell =>
        (workspace.stores.getD handle.store #[])[cell]? := by
  cases role <;> rfl

theorem get_eq (mirror : Mirror links workspace heap)
    (follows : Follows (links handle.store) (bindings handle.scope) names) (role : Role)
    (name : String) :
    workspaces.get? role workspace handle name = references.get? role heap names name := by
  rw [get_eq_bind]
  rcases Leads.lookup (follows role) name with
    ⟨found, modelFound⟩ | ⟨cell, reference, found, modelFound, leads⟩
  · simp [references, found, modelFound]
  · obtain ⟨v, inUse, held⟩ := mirror.read leads
    simp only [references, found, modelFound, Option.bind_some]
    exact inUse.trans held.symm

theorem set_mirrors (mirror : Mirror links workspace heap)
    (follows : Follows (links handle.store) (bindings handle.scope) names)
    (made : handle.store < workspace.stores.size) (name : String) (v : Value) :
    workspace.setValue? handle name v = none ∧ references.set? heap names name v = none ∨
      ∃ written reference, workspace.setValue? handle name v = some written ∧
        Names.first? name (names .value) = some reference ∧
        Mirror links written (heap.set reference v) ∧
        written.stores.size = workspace.stores.size := by
  rcases Leads.lookup (follows .value) name with
    ⟨found, modelFound⟩ | ⟨cell, reference, found, modelFound, leads⟩
  · refine .inl ⟨?_, by simp [references, modelFound]⟩
    simp only [bindings] at found
    simp [Workspace.setValue?, Context.setValue?, Workspace.view, found]
  · refine .inr ⟨_, reference, ?_, modelFound, mirror.write made leads v, by simp⟩
    simp only [bindings] at found
    simp [Workspace.setValue?, Context.setValue?, Workspace.view, found]

theorem prefix_update {arena : Nat} {known : List Nat} (longer : links arena <+: known)
    (other : Nat) : links other <+: Function.update links arena known other := by
  by_cases same : other = arena
  · subst same
    rw [Function.update_self]
    exact longer
  · exact ⟨[], by rw [List.append_nil, Function.update_of_ne same]⟩

end Operations

namespace Linked

variable {links : Links} {usage next : Usage} {desk : Cells} {model : References} {handle : Handle}
  {names : Names}

theorem create (linked : Linked links usage desk model) :
    Linked links usage.widen (desk.put (workspaces.create desk.world))
      (model.put (references.create model.world)) := by
  have size : usage.arenas + 1 = (desk.world.stores.push #[]).size := by simp [linked.arenas]
  have none : Follows (links usage.arenas) (bindings .empty) fun _ => [] :=
    fun role => by cases role <;> exact .nil
  have made := linked.make ⟨usage.arenas, .empty⟩ linked.mirror.create size (Nat.le_succ _)
    (fun _ => List.prefix_rfl) (Nat.lt_succ_self _) none
  rw [linked.arenas] at made
  simp only [Usage.widen]
  rw [linked.arenas]
  exact made

theorem add (linked : Linked links usage desk model) (bound : handle.store < usage.arenas)
    (follows : Follows (links handle.store) (bindings handle.scope) names) (role : Role)
    (name : String) (v : Value) : ∃ larger,
      Linked larger (usage.allow handle.store)
        (desk.put (workspaces.add role desk.world handle name v))
        (model.put (references.add role model.world names name v)) := by
  obtain ⟨scope, added, bindingsAdded⟩ := bindings_add role desk.world handle name v
  rw [added]
  have mirror := linked.mirror.push (linked.arenas ▸ bound) v
  have size : usage.arenas = (desk.world.stores.setIfInBounds handle.store
      ((desk.world.stores.getD handle.store #[]).push v)).size := by
    rw [Array.size_setIfInBounds]
    exact linked.arenas
  let larger := Function.update links handle.store (links handle.store ++ [model.world.length])
  have here : larger handle.store = links handle.store ++ [model.world.length] :=
    Function.update_self ..
  have more (arena : Nat) : links arena <+: larger arena :=
    prefix_update (List.prefix_append _ _) arena
  refine ⟨larger, linked.make ⟨handle.store, scope⟩ mirror size (Nat.le_refl _) more
    bound ?_⟩
  have older := follows.of_prefix (more handle.store)
  rw [bindingsAdded, linked.mirror.size]
  refine older.update (.cons ⟨rfl, ?_⟩ (older role))
  rw [here]
  exact List.getElem?_concat_length

theorem delete (linked : Linked links usage desk model) (bound : handle.store < usage.arenas)
    (follows : Follows (links handle.store) (bindings handle.scope) names) (role : Role)
    (name : String) :
    Linked links (usage.allow handle.store)
      (desk.put (workspaces.delete role desk.world handle name))
      (model.put (references.delete role model.world names name)) := by
  obtain ⟨scope, deleted, bindingsDeleted⟩ :=
    bindings_delete role (linked.arenas ▸ bound : handle.store < desk.world.stores.size) name
  rw [deleted]
  refine linked.put ⟨handle.store, scope⟩ bound ?_
  rw [bindingsDeleted]
  exact follows.update (Leads.drop (follows role) name)

theorem fork (linked : Linked links usage desk model)
    (follows : Follows (links handle.store) (bindings handle.scope) names) : ∃ larger,
      Linked larger usage.widen (desk.put (workspaces.fork desk.world handle))
        (model.put (references.fork model.world names)) := by
  have mirror := linked.mirror.copy handle.store
  have size : usage.arenas + 1 =
      (desk.world.stores.push (desk.world.stores.getD handle.store #[])).size := by
    simp [linked.arenas]
  let larger := Function.update links desk.world.stores.size
    ((links handle.store).map (· + model.world.length))
  have here : larger usage.arenas = (links handle.store).map (· + model.world.length) := by
    rw [linked.arenas]
    exact Function.update_self ..
  have unknown : links desk.world.stores.size = [] := linked.mirror.links_eq_nil (Nat.le_refl _)
  have more (arena : Nat) : links arena <+: larger arena :=
    prefix_update (unknown ▸ List.nil_prefix) arena
  have made := linked.make ⟨usage.arenas, handle.scope⟩ mirror size (Nat.le_succ _) more
    (Nat.lt_succ_self _) (here.symm ▸ follows.shift model.world.length)
  rw [linked.arenas] at made
  refine ⟨larger, ?_⟩
  simp only [Usage.widen]
  rw [linked.arenas]
  exact made

theorem restore (linked : Linked links usage desk model) {mark : Nat} {entry : Entry}
    (usable : usage.scope? mark = some entry) : ∃ larger kept names,
      desk.marks[mark]? = some kept ∧ model.marks[mark]? = some names ∧
      Linked larger ((usage.leave mark entry).allow entry.arena)
        (desk.put (workspaces.restore desk.world kept))
        (model.put (references.restore model.world names)) := by
  obtain ⟨arena, since⟩ := entry
  obtain ⟨made, entered⟩ := linked.mark usable
  obtain ⟨kept, names, found, modelFound, store, follows⟩ := entered.tied
  obtain rfl : kept.store = arena := store
  have size : floor desk.marks mark = kept.mark.size := by
    rw [floor, found]
    rfl
  have left := linked.leave usable
  rw [size] at left follows
  have known : Function.update links kept.store ((links kept.store).take kept.mark.size)
      kept.store = (links kept.store).take kept.mark.size := Function.update_self ..
  exact ⟨_, kept, names, found, modelFound,
    left.put ⟨kept.store, kept.mark.scope⟩ made (known.symm ▸ follows)⟩

/-- One action: both give the same answer and stay linked. -/
theorem step (linked : Linked links usage desk model) {action : Action}
    (careful : usage.step action = some next) :
    ∃ answer after modelAfter larger, workspaces.step desk action = some (answer, after) ∧
      references.step model action = some (answer, modelAfter) ∧
      Linked larger next after modelAfter := by
  cases action with
  | create =>
      cases careful
      exact ⟨_, _, _, _, rfl, rfl, linked.create⟩
  | add role context name v =>
      obtain ⟨arena, usable, allowed⟩ := Option.bind_eq_some_iff.mp careful
      cases allowed
      obtain ⟨bound, handle, names, found, modelFound, rfl, follows⟩ := linked.context usable
      obtain ⟨larger, made⟩ := linked.add bound follows role name v
      exact ⟨.done, _, _, larger, by simp [Keeper.step, found], by simp [Keeper.step, modelFound],
        made⟩
  | delete role context name =>
      obtain ⟨arena, usable, allowed⟩ := Option.bind_eq_some_iff.mp careful
      cases allowed
      obtain ⟨bound, handle, names, found, modelFound, rfl, follows⟩ := linked.context usable
      exact ⟨.done, _, _, links, by simp [Keeper.step, found], by simp [Keeper.step, modelFound],
        linked.delete bound follows role name⟩
  | set context name v =>
      obtain ⟨arena, usable, same⟩ := Option.bind_eq_some_iff.mp careful
      cases same
      obtain ⟨bound, handle, names, found, modelFound, rfl, follows⟩ := linked.context usable
      rcases set_mirrors linked.mirror follows (linked.arenas ▸ bound) name v with
        ⟨refused, modelRefused⟩ | ⟨written, reference, wrote, first, mirror, size⟩
      · have refused : workspaces.set? desk.world handle name v = none := refused
        exact ⟨.refused, _, _, links, by simp [Keeper.step, found, refused],
          by simp [Keeper.step, modelFound, modelRefused], linked⟩
      · have wrote : workspaces.set? desk.world handle name v = some written := wrote
        have modelWrote : references.set? model.world names name v =
            some (model.world.set reference v) := by simp [references, first]
        exact ⟨.done, _, _, links, by simp [Keeper.step, found, wrote],
          by simp [Keeper.step, modelFound, modelWrote],
          linked.grow mirror (linked.arenas.trans size.symm) (Nat.le_refl _)
            fun _ => List.prefix_rfl⟩
  | get role context name =>
      obtain ⟨arena, usable, same⟩ := Option.bind_eq_some_iff.mp careful
      cases same
      obtain ⟨bound, handle, names, found, modelFound, rfl, follows⟩ := linked.context usable
      have answers := get_eq linked.mirror follows role name
      exact ⟨.found (references.get? role model.world names name), desk, model, links,
        by simp [Keeper.step, found, answers], by simp [Keeper.step, modelFound], linked⟩
  | fork context =>
      obtain ⟨arena, usable, allowed⟩ := Option.bind_eq_some_iff.mp careful
      cases allowed
      obtain ⟨bound, handle, names, found, modelFound, rfl, follows⟩ := linked.context usable
      obtain ⟨larger, made⟩ := linked.fork follows
      exact ⟨.done, _, _, larger, by simp [Keeper.step, found], by simp [Keeper.step, modelFound],
        made⟩
  | enter context =>
      obtain ⟨arena, usable, allowed⟩ := Option.bind_eq_some_iff.mp careful
      cases allowed
      obtain ⟨bound, handle, names, found, modelFound, -⟩ := linked.context usable
      exact ⟨.done, _, _, links, by simp [Keeper.step, found]; rfl,
        by simp [Keeper.step, modelFound]; rfl, linked.enter usable found modelFound⟩
  | restore mark =>
      obtain ⟨entry, usable, allowed⟩ := Option.bind_eq_some_iff.mp careful
      cases allowed
      obtain ⟨larger, kept, names, found, modelFound, left⟩ := linked.restore usable
      exact ⟨.done, _, _, larger, by simp [Keeper.step, found], by simp [Keeper.step, modelFound],
        left⟩

theorem run (actions : List Action) (linked : Linked links usage desk model)
    (careful : actions.foldlM Usage.step usage = some next) :
    ∃ answers after modelAfter larger, workspaces.run desk actions = some (answers, after) ∧
      references.run model actions = some (answers, modelAfter) ∧
      Linked larger next after modelAfter := by
  induction actions generalizing links usage desk model with
  | nil =>
      cases careful
      exact ⟨[], desk, model, links, rfl, rfl, linked⟩
  | cons action rest ih =>
      rw [List.foldlM_cons] at careful
      obtain ⟨between, first, carefulRest⟩ := Option.bind_eq_some_iff.mp careful
      obtain ⟨answer, middle, modelMiddle, grown, stepped, modelStepped, linkedMiddle⟩ :=
        linked.step first
      obtain ⟨answers, after, modelAfter, larger, ran, modelRan, linkedAfter⟩ :=
        ih linkedMiddle carefulRest
      exact ⟨answer :: answers, after, modelAfter, larger, by simp [Keeper.run, stepped, ran],
        by simp [Keeper.run, modelStepped, modelRan], linkedAfter⟩

end Linked

end Quantities.Store
