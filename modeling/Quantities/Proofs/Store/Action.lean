import Quantities.Context.Workspace

/-!
Contexts as their users see them. A user makes contexts and marks, names them by the order in which
they were made, and gets an answer to every action. What keeps the bindings can be the cells of a
workspace or anything else that offers the same operations.
-/

namespace Quantities.Store

/-- The two kinds of bindings, which are kept apart. -/
inductive Role where
  | type
  | value
deriving Repr, DecidableEq

inductive Action where
  | create
  | add (role : Role) (context : Nat) (name : String) (v : Value)
  | delete (role : Role) (context : Nat) (name : String)
  | set (context : Nat) (name : String) (v : Value)
  | get (role : Role) (context : Nat) (name : String)
  | fork (context : Nat)
  | enter (context : Nat)
  | restore (mark : Nat)
deriving Repr

inductive Answer where
  | done
  | refused
  | found (v : Option Value)
deriving Repr

/-- The operations on contexts. A context and a mark are given by what stands for them in a world
that all of them share. -/
structure Keeper (World Handle Mark : Type) where
  create : World → Handle × World
  add : Role → World → Handle → String → Value → Handle × World
  delete : Role → World → Handle → String → Handle × World
  set? : World → Handle → String → Value → Option World
  get? : Role → World → Handle → String → Option Value
  fork : World → Handle → Handle × World
  enter : World → Handle → Mark
  restore : World → Mark → Handle × World

/-- The world with all contexts and marks made so far, the oldest first. -/
structure Desk (World Handle Mark : Type) where
  world : World
  contexts : List Handle
  marks : List Mark

section

variable {World Handle Mark : Type}

/-- Keeps one more context. -/
def Desk.put (desk : Desk World Handle Mark) (made : Handle × World) : Desk World Handle Mark :=
  { desk with world := made.2, contexts := desk.contexts ++ [made.1] }

namespace Keeper

variable (keeper : Keeper World Handle Mark)

/-- What an action does. Nothing is said about a context or a mark that was never made. -/
def step (desk : Desk World Handle Mark) : Action → Option (Answer × Desk World Handle Mark)
  | .create => some (.done, desk.put (keeper.create desk.world))
  | .add role context name v => do
    let handle ← desk.contexts[context]?
    return (.done, desk.put (keeper.add role desk.world handle name v))
  | .delete role context name => do
    let handle ← desk.contexts[context]?
    return (.done, desk.put (keeper.delete role desk.world handle name))
  | .set context name v => do
    let handle ← desk.contexts[context]?
    match keeper.set? desk.world handle name v with
    | some world => return (.done, { desk with world })
    | none => return (.refused, desk)
  | .get role context name => do
    let handle ← desk.contexts[context]?
    return (.found (keeper.get? role desk.world handle name), desk)
  | .fork context => do
    let handle ← desk.contexts[context]?
    return (.done, desk.put (keeper.fork desk.world handle))
  | .enter context => do
    let handle ← desk.contexts[context]?
    return (.done, { desk with marks := desk.marks ++ [keeper.enter desk.world handle] })
  | .restore mark => do
    let mark ← desk.marks[mark]?
    return (.done, desk.put (keeper.restore desk.world mark))

def run (desk : Desk World Handle Mark) :
    List Action → Option (List Answer × Desk World Handle Mark)
  | [] => some ([], desk)
  | action :: rest => do
    let (answer, desk) ← keeper.step desk action
    let (answers, desk) ← run desk rest
    return (answer :: answers, desk)

variable {keeper}

theorem run_keeps (invariant : Desk World Handle Mark → Prop)
    (kept : ∀ {desk next action answer}, invariant desk →
      keeper.step desk action = some (answer, next) → invariant next)
    (actions : List Action) {desk next : Desk World Handle Mark} {answers : List Answer}
    (holds : invariant desk) (ran : keeper.run desk actions = some (answers, next)) :
    invariant next := by
  induction actions generalizing desk answers with
  | nil =>
      cases ran
      exact holds
  | cons action rest ih =>
      obtain ⟨⟨answer, middle⟩, stepped, ran⟩ := Option.bind_eq_some_iff.mp ran
      obtain ⟨⟨others, last⟩, ranRest, same⟩ := Option.bind_eq_some_iff.mp ran
      cases same
      exact ih (kept holds stepped) ranRest

end Keeper

end

/-- Contexts whose bindings lead to cells of a workspace. -/
def workspaces : Keeper Workspace Handle HandleMark where
  create workspace := workspace.add .empty
  add role workspace handle name v :=
    match role with
    | .type => workspace.update handle (·.addType name v)
    | .value => workspace.update handle (·.addValue name v)
  delete role workspace handle name :=
    match role with
    | .type => workspace.update handle (·.deleteType name)
    | .value => workspace.update handle (·.deleteValue name)
  set? := Workspace.setValue?
  get? role workspace handle name :=
    match role with
    | .type => (workspace.view handle).getType? name
    | .value => (workspace.view handle).getValue? name
  fork := Workspace.fork
  enter := Workspace.mark
  restore := Workspace.leave

end Quantities.Store
