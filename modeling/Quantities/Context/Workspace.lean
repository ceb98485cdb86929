import Quantities.Context

/-!
Several contexts alive at once. Contexts made from one another share one store of cells, so that
an assignment through one is seen through the others that have the same binding. A fork has a
store of its own.
-/

namespace Quantities

/-- A context in a workspace: the store it shares, and its bindings. -/
structure Handle where
  store : Nat
  scope : Scope
deriving Repr, DecidableEq

/-- The mark of a nested scope in a store. -/
structure HandleMark where
  store : Nat
  mark : ScopeMark
deriving Repr, DecidableEq

structure Workspace where
  stores : Array (Array Value)
deriving Repr

namespace Workspace

def empty : Workspace := ⟨#[]⟩

/-- The context that a handle stands for at present. -/
def view (workspace : Workspace) (handle : Handle) : Context :=
  ⟨workspace.stores.getD handle.store #[], handle.scope⟩

/-- Makes a context with a new store out of another one, whose store it copies. -/
def add (workspace : Workspace) (context : Context) : Handle × Workspace :=
  (⟨workspace.stores.size, context.scope⟩, ⟨workspace.stores.push context.cells⟩)

def fork (workspace : Workspace) (handle : Handle) : Handle × Workspace :=
  workspace.add (workspace.view handle)

/-- Makes a context out of another one and lets them share the store. -/
def update (workspace : Workspace) (handle : Handle) (change : Context → Context) :
    Handle × Workspace :=
  let context := change (workspace.view handle)
  (⟨handle.store, context.scope⟩, ⟨workspace.stores.setIfInBounds handle.store context.cells⟩)

/-- Writes to the cell of a name, for all contexts that share it. -/
def setValue? (workspace : Workspace) (handle : Handle) (name : String) (v : Value) :
    Option Workspace := do
  let context ← (workspace.view handle).setValue? name v
  return ⟨workspace.stores.setIfInBounds handle.store context.cells⟩

def mark (workspace : Workspace) (handle : Handle) : HandleMark :=
  ⟨handle.store, (workspace.view handle).mark⟩

/-- The context in which a nested scope began. The cells made since then are dropped. -/
def leave (workspace : Workspace) (mark : HandleMark) : Handle × Workspace :=
  workspace.update ⟨mark.store, mark.mark.scope⟩ (·.leave mark.mark)

end Workspace

end Quantities
