import Quantities.Value

/-!
Bindings. Names lead to cells, and cells hold values. Types and values are bound apart from each
other, the newest binding of a name hides the older ones, and an assignment writes to the cell, so
that it is seen through every scope with that binding.
-/

namespace Quantities

/-- The bindings of names to cells, the newest first. -/
structure Scope where
  types : List (String × Nat)
  values : List (String × Nat)
deriving Repr, DecidableEq

namespace Scope

def empty : Scope := ⟨[], []⟩

/-- Drops the newest binding of a name and uncovers the one before it. -/
def uncover (name : String) (bindings : List (String × Nat)) : List (String × Nat) :=
  bindings.eraseP fun binding => binding.1 == name

end Scope

/-- The cells in use, and the bindings that are in scope. -/
structure Context where
  cells : Array Value
  scope : Scope
deriving Repr

/-- What to return to when a nested scope is left. -/
structure ScopeMark where
  scope : Scope
  size : Nat
deriving Repr, DecidableEq

namespace Context

def empty : Context := ⟨#[], Scope.empty⟩

def getType? (context : Context) (name : String) : Option Value := do
  context.cells[← context.scope.types.lookup name]?

def getValue? (context : Context) (name : String) : Option Value := do
  context.cells[← context.scope.values.lookup name]?

/-- Binds a type to a name, in a new cell. -/
def addType (context : Context) (name : String) (type : Value) : Context where
  cells := context.cells.push type
  scope := { context.scope with types := (name, context.cells.size) :: context.scope.types }

/-- Binds a value to a name, in a new cell. -/
def addValue (context : Context) (name : String) (v : Value) : Context where
  cells := context.cells.push v
  scope := { context.scope with values := (name, context.cells.size) :: context.scope.values }

def deleteType (context : Context) (name : String) : Context :=
  { context with
    scope := { context.scope with types := Scope.uncover name context.scope.types } }

def deleteValue (context : Context) (name : String) : Context :=
  { context with
    scope := { context.scope with values := Scope.uncover name context.scope.values } }

/-- Writes to the cell that the name leads to. A name without a value cannot be written. -/
def setValue? (context : Context) (name : String) (v : Value) : Option Context := do
  let cell ← context.scope.values.lookup name
  return { context with cells := context.cells.setIfInBounds cell v }

/-- The mark of a nested scope that begins here. -/
def mark (context : Context) : ScopeMark := ⟨context.scope, context.cells.size⟩

/-- Leaves a nested scope. Its bindings go, and so do the cells made since it began. -/
def leave (context : Context) (mark : ScopeMark) : Context :=
  ⟨context.cells.take mark.size, mark.scope⟩

end Context

/-- The units at hand in a new session: metres, seconds, kilometres, minutes and hours. -/
def Context.prelude : Context :=
  let derived (label base : String) (factor : Float) : Measure :=
    ⟨Dimensions.single label, Dimensions.single base, factor⟩
  let units := [("m", Measure.fresh "m"), ("s", Measure.fresh "s"),
    ("km", derived "km" "m" 1000), ("min", derived "min" "s" 60), ("h", derived "h" "s" 3600)]
  units.foldl (fun context (name, unit) =>
    (context.addType name (.unitConstructor unit)).addValue name (.unitConstructor unit)) empty

end Quantities
