/-!
Dimension vectors: labels with real exponents. A label that is absent has exponent zero, so no zero
is ever stored, and the entries are kept in the order of their labels.
-/

namespace Quantities

structure Dimensions where
  entries : List (String × Float)
deriving Repr

namespace Dimensions

/-- The dimension of a plain number. -/
def scalar : Dimensions := ⟨[]⟩

def isScalar (dims : Dimensions) : Bool := dims.entries.isEmpty

/-- The exponents agree entry by entry. An exponent that is not a number agrees with none. -/
instance : BEq Dimensions := ⟨fun left right => left.entries == right.entries⟩

def get (dims : Dimensions) (label : String) : Float :=
  (dims.entries.lookup label).getD 0

/-- Puts an entry in its place, over an older one with the same label. -/
def insert (label : String) (exponent : Float) : List (String × Float) → List (String × Float)
  | [] => [(label, exponent)]
  | (other, old) :: rest =>
    if label = other then (label, exponent) :: rest
    else if label < other then (label, exponent) :: (other, old) :: rest
    else (other, old) :: insert label exponent rest

def erase (label : String) (entries : List (String × Float)) : List (String × Float) :=
  entries.filter fun entry => entry.1 != label

def set (dims : Dimensions) (label : String) (exponent : Float) : Dimensions :=
  if exponent == 0 then ⟨erase label dims.entries⟩ else ⟨insert label exponent dims.entries⟩

/-- Raises the exponent of one label. -/
def add (dims : Dimensions) (label : String) (exponent : Float) : Dimensions :=
  dims.set label (dims.get label + exponent)

/-- The dimension of a unit that is its own base. -/
def single (label : String) : Dimensions := scalar.set label 1

/-- Sums the entries from left to right. -/
def ofList (entries : List (String × Float)) : Dimensions :=
  entries.foldl (fun dims entry => dims.add entry.1 entry.2) scalar

def power (dims : Dimensions) (n : Float) : Dimensions :=
  ofList (dims.entries.map fun entry => (entry.1, entry.2 * n))

/-- Adds the other exponents, each taken `sign` times. -/
def combine (sign : Float) (left right : Dimensions) : Dimensions :=
  right.entries.foldl (fun dims entry => dims.add entry.1 (sign * entry.2)) left

def times (left right : Dimensions) : Dimensions := combine 1 left right

def divide (left right : Dimensions) : Dimensions := combine (-1) left right

end Dimensions

end Quantities
