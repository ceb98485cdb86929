/-!
Places in a source text. Lines and columns count from one, offsets from zero, and columns and
offsets count bytes.
-/

namespace Quantities

structure Position where
  line : Nat
  column : Nat
  offset : Nat
deriving Repr, DecidableEq

def Position.text (p : Position) : String := toString p.line ++ ":" ++ toString p.column

/-- The stretch of text that a token or a node covers. -/
structure Location where
  start : Position
  finish : Position
deriving Repr, DecidableEq

namespace Location

/-- The location of what has no source. -/
def nowhere : Location := ⟨⟨0, 0, 0⟩, ⟨0, 0, 0⟩⟩

/-- The smallest location that covers both. -/
def merge (left right : Location) : Location where
  start := if right.start.offset < left.start.offset then right.start else left.start
  finish := if left.finish.offset < right.finish.offset then right.finish else left.finish

def text (location : Location) : String :=
  location.start.text ++ " - " ++ location.finish.text

end Location

end Quantities
