import Quantities.Source.Location

/-! The table that turns byte offsets of a source text into lines and columns. -/

namespace Quantities

/-- The number of bytes that the characters take up. -/
def byteCount (characters : List Char) : Nat :=
  characters.foldr (fun c count => c.utf8Size + count) 0

/-- The offsets at which lines begin, and the size of the text. -/
structure LineTable where
  starts : List Nat
  size : Nat
deriving Repr

namespace LineTable

/-- A line begins after each line feed. The offset is that of the first character. -/
def startsAfter (offset : Nat) : List Char → List Nat
  | [] => []
  | c :: rest =>
    let next := offset + c.utf8Size
    if c = '\n' then next :: startsAfter next rest else startsAfter next rest

def ofCharacters (characters : List Char) : LineTable :=
  ⟨0 :: startsAfter 0 characters, byteCount characters⟩

def ofSource (source : String) : LineTable := ofCharacters source.toList

/-- The position of an offset. An offset past the end counts as the end. -/
def position (table : LineTable) (offset : Nat) : Position :=
  let offset := min offset table.size
  let begun := table.starts.takeWhile (· ≤ offset)
  ⟨begun.length, offset - begun.getLastD 0 + 1, offset⟩

def location (table : LineTable) (start finish : Nat) : Location :=
  ⟨table.position start, table.position finish⟩

end LineTable

end Quantities
