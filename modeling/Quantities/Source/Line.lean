import Quantities.Text.Cut

/-!
The lines of a text as a report shows them. Each keeps its terminator, and there is no empty line
after the last terminator. Offsets count characters.
-/

namespace Quantities

/-- The number of characters before a line, and the characters of it. -/
structure Line where
  start : Nat
  characters : List Char
deriving Repr, DecidableEq

namespace Line

def isTerminator (c : Char) : Bool :=
  ('\n' ≤ c && c ≤ '\r') || c == '\u0085' || c == '\u2028' || c == '\u2029'

/-- A carriage return with a line feed after it does not end the line yet. -/
def endsLine (c : Char) (rest : List Char) : Bool :=
  isTerminator c && !(c == '\r' && rest.head? == some '\n')

/-- Gives each piece the number of characters before it. -/
def place (start : Nat) : List (List Char) → List Line
  | [] => []
  | characters :: rest => ⟨start, characters⟩ :: place (start + characters.length) rest

def ofCharacters (characters : List Char) : List Line := place 0 (Text.cutAfter endsLine characters)

def finish (line : Line) : Nat := line.start + line.characters.length

/-- The index of the line that a character is on, or the last line for the end of the text. -/
def find? (lines : List Line) (offset : Nat) : Option Nat :=
  match lines.getLast? with
  | none => none
  | some last =>
    if offset ≤ last.finish then some ((lines.takeWhile (·.start ≤ offset)).length - 1) else none

end Line

end Quantities
