import Quantities.Problem
import Quantities.Source.Line
import Quantities.Source.LineTable
import Quantities.Text.Width

/-!
Reports: a diagnostic drawn with the lines that it is about. A stretch within one line is
underlined, and one over several lines has a bar at its left side.
-/

namespace Quantities

/-- The stretch of a source that a report marks, within the bounds of the source. Locations count
bytes, but the drawing takes their offsets as numbers of characters, so that after characters of
several bytes it stands too far to the right. -/
structure Stretch where
  start : Nat
  finish : Nat
deriving Repr, DecidableEq

namespace Stretch

def ofLocation (size : Nat) (location : Location) : Stretch :=
  let start := min location.start.offset size
  ⟨start, max (min location.finish.offset size) start⟩

/-- The last character in it, or the one after the place of an empty stretch. -/
def last (stretch : Stretch) : Nat := max (stretch.finish - 1) stretch.start

def contains (stretch : Stretch) (offset : Nat) : Bool :=
  stretch.start ≤ offset && offset < stretch.finish

end Stretch

namespace Line

def drawn (line : Line) : String := String.ofList (Text.drawn line.characters)

/-- The columns of the first characters of a line. -/
def columnsUpTo (line : Line) (count : Nat) : Nat :=
  (Text.widths line.characters count).foldl (· + ·) 0

/-- A row under the first characters of a line. Each has a sign, which is drawn in its first
column, and a second one, drawn in the columns that are left. -/
def signs (line : Line) (count : Nat) (sign : Nat → Char × Char) : String :=
  String.ofList ((Text.widths line.characters count).zipIdx.flatMap fun (width, index) =>
    let (first, other) := sign index
    (first :: List.replicate (width - 1) other).take width)

end Line

namespace Report

def repeated (c : Char) (count : Nat) : String := String.ofList (List.replicate count c)

/-- The room for line numbers of so many digits. -/
def gutter (digits : Nat) : String := repeated ' ' (digits + 2)

def unnumbered (digits : Nat) (text : String) : String := gutter digits ++ "│ " ++ text

/-- A row with the number of the line at an index. -/
def numbered (digits index : Nat) (text : String) : String :=
  let number := toString (index + 1)
  " " ++ repeated ' ' (digits - number.length) ++ number ++ " │ " ++ text

def title (diagnostic : Diagnostic) : String :=
  "[" ++ diagnostic.code ++ "] Error: " ++ diagnostic.message

/-- The place where the stretch begins, as line and column. -/
def heading (digits line column : Nat) : String :=
  gutter digits ++ "╭─[<unknown>:" ++ toString line ++ ":" ++ toString column ++ "]"

/-- The rows for a stretch within one line, which is underlined and labelled at its middle. -/
def underlined (digits index : Nat) (line : Line) (stretch : Stretch) (message : String) :
    List String :=
  if line.finish < stretch.finish then [unnumbered digits ""]
  else
    let middle := (stretch.start + stretch.finish) / 2 - line.start
    let count := stretch.finish - line.start + 2
    let underline (i : Nat) : Char × Char :=
      match i == middle, stretch.contains (line.start + i) with
      | true, true => ('┬', '─')
      | true, false => ('│', ' ')
      | false, true => ('─', '─')
      | false, false => (' ', ' ')
    let pointer (i : Nat) : Char × Char :=
      if i < middle then (' ', ' ') else if i = middle then ('╰', '─') else ('─', '─')
    [numbered digits index line.drawn, unnumbered digits (line.signs count underline),
      unnumbered digits (line.signs count pointer ++ " " ++ message)]

/-- The rows for the lines after the first one of a stretch. Only the line on which it ends is
shown, and the first of the others stands for all of them. -/
def continued (digits last : Nat) (message : String) (elided : Bool) :
    List (Line × Nat) → List String
  | [] => []
  | (line, index) :: rest =>
    if line.start ≤ last && last < line.finish then
      let width := line.columnsUpTo (line.characters.length + 2)
      numbered digits index ("├─▶ " ++ line.drawn) ::
        unnumbered digits ("│   " ++ repeated ' ' width) ::
        unnumbered digits ("╰───" ++ repeated '─' width ++ " " ++ message) ::
        continued digits last message elided rest
    else if elided then continued digits last message elided rest
    else (gutter digits ++ "┆ ┆   ") :: continued digits last message true rest

/-- The rows for a stretch over several lines. -/
def barred (digits last : Nat) (message : String) : List (Line × Nat) → List String
  | [] => []
  | (line, index) :: rest =>
    numbered digits index ("╭─▶ " ++ line.drawn) :: continued digits last message false rest

/-- The rows below the title, unless the stretch is on no line. -/
def body (lines : List Line) (stretch : Stretch) (message : String) : List String :=
  match Line.find? lines stretch.start, Line.find? lines stretch.last with
  | some first, some last =>
    match (lines.zipIdx.take (last + 1)).drop first with
    | [] => []
    | (line, index) :: rest =>
      let digits := (toString (last + 1)).length
      [heading digits (index + 1) (stretch.start - line.start + 1), gutter digits ++ "│"] ++
        (if rest.isEmpty then underlined digits index line stretch message
          else barred digits stretch.last message ((line, index) :: rest)) ++
        [repeated '─' (digits + 2) ++ "╯"]
  | _, _ => []

end Report

/-- The rows of the report on a diagnostic of a source. -/
def Diagnostic.rows (source : String) (diagnostic : Diagnostic) : List String :=
  let characters := source.toList
  let stretch := Stretch.ofLocation (byteCount characters) diagnostic.location
  Report.title diagnostic ::
    Report.body (Line.ofCharacters characters) stretch diagnostic.message

def Diagnostic.report (source : String) (diagnostic : Diagnostic) : String :=
  String.join ((diagnostic.rows source).map (· ++ "\n"))

end Quantities
