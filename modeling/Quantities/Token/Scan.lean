import Quantities.Source.LineTable
import Quantities.Token

/-!
Splitting a source text into tokens. Each token is the longest that begins where the last one, and
the blanks and comments after it, left off. A character that begins no token is an invalid token
of its own.
-/

namespace Quantities

/-- Blanks and word characters are ASCII only. -/
def isBlank (c : Char) : Bool :=
  c == ' ' || c == '\t' || c == '\r' || c == '\n' || c == '\x0c'

def isWordStart (c : Char) : Bool := c.isAlpha || c == '_'

def isWordPart (c : Char) : Bool := c.isAlphanum || c == '_'

/-- A word is a keyword if it can be. -/
def TokenKind.ofWord (word : List Char) : TokenKind :=
  match Keyword.ofText? (String.ofList word) with
  | some reserved => .keyword reserved
  | none => .name (String.ofList word)

/-- The first mark that the text begins with. Long marks come before the short ones in them. -/
def Mark.atStart? (text : List Char) : Option Mark :=
  Mark.all.find? fun mark => mark.text.toList.isPrefixOf text

/-- The kind of the token that begins with `c`, and the number of characters in it after `c`. -/
def TokenKind.atStart (c : Char) (rest : List Char) : TokenKind × Nat :=
  if Literal.isDigit c then
    let literal := (Literal.take (c :: rest)).1
    (.number literal.value, literal.text.length - 1)
  else if isWordStart c then
    let more := rest.takeWhile isWordPart
    (.ofWord (c :: more), more.length)
  else
    match Mark.atStart? (c :: rest) with
    | some sign => (.mark sign, sign.text.length - 1)
    | none => (.invalid, 0)

/-- A token before its place is turned into lines and columns. -/
structure Lexeme where
  kind : TokenKind
  start : Nat
  text : List Char
deriving Repr, DecidableEq

namespace Lexeme

def finish (lexeme : Lexeme) : Nat := lexeme.start + byteCount lexeme.text

/-- A comment runs from two slashes to the end of the line. -/
def startsComment (text : List Char) : Bool := ['/', '/'].isPrefixOf text

/-- The lexemes of a text whose first character is at `offset`. -/
def scanFrom (offset : Nat) : List Char → List Lexeme
  | [] => []
  | c :: rest =>
    if isBlank c then scanFrom (offset + c.utf8Size) rest
    else if startsComment (c :: rest) then
      let comment := rest.takeWhile (· != '\n')
      scanFrom (offset + byteCount (c :: comment)) (rest.drop comment.length)
    else
      let (kind, more) := TokenKind.atStart c rest
      let lexeme : Lexeme := ⟨kind, offset, c :: rest.take more⟩
      lexeme :: scanFrom lexeme.finish (rest.drop more)
termination_by text => text.length
decreasing_by all_goals (simp only [List.length_cons, List.length_drop]; omega)

end Lexeme

namespace Tokens

def ofLexemes (table : LineTable) (lexemes : List Lexeme) : Tokens where
  items := lexemes.map fun lexeme => ⟨lexeme.kind, table.location lexeme.start lexeme.finish⟩
  finish := table.location table.size table.size

def ofSource (source : String) : Tokens :=
  ofLexemes (LineTable.ofSource source) (Lexeme.scanFrom 0 source.toList)

end Tokens

end Quantities
