import Quantities.Number
import Quantities.Source.Location

/-!
The tokens of a source text: numbers, names, reserved words, marks, and characters that begin no
token. The end of the text is not a token, but it has a location.
-/

namespace Quantities

inductive Keyword where
  | true
  | false
  | boolean
  | scalar
  | var
  | let
  | unit
  | as
  | if
  | else
  | while
deriving Repr, DecidableEq

namespace Keyword

def text : Keyword → String
  | .true => "true"
  | .false => "false"
  | .boolean => "boolean"
  | .scalar => "scalar"
  | .var => "var"
  | .let => "let"
  | .unit => "unit"
  | .as => "as"
  | .if => "if"
  | .else => "else"
  | .while => "while"

def all : List Keyword :=
  [.true, .false, .boolean, .scalar, .var, .let, .unit, .as, .if, .else, .while]

def ofText? (text : String) : Option Keyword := all.find? (·.text == text)

end Keyword

inductive Mark where
  | assign
  | equalEqual
  | notEqual
  | atMost
  | atLeast
  | and
  | or
  | leftParen
  | rightParen
  | leftBrace
  | rightBrace
  | semicolon
  | colon
  | equal
  | bang
  | less
  | greater
  | caret
  | plus
  | minus
  | star
  | slash
  | percent
deriving Repr, DecidableEq

namespace Mark

def text : Mark → String
  | .assign => ":="
  | .equalEqual => "=="
  | .notEqual => "!="
  | .atMost => "<="
  | .atLeast => ">="
  | .and => "&&"
  | .or => "||"
  | .leftParen => "("
  | .rightParen => ")"
  | .leftBrace => "\x7b"
  | .rightBrace => "\x7d"
  | .semicolon => ";"
  | .colon => ":"
  | .equal => "="
  | .bang => "!"
  | .less => "<"
  | .greater => ">"
  | .caret => "^"
  | .plus => "+"
  | .minus => "-"
  | .star => "*"
  | .slash => "/"
  | .percent => "%"

/-- All marks, those of two characters first. -/
def all : List Mark :=
  [.assign, .equalEqual, .notEqual, .atMost, .atLeast, .and, .or, .leftParen, .rightParen,
    .leftBrace, .rightBrace, .semicolon, .colon, .equal, .bang, .less, .greater, .caret, .plus,
    .minus, .star, .slash, .percent]

end Mark

inductive TokenKind where
  | number (x : Float)
  | name (text : String)
  | keyword (word : Keyword)
  | mark (sign : Mark)
  | invalid
deriving Repr, DecidableEq

/-- The text with a quotation mark on either side, as messages name a token. -/
def quoted (text : String) : String := "`" ++ text ++ "`"

namespace TokenKind

/-- How messages name a token. A number too large to be held is named `inf`. -/
def describe : TokenKind → String
  | .number x => "number " ++ quoted (if x.isInf then "inf" else Number.text x)
  | .name text => "identifier " ++ quoted text
  | .keyword word => quoted word.text
  | .mark sign => quoted sign.text
  | .invalid => "invalid character"

end TokenKind

structure Token where
  kind : TokenKind
  location : Location
deriving Repr, DecidableEq

/-- The tokens of a text in order, and the place where the text ends. -/
structure Tokens where
  items : List Token
  finish : Location
deriving Repr, DecidableEq

end Quantities
