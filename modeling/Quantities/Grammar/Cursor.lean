import Quantities.Problem
import Quantities.Token

/-!
Reading tokens from left to right. A successful reading says where it got to and that it took at
least one token, so a production that is repeated comes to an end.
-/

namespace Quantities

/-- What a production needs at the place where it fails. -/
inductive Wanted where
  | mark (sign : Mark)
  | endOfInput
  | expression
  | identifier
  | exponent
deriving Repr, DecidableEq

def Wanted.describe : Wanted → String
  | mark sign => quoted sign.text
  | endOfInput => "end of input"
  | expression => "expression"
  | identifier => "identifier"
  | exponent => "numeric exponent"

/-- Why a text is refused. Without a token the text has come to its end. -/
inductive ParseCause where
  | invalidCharacter
  | unexpected (wanted : Wanted) (found : Option TokenKind)
deriving Repr, DecidableEq

namespace ParseCause

/-- A character that begins no token is refused as such, whatever was wanted in its place. -/
def of (wanted : Wanted) : Option TokenKind → ParseCause
  | some .invalid => invalidCharacter
  | found => unexpected wanted found

def foundText : Option TokenKind → String
  | some kind => kind.describe
  | none => "end of input"

def message : ParseCause → String
  | invalidCharacter => "invalid character"
  | unexpected wanted found => "expected " ++ wanted.describe ++ ", found " ++ foundText found

def code : ParseCause → String
  | invalidCharacter => "E0001"
  | unexpected (.mark _) _ | unexpected .endOfInput _ => "E1001"
  | unexpected .expression _ | unexpected .exponent _ => "E1002"
  | unexpected .identifier _ => "E1003"

end ParseCause

structure ParseError where
  location : Location
  cause : ParseCause
deriving Repr, DecidableEq

def ParseError.diagnostic (error : ParseError) : Diagnostic :=
  ⟨error.cause.code, error.location, error.cause.message⟩

/-- The tokens still to be read, where the text ends, and where the last token read ends. -/
structure Cursor where
  rest : List Token
  finish : Location
  passed : Position
deriving Repr, DecidableEq

namespace Cursor

def ofTokens (tokens : Tokens) : Cursor := ⟨tokens.items, tokens.finish, ⟨1, 1, 0⟩⟩

def atEnd (c : Cursor) : Bool := c.rest.isEmpty

/-- The token to be read next. -/
def kind? (c : Cursor) : Option TokenKind := c.rest.head?.map (·.kind)

/-- The location of the next token, or the end of the text. -/
def location (c : Cursor) : Location :=
  match c.rest with
  | token :: _ => token.location
  | [] => c.finish

/-- The refusal of the next token. -/
def refuse (c : Cursor) (wanted : Wanted) : ParseError :=
  ⟨c.location, .of wanted c.kind?⟩

/-- The cursor behind a token. -/
def behind (c : Cursor) (token : Token) (rest : List Token) : Cursor :=
  { c with rest, passed := token.location.finish }

end Cursor

/-- A reading from a cursor: what was read, and the cursor behind it. -/
structure Parsed (α : Type) (c : Cursor) where
  value : α
  next : Cursor
  shorter : next.rest.length < c.rest.length

namespace Parsed

variable {α β γ : Type} {c : Cursor}

def map (f : α → β) (p : Parsed α c) : Parsed β c := { p with value := f p.value }

/-- Both readings, one after the other, with a value made of the two. -/
def followedBy (p : Parsed α c) (q : Parsed β p.next) (value : γ) : Parsed γ c :=
  ⟨value, q.next, Nat.lt_trans q.shorter p.shorter⟩

/-- The stretch from the next token of `c` to the last token read. -/
def location (p : Parsed α c) : Location := ⟨c.location.start, p.next.passed⟩

end Parsed

namespace Cursor

/-- Takes the next token if it is accepted. -/
def take? {α : Type} (c : Cursor) (accept : TokenKind → Option α) : Option (Parsed α c) :=
  match tokens : c.rest with
  | [] => none
  | token :: rest =>
    match accept token.kind with
    | some value => some ⟨value, c.behind token rest, by simp [behind, tokens]⟩
    | none => none

/-- Takes the next token, which must be accepted. -/
def need {α : Type} (c : Cursor) (wanted : Wanted) (accept : TokenKind → Option α) :
    Except ParseError (Parsed α c) :=
  match c.take? accept with
  | some p => .ok p
  | none => .error (c.refuse wanted)

def acceptMark (sign : Mark) : TokenKind → Option Unit
  | .mark other => if other = sign then some () else none
  | _ => none

def acceptKeyword (word : Keyword) : TokenKind → Option Unit
  | .keyword other => if other = word then some () else none
  | _ => none

def acceptName : TokenKind → Option String
  | .name text => some text
  | _ => none

def acceptNumber : TokenKind → Option Float
  | .number x => some x
  | _ => none

def takeMark? (c : Cursor) (sign : Mark) : Option (Parsed Unit c) := c.take? (acceptMark sign)

def needMark (c : Cursor) (sign : Mark) : Except ParseError (Parsed Unit c) :=
  c.need (.mark sign) (acceptMark sign)

def needName (c : Cursor) : Except ParseError (Parsed String c) := c.need .identifier acceptName

end Cursor

end Quantities
