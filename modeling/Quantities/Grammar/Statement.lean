import Quantities.Grammar.Expression
import Quantities.Token.Scan

/-!
The productions for statements and programs. A statement that ends in an expression or a name is
closed by a semicolon, which may be left out at the end of the text.
-/

namespace Quantities

/-- The tokens that alone tell which statement begins. -/
inductive StatementHead where
  | empty
  | block
  | var
  | unit
  | constant
  | branch
  | loop
deriving Repr, DecidableEq

def StatementHead.ofToken? : TokenKind → Option StatementHead
  | .mark .semicolon => some .empty
  | .mark .leftBrace => some .block
  | .keyword .var => some .var
  | .keyword .unit => some .unit
  | .keyword .let => some .constant
  | .keyword .if => some .branch
  | .keyword .while => some .loop
  | _ => none

/-- Takes a name and the mark of an assignment after it. A name alone is not taken. -/
def Cursor.takeTarget? (c : Cursor) : Option (Parsed String c) := do
  let name ← c.take? Cursor.acceptName
  let mark ← name.next.takeMark? .assign
  return name.followedBy mark name.value

namespace Grammar

variable {α : Type} {c : Cursor}

/-- Closes a statement. -/
def terminated (p : Parsed α c) : Except ParseError (Parsed α c) :=
  if p.next.atEnd then return p
  else do
    let closing ← p.next.needMark .semicolon
    return p.followedBy closing p.value

/-- The expression behind a mark. -/
def needAfter (sign : Mark) (c : Cursor) : Except ParseError (Parsed Expr c) := do
  let mark ← c.needMark sign
  let e ← expression mark.next
  return mark.followedBy e e.value

/-- The expression behind a mark that may be missing. -/
def optionalAfter (sign : Mark) (p : Parsed α c) :
    Except ParseError (Parsed (α × Option Expr) c) :=
  match p.next.takeMark? sign with
  | none => return p.map fun value => (value, none)
  | some mark => do
    let e ← expression mark.next
    return p.followedBy (mark.followedBy e ()) (p.value, some e.value)

/-- A condition in parentheses. -/
def condition (head : Parsed α c) : Except ParseError (Parsed Expr c) := do
  let opening ← head.next.needMark .leftParen
  let e ← expression opening.next
  let closing ← e.next.needMark .rightParen
  return head.followedBy (opening.followedBy (e.followedBy closing ()) ()) e.value

/-- What was read, as a statement at its location. -/
def place (p : Parsed α c) (make : Location → α → Stmt) : Parsed Stmt c :=
  p.map (make p.location)

def emptyStatement (head : Parsed α c) : Parsed Stmt c :=
  place head fun location _ => .empty location

def varStatement (head : Parsed α c) : Except ParseError (Parsed Stmt c) := do
  let name ← head.next.needName
  let declared ← optionalAfter .colon (head.followedBy name name.value)
  let whole ← terminated (← optionalAfter .equal declared)
  return place whole fun location ((name, declared), initial) =>
    .var location name declared initial

def unitStatement (head : Parsed α c) : Except ParseError (Parsed Stmt c) := do
  let name ← head.next.needName
  let whole ← terminated (← optionalAfter .equal (head.followedBy name name.value))
  return place whole fun location (name, definition) => .unit location name definition

def constantStatement (head : Parsed α c) : Except ParseError (Parsed Stmt c) := do
  let name ← head.next.needName
  let rhs ← needAfter .equal name.next
  let whole ← terminated (head.followedBy (name.followedBy rhs ()) (name.value, rhs.value))
  return place whole fun location (name, rhs) => .constant location name rhs

def assignment (target : Parsed String c) : Except ParseError (Parsed Stmt c) := do
  let rhs ← expression target.next
  let whole ← terminated (target.followedBy rhs (target.value, rhs.value))
  return place whole fun location (name, rhs) => .assign location name rhs

def expressionStatement (c : Cursor) : Except ParseError (Parsed Stmt c) := do
  let whole ← terminated (← expression c)
  return place whole fun location e => .expr location e

mutual

/-- An `else` belongs to the nearest `if` before it. -/
def statement (c : Cursor) : Except ParseError (Parsed Stmt c) :=
  match c.take? StatementHead.ofToken? with
  | some head =>
    match head.value with
    | .empty => return emptyStatement head
    | .var => varStatement head
    | .unit => unitStatement head
    | .constant => constantStatement head
    | .block => do
      let body ← blockBody head.next
      let whole := head.followedBy body body.value
      return place whole fun location body => .block location body
    | .loop => do
      let test ← condition head
      let body ← statement test.next
      let whole := test.followedBy body (test.value, body.value)
      return place whole fun location (test, body) => .loop location test body
    | .branch => do
      let test ← condition head
      let yes ← statement test.next
      let taken := test.followedBy yes (test.value, yes.value)
      match taken.next.take? (Cursor.acceptKeyword .else) with
      | none => return place taken fun location (test, yes) => .branch location test yes none
      | some other => do
        let no ← statement other.next
        let whole := taken.followedBy (other.followedBy no ()) (taken.value, no.value)
        return place whole fun location ((test, yes), no) =>
          .branch location test yes (some no)
  | none =>
    match c.takeTarget? with
    | some target => assignment target
    | none => expressionStatement c
termination_by (c.rest.length, 0)
decreasing_by
  · exact Prod.Lex.left _ _ head.shorter
  · exact Prod.Lex.left _ _ test.shorter
  · exact Prod.Lex.left _ _ test.shorter
  · exact Prod.Lex.left _ _ (taken.followedBy other ()).shorter

/-- The statements of a block, up to and with its closing brace. -/
def blockBody (c : Cursor) : Except ParseError (Parsed (List Stmt) c) :=
  match c.takeMark? .rightBrace with
  | some closing => return closing.map fun _ => []
  | none =>
    if c.atEnd then throw (c.refuse (.mark .rightBrace))
    else do
      let first ← statement c
      let rest ← blockBody first.next
      return first.followedBy rest (first.value :: rest.value)
termination_by (c.rest.length, 1)
decreasing_by
  · exact Prod.Lex.right _ (by decide)
  · exact Prod.Lex.left _ _ first.shorter

end

/-- Statements up to the end of the text. -/
def statements (c : Cursor) : Except ParseError (List Stmt) :=
  if c.atEnd then return []
  else do
    let first ← statement c
    let rest ← statements first.next
    return first.value :: rest
termination_by c.rest.length
decreasing_by exact first.shorter

end Grammar

/-- Reads a whole program. -/
def Program.ofTokens (tokens : Tokens) : Except ParseError (List Stmt) :=
  Grammar.statements (Cursor.ofTokens tokens)

def Program.ofSource (source : String) : Except ParseError (List Stmt) :=
  Program.ofTokens (Tokens.ofSource source)

def Expr.ofSource (source : String) : Except ParseError Expr :=
  Expr.ofTokens (Tokens.ofSource source)

end Quantities
