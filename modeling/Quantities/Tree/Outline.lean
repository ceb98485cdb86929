import Quantities.Number
import Quantities.Tree

/-!
The outline of a tree: a row for every node, with its kind, what it says itself, and its location.
The rows of a part follow that of the whole and stand two blanks further in.
-/

namespace Quantities

/-- One row of an outline. -/
def outlineRow (depth : Nat) (heading : String) (location : Location) : String :=
  String.ofList (List.replicate (2 * depth) ' ') ++ heading ++ " [" ++ location.text ++ "]\n"

namespace Expr

def heading : Expr → String
  | number _ x => "Literal " ++ Number.text x
  | bool _ truth => "Literal " ++ (if truth then "true" else "false")
  | typeWord _ word => "TypeLiteral " ++ word.text
  | name _ text => "Identifier " ++ text
  | paren .. => "Parentheses"
  | sign _ op _ => "PrefixExpression " ++ op.symbol
  | power _ _ exponent => "PowerExpression ^" ++ Number.text exponent
  | binary _ op _ _ => "BinaryExpression " ++ op.symbol
  | logical _ op _ _ => "LogicalExpression " ++ op.symbol
  | ascription .. => "AscriptionExpression"
  | conversion .. => "ConversionExpression"

def outlineAt (depth : Nat) (e : Expr) : String :=
  outlineRow depth e.heading e.location ++
    match e with
    | number .. | bool .. | typeWord .. | name .. => ""
    | paren _ inner => inner.outlineAt (depth + 1)
    | sign _ _ operand => operand.outlineAt (depth + 1)
    | power _ base _ => base.outlineAt (depth + 1)
    | binary _ _ left right | logical _ _ left right =>
      left.outlineAt (depth + 1) ++ right.outlineAt (depth + 1)
    | ascription _ operand unit | conversion _ operand unit =>
      operand.outlineAt (depth + 1) ++ unit.outlineAt (depth + 1)

def outline (e : Expr) : String := e.outlineAt 0

end Expr

namespace Stmt

def heading : Stmt → String
  | empty _ => "EmptyStatement"
  | block .. => "BlockStatement"
  | branch .. => "IfStatement"
  | loop .. => "WhileStatement"
  | var _ name _ _ => "VarStatement " ++ name
  | unit _ name _ => "UnitStatement " ++ name
  | assign _ name _ => "AssignmentStatement " ++ name
  | constant _ name _ => "LetStatement " ++ name
  | expr .. => "ExpressionStatement"

def optionalOutline (depth : Nat) : Option Expr → String
  | some e => e.outlineAt depth
  | none => ""

mutual

def outlineAt (depth : Nat) (s : Stmt) : String :=
  outlineRow depth s.heading s.location ++
    match s with
    | empty _ => ""
    | block _ body => bodyOutline (depth + 1) body
    | branch _ condition yes none => condition.outlineAt (depth + 1) ++ yes.outlineAt (depth + 1)
    | branch _ condition yes (some no) =>
      condition.outlineAt (depth + 1) ++ yes.outlineAt (depth + 1) ++ no.outlineAt (depth + 1)
    | loop _ condition body => condition.outlineAt (depth + 1) ++ body.outlineAt (depth + 1)
    | var _ _ declared initial =>
      optionalOutline (depth + 1) declared ++ optionalOutline (depth + 1) initial
    | unit _ _ definition => optionalOutline (depth + 1) definition
    | assign _ _ rhs | constant _ _ rhs => rhs.outlineAt (depth + 1)
    | expr _ e => e.outlineAt (depth + 1)

def bodyOutline (depth : Nat) : List Stmt → String
  | [] => ""
  | first :: rest => first.outlineAt depth ++ bodyOutline depth rest

end

def outline (s : Stmt) : String := s.outlineAt 0

end Stmt

end Quantities
