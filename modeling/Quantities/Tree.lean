import Quantities.Operator
import Quantities.Source.Location

/-!
Expressions and statements. Every node carries the location of the source text it was read from,
and parentheses are nodes of their own.
-/

namespace Quantities

/-- The words that name a type in an expression. -/
inductive TypeWord where
  | boolean
  | scalar
deriving Repr, DecidableEq

def TypeWord.text : TypeWord → String
  | .boolean => "boolean"
  | .scalar => "scalar"

inductive Expr where
  | number (location : Location) (x : Float)
  | bool (location : Location) (truth : Bool)
  | typeWord (location : Location) (word : TypeWord)
  | name (location : Location) (text : String)
  | paren (location : Location) (inner : Expr)
  | sign (location : Location) (op : SignOp) (operand : Expr)
  | power (location : Location) (base : Expr) (exponent : Float)
  | binary (location : Location) (op : BinaryOp) (left right : Expr)
  | logical (location : Location) (op : LogicalOp) (left right : Expr)
  | ascription (location : Location) (operand unit : Expr)
  | conversion (location : Location) (operand unit : Expr)
deriving Repr, DecidableEq

/-- In a declaration of a variable both the declared type and the initial value may be missing. -/
inductive Stmt where
  | empty (location : Location)
  | block (location : Location) (body : List Stmt)
  | branch (location : Location) (condition : Expr) (yes : Stmt) (no : Option Stmt)
  | loop (location : Location) (condition : Expr) (body : Stmt)
  | var (location : Location) (name : String) (declared initial : Option Expr)
  | unit (location : Location) (name : String) (definition : Option Expr)
  | assign (location : Location) (name : String) (rhs : Expr)
  | constant (location : Location) (name : String) (rhs : Expr)
  | expr (location : Location) (e : Expr)
deriving Repr

namespace Expr

def location : Expr → Location
  | number location _ | bool location _ | typeWord location _ | name location _
  | paren location _ | sign location _ _ | power location _ _ | binary location _ _ _
  | logical location _ _ _ | ascription location _ _ | conversion location _ _ => location

/-- A single word or number. -/
def isAtomic : Expr → Bool
  | number .. | bool .. | typeWord .. | name .. => true
  | _ => false

/-- Puts an expression of several parts in parentheses. -/
def enclose (e : Expr) : Expr := if e.isAtomic then e else paren e.location e

/-- The same expression with parentheses around every operand of several parts and nowhere else. -/
def explicit : Expr → Expr
  | paren _ inner => inner.explicit
  | sign location op operand => sign location op operand.explicit.enclose
  | power location base exponent => power location base.explicit.enclose exponent
  | binary location op left right =>
    binary location op left.explicit.enclose right.explicit.enclose
  | logical location op left right =>
    logical location op left.explicit.enclose right.explicit.enclose
  | ascription location operand unit =>
    ascription location operand.explicit.enclose unit.explicit.enclose
  | conversion location operand unit =>
    conversion location operand.explicit.enclose unit.explicit.enclose
  | atom => atom

end Expr

def Stmt.location : Stmt → Location
  | empty location | block location _ | branch location _ _ _ | loop location _ _
  | var location _ _ _ | unit location _ _ | assign location _ _ | constant location _ _
  | expr location _ => location

end Quantities
