import Quantities.Tree.Layout

/-! The nodes of a tree, expressions and statements alike, with their children as in the text. -/

namespace Quantities

inductive Node where
  | expr (e : Expr)
  | stmt (s : Stmt)

def Expr.children : Expr → List Expr
  | .number .. | .bool .. | .typeWord .. | .name .. => []
  | .paren _ part | .sign _ _ part | .power _ part _ => [part]
  | .binary _ _ left right | .logical _ _ left right | .ascription _ left right
  | .conversion _ left right => [left, right]

namespace Stmt

/-- The expressions of a statement. They stand in front of the statements in it. -/
def exprs : Stmt → List Expr
  | empty _ | block _ _ => []
  | branch _ condition _ _ | loop _ condition _ => [condition]
  | var _ _ declared initial => declared.toList ++ initial.toList
  | unit _ _ definition => definition.toList
  | assign _ _ rhs | constant _ _ rhs => [rhs]
  | expr _ e => [e]

def children : Stmt → List Stmt
  | block _ body => body
  | branch _ _ yes no => yes :: no.toList
  | loop _ _ body => [body]
  | empty _ | var .. | unit .. | assign .. | constant .. | expr .. => []

end Stmt

namespace Node

def location : Node → Location
  | expr e => e.location
  | stmt s => s.location

def children : Node → List Node
  | expr e => e.children.map expr
  | stmt s => s.exprs.map expr ++ s.children.map stmt

end Node

end Quantities
