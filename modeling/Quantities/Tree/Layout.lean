import Quantities.Tree

/-!
The nodes of trees laid out in two rows, one of expressions and one of statements. A node stands
behind all of its parts and names them by their numbers.
-/

namespace Quantities

structure ExprEntry where
  node : Expr
  parts : List Nat
deriving Repr

structure StmtEntry where
  node : Stmt
  exprs : List Nat
  parts : List Nat
deriving Repr

structure Layout where
  exprs : Array ExprEntry
  stmts : Array StmtEntry
deriving Repr

namespace Layout

def empty : Layout := ⟨#[], #[]⟩

/-- Adds an expression behind its parts, and gives its number. -/
def addExpr (layout : Layout) (node : Expr) (parts : List Nat) : Nat × Layout :=
  (layout.exprs.size, { layout with exprs := layout.exprs.push ⟨node, parts⟩ })

/-- Adds a statement behind its parts, and gives its number. -/
def addStmt (layout : Layout) (node : Stmt) (exprs parts : List Nat) : Nat × Layout :=
  (layout.stmts.size, { layout with stmts := layout.stmts.push ⟨node, exprs, parts⟩ })

end Layout

def Expr.place (layout : Layout) (e : Expr) : Nat × Layout :=
  match e with
  | number .. | bool .. | typeWord .. | name .. => layout.addExpr e []
  | paren _ part | sign _ _ part | power _ part _ =>
    let (part, layout) := part.place layout
    layout.addExpr e [part]
  | binary _ _ left right | logical _ _ left right | ascription _ left right
  | conversion _ left right =>
    let (left, layout) := left.place layout
    let (right, layout) := right.place layout
    layout.addExpr e [left, right]

def Expr.placeOptional (layout : Layout) : Option Expr → List Nat × Layout
  | some e =>
    let (index, layout) := e.place layout
    ([index], layout)
  | none => ([], layout)

mutual

def Stmt.place (layout : Layout) (s : Stmt) : Nat × Layout :=
  match s with
  | empty _ => layout.addStmt s [] []
  | block _ body =>
    let (parts, layout) := placeAll layout body
    layout.addStmt s [] parts
  | branch _ condition yes none =>
    let (condition, layout) := condition.place layout
    let (yes, layout) := yes.place layout
    layout.addStmt s [condition] [yes]
  | branch _ condition yes (some no) =>
    let (condition, layout) := condition.place layout
    let (yes, layout) := yes.place layout
    let (no, layout) := no.place layout
    layout.addStmt s [condition] [yes, no]
  | loop _ condition body =>
    let (condition, layout) := condition.place layout
    let (body, layout) := body.place layout
    layout.addStmt s [condition] [body]
  | var _ _ declared initial =>
    let (declared, layout) := Expr.placeOptional layout declared
    let (initial, layout) := Expr.placeOptional layout initial
    layout.addStmt s (declared ++ initial) []
  | unit _ _ definition =>
    let (definition, layout) := Expr.placeOptional layout definition
    layout.addStmt s definition []
  | assign _ _ e | constant _ _ e | expr _ e =>
    let (e, layout) := e.place layout
    layout.addStmt s [e] []

def Stmt.placeAll (layout : Layout) : List Stmt → List Nat × Layout
  | [] => ([], layout)
  | first :: rest =>
    let (index, layout) := first.place layout
    let (indices, layout) := Stmt.placeAll layout rest
    (index :: indices, layout)

end

namespace Layout

/-- The layout of one expression, and its number. -/
def ofExpr (e : Expr) : Nat × Layout := e.place empty

/-- The layout of a program, and the numbers of its statements. -/
def ofProgram (program : List Stmt) : List Nat × Layout := Stmt.placeAll empty program

end Layout

end Quantities
