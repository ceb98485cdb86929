import Quantities.Proofs.Tree.Forest

/-!
Recursions over trees, and the walks over their layouts that follow the numbers instead. In a forest a walk
meets an entry for every number, and gives what the recursion gives.
-/

namespace Quantities

section

variable {α : Type} (answer : Node → List α → α)

/-- The answer for an expression, made from those for its children. -/
def Expr.gather (e : Expr) : α :=
  match e with
  | number .. | bool .. | typeWord .. | name .. => answer (.expr e) []
  | paren _ part | sign _ _ part | power _ part _ => answer (.expr e) [part.gather]
  | binary _ _ left right | logical _ _ left right | ascription _ left right
  | conversion _ left right => answer (.expr e) [left.gather, right.gather]

def Expr.gatherOptional : Option Expr → List α
  | some e => [e.gather answer]
  | none => []

mutual

def Stmt.gather (s : Stmt) : α :=
  match s with
  | empty _ => answer (.stmt s) []
  | block _ body => answer (.stmt s) (gatherAll body)
  | branch _ condition yes none => answer (.stmt s) [condition.gather answer, yes.gather]
  | branch _ condition yes (some no) =>
    answer (.stmt s) [condition.gather answer, yes.gather, no.gather]
  | loop _ condition body => answer (.stmt s) [condition.gather answer, body.gather]
  | var _ _ declared initial =>
    answer (.stmt s) (Expr.gatherOptional answer declared ++ Expr.gatherOptional answer initial)
  | unit _ _ definition => answer (.stmt s) (Expr.gatherOptional answer definition)
  | assign _ _ e | constant _ _ e | expr _ e => answer (.stmt s) [e.gather answer]

def Stmt.gatherAll : List Stmt → List α
  | [] => []
  | first :: rest => first.gather :: gatherAll rest

end

def Node.gather : Node → α
  | expr e => e.gather answer
  | stmt s => s.gather answer

end

namespace Layout

def node? (layout : Layout) : Ref → Option Node
  | .expr index => (layout.expr? index).map .expr
  | .stmt index => (layout.stmt? index).map .stmt

/-- Follows the numbers from an entry. There is no answer if a number has no entry, or if the entries that
are being looked at are more than `depth`. -/
def walk {α : Type} (layout : Layout) (answer : Node → List α → α) : Nat → Ref → Option α
  | 0, _ => none
  | depth + 1, ref => do
    let node ← layout.node? ref
    let parts ← (layout.partsOf ref).mapM (layout.walk answer depth)
    return answer node parts

variable {layout : Layout} {roots : List Ref}

variable {α : Type} {answer : Node → List α → α}

end Layout

end Quantities
