/-! The operators of expressions and the symbols they are written with. -/

namespace Quantities

inductive SignOp where
  | not
  | plus
  | minus
deriving Repr, DecidableEq

def SignOp.symbol : SignOp → String
  | .not => "!"
  | .plus => "+"
  | .minus => "-"

inductive BinaryOp where
  | times
  | divide
  | modulo
  | plus
  | minus
  | equal
  | notEqual
  | atMost
  | atLeast
  | less
  | greater
deriving Repr, DecidableEq

namespace BinaryOp

def symbol : BinaryOp → String
  | .times => "*"
  | .divide => "/"
  | .modulo => "%"
  | .plus => "+"
  | .minus => "-"
  | .equal => "=="
  | .notEqual => "!="
  | .atMost => "<="
  | .atLeast => ">="
  | .less => "<"
  | .greater => ">"

def all : List BinaryOp :=
  [.times, .divide, .modulo, .plus, .minus, .equal, .notEqual, .atMost, .atLeast, .less, .greater]

/-- What a comparison says of two numbers. The arithmetic operators say nothing. -/
def relation? : BinaryOp → Option (Float → Float → Bool)
  | .equal => some (· == ·)
  | .notEqual => some (· != ·)
  | .atMost => some fun x y => x ≤ y
  | .atLeast => some fun x y => y ≤ x
  | .less => some fun x y => x < y
  | .greater => some fun x y => y < x
  | .times | .divide | .modulo | .plus | .minus => none

def isComparison (op : BinaryOp) : Bool := op.relation?.isSome

/-- Whether the operator combines dimensions instead of comparing them. -/
def isScaling : BinaryOp → Bool
  | .times | .divide => true
  | _ => false

end BinaryOp

inductive LogicalOp where
  | and
  | or
deriving Repr, DecidableEq

def LogicalOp.symbol : LogicalOp → String
  | .and => "&&"
  | .or => "||"

end Quantities
