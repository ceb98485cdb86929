import Quantities.Grammar.Cursor
import Quantities.Tree

/-!
The productions for expressions. From the loosest binding to the tightest: the connectives, the
comparisons, `as`, sums, products, signs, a unit after a number, powers, and single words, numbers
and parentheses. Operators of one level group to the left.
-/

namespace Quantities

/-- What joins the two operands of a level. -/
inductive Connector where
  | logical (op : LogicalOp)
  | binary (op : BinaryOp)
  | conversion
deriving Repr, DecidableEq

/-- The node covers both operands. -/
def Connector.join (connector : Connector) (left right : Expr) : Expr :=
  let location := left.location.merge right.location
  match connector with
  | logical op => .logical location op left right
  | binary op => .binary location op left right
  | conversion => .conversion location left right

/-- The levels of operators between two operands. -/
inductive Level where
  | disjunction
  | conjunction
  | comparison
  | conversion
  | sum
  | product
deriving Repr, DecidableEq

namespace Level

/-- All levels, the loosest first. -/
def all : List Level := [.disjunction, .conjunction, .comparison, .conversion, .sum, .product]

def connector? : Level → TokenKind → Option Connector
  | .disjunction, .mark .or => some (.logical .or)
  | .conjunction, .mark .and => some (.logical .and)
  | .comparison, .mark .equalEqual => some (.binary .equal)
  | .comparison, .mark .notEqual => some (.binary .notEqual)
  | .comparison, .mark .atMost => some (.binary .atMost)
  | .comparison, .mark .atLeast => some (.binary .atLeast)
  | .comparison, .mark .less => some (.binary .less)
  | .comparison, .mark .greater => some (.binary .greater)
  | .conversion, .keyword .as => some .conversion
  | .sum, .mark .plus => some (.binary .plus)
  | .sum, .mark .minus => some (.binary .minus)
  | .product, .mark .star => some (.binary .times)
  | .product, .mark .slash => some (.binary .divide)
  | .product, .mark .percent => some (.binary .modulo)
  | _, _ => none

end Level

def SignOp.ofToken? : TokenKind → Option SignOp
  | .mark .bang => some .not
  | .mark .plus => some .plus
  | .mark .minus => some .minus
  | _ => none

/-- Whether a token can begin the unit after a number. -/
def startsUnit : Option TokenKind → Bool
  | some (.name _) | some (.mark .leftParen) | some (.keyword .scalar)
  | some (.keyword .boolean) => true
  | _ => false

/-- Expressions of one token, which still lack their location. -/
def atom? : TokenKind → Option (Location → Expr)
  | .number x => some (.number · x)
  | .name text => some (.name · text)
  | .keyword .true => some (.bool · true)
  | .keyword .false => some (.bool · false)
  | .keyword .boolean => some (.typeWord · .boolean)
  | .keyword .scalar => some (.typeWord · .scalar)
  | _ => none

namespace Grammar

def needExponent (c : Cursor) : Except ParseError (Parsed Float c) :=
  c.need .exponent Cursor.acceptNumber

/-- A number with or without a sign, after the mark of a power. -/
def exponent (c : Cursor) : Except ParseError (Parsed Float c) :=
  match c.takeMark? .minus with
  | some sign => do
    let size ← needExponent sign.next
    return sign.followedBy size (-size.value)
  | none =>
    match c.takeMark? .plus with
    | some sign => do
      let size ← needExponent sign.next
      return sign.followedBy size size.value
    | none => needExponent c

/-- Raises what was read to all the powers that follow. -/
def powers {c : Cursor} (base : Parsed Expr c) : Except ParseError (Parsed Expr c) :=
  match base.next.takeMark? .caret with
  | none => return base
  | some caret => do
    let size ← exponent caret.next
    let raised := base.followedBy (caret.followedBy size ()) ()
    powers (raised.map fun _ => .power raised.location base.value size.value)
termination_by base.next.rest.length
decreasing_by exact (caret.followedBy size ()).shorter

mutual

/-- An expression of the first of these levels or a tighter one. -/
def level (levels : List Level) (c : Cursor) : Except ParseError (Parsed Expr c) :=
  match levels with
  | [] => signed c
  | first :: tighter => do
    let left ← level tighter c
    chain first tighter left
termination_by (c.rest.length, 2 * levels.length + 4)
decreasing_by
  · exact Prod.Lex.right _ (by simp +arith)
  · exact Prod.Lex.right _ (by simp +arith)
  · exact Prod.Lex.left _ _ left.shorter

/-- Joins what was read with all the operands of one level that follow. -/
def chain {c : Cursor} (first : Level) (tighter : List Level) (left : Parsed Expr c) :
    Except ParseError (Parsed Expr c) :=
  match left.next.take? first.connector? with
  | none => return left
  | some connector => do
    let right ← level tighter connector.next
    chain first tighter (left.followedBy (connector.followedBy right ())
      (connector.value.join left.value right.value))
termination_by (left.next.rest.length, 2 * tighter.length + 5)
decreasing_by
  · exact Prod.Lex.left _ _ connector.shorter
  · exact Prod.Lex.left _ _ (connector.followedBy right ()).shorter

/-- Signs and negations. -/
def signed (c : Cursor) : Except ParseError (Parsed Expr c) :=
  match c.take? SignOp.ofToken? with
  | none => ascribed c
  | some op => do
    let operand ← signed op.next
    let whole := op.followedBy operand ()
    return whole.map fun _ => .sign whole.location op.value operand.value
termination_by (c.rest.length, 3)
decreasing_by
  · exact Prod.Lex.right _ (by decide)
  · exact Prod.Lex.left _ _ op.shorter

/-- A power with the units that follow it. -/
def ascribed (c : Cursor) : Except ParseError (Parsed Expr c) := do
  let operand ← power c
  units operand
termination_by (c.rest.length, 2)
decreasing_by
  · exact Prod.Lex.right _ (by decide)
  · exact Prod.Lex.left _ _ operand.shorter

/-- Ascribes to what was read all the units that follow. -/
def units {c : Cursor} (operand : Parsed Expr c) : Except ParseError (Parsed Expr c) :=
  if startsUnit operand.next.kind? then do
    let unit ← power operand.next
    let location := operand.value.location.merge unit.value.location
    units (operand.followedBy unit (.ascription location operand.value unit.value))
  else return operand
termination_by (operand.next.rest.length, 2)
decreasing_by
  · exact Prod.Lex.right _ (by decide)
  · exact Prod.Lex.left _ _ unit.shorter

def power (c : Cursor) : Except ParseError (Parsed Expr c) := do
  let base ← primary c
  powers base
termination_by (c.rest.length, 1)
decreasing_by exact Prod.Lex.right _ (by decide)

/-- A word, a number or an expression in parentheses. -/
def primary (c : Cursor) : Except ParseError (Parsed Expr c) :=
  match c.takeMark? .leftParen with
  | some opening => do
    let inner ← level Level.all opening.next
    let closing ← inner.next.needMark .rightParen
    let whole := opening.followedBy (inner.followedBy closing ()) ()
    return whole.map fun _ => .paren whole.location inner.value
  | none => do
    let atom ← c.need .expression atom?
    return atom.map fun make => make atom.location
termination_by (c.rest.length, 0)
decreasing_by exact Prod.Lex.left _ _ opening.shorter

end

def expression (c : Cursor) : Except ParseError (Parsed Expr c) := level Level.all c

end Grammar

/-- Reads a text that holds one expression and nothing else. -/
def Expr.ofTokens (tokens : Tokens) : Except ParseError Expr := do
  let e ← Grammar.expression (Cursor.ofTokens tokens)
  if e.next.atEnd then return e.value else throw (e.next.refuse .endOfInput)

end Quantities
