import Quantities.Grammar.Expression
import Quantities.Proofs.Tree.Bare

/-!
The grammar of expressions. A derivation is of a stratum of the grammar, has a yield, which is the
row of tokens that it derives, and a tree. Operators between two operands and powers group to the
left, since only their left part may be of the same stratum.
-/

namespace Quantities

namespace Connector

/-- The level that the operator belongs to. -/
def level : Connector → Level
  | .logical .or => .disjunction
  | .logical .and => .conjunction
  | .binary .equal | .binary .notEqual | .binary .atMost | .binary .atLeast | .binary .less
  | .binary .greater => .comparison
  | .conversion => .conversion
  | .binary .plus | .binary .minus => .sum
  | .binary .times | .binary .divide | .binary .modulo => .product

def kind : Connector → TokenKind
  | .logical .or => .mark .or
  | .logical .and => .mark .and
  | .binary .equal => .mark .equalEqual
  | .binary .notEqual => .mark .notEqual
  | .binary .atMost => .mark .atMost
  | .binary .atLeast => .mark .atLeast
  | .binary .less => .mark .less
  | .binary .greater => .mark .greater
  | .conversion => .keyword .as
  | .binary .plus => .mark .plus
  | .binary .minus => .mark .minus
  | .binary .times => .mark .star
  | .binary .divide => .mark .slash
  | .binary .modulo => .mark .percent

def node (connector : Connector) (left right : Expr) : Expr :=
  match connector with
  | .logical op => .logical .nowhere op left right
  | .binary op => .binary .nowhere op left right
  | .conversion => .conversion .nowhere left right

end Connector

def SignOp.kind : SignOp → TokenKind
  | .not => .mark .bang
  | .plus => .mark .plus
  | .minus => .mark .minus

/-- Expressions of one token. -/
inductive Atom where
  | number (x : Float)
  | name (text : String)
  | truth (value : Bool)
  | word (type : TypeWord)

namespace Atom

def kind : Atom → TokenKind
  | .number x => .number x
  | .name text => .name text
  | .truth true => .keyword .true
  | .truth false => .keyword .false
  | .word .boolean => .keyword .boolean
  | .word .scalar => .keyword .scalar

def tree (location : Location) : Atom → Expr
  | .number x => .number location x
  | .name text => .name location text
  | .truth value => .bool location value
  | .word type => .typeWord location type

/-- Only names and the words for types may follow a number as its unit. -/
def isUnit : Atom → Bool
  | .name _ | .word _ => true
  | .number _ | .truth _ => false

end Atom

/-- The number after the mark of a power, as it is written. -/
inductive Exponent where
  | plain (x : Float)
  | plus (x : Float)
  | minus (x : Float)

namespace Exponent

def yield : Exponent → List TokenKind
  | plain x => [.number x]
  | plus x => [.mark .plus, .number x]
  | minus x => [.mark .minus, .number x]

def value : Exponent → Float
  | plain x | plus x => x
  | minus x => -x

end Exponent

/-- The strata of the grammar. Powers and what they are powers of come in two sorts, the second of
which may follow a number as its unit. -/
inductive Stratum where
  | level (levels : List Level)
  | signed
  | ascribed
  | power (asUnit : Bool)
  | primary (asUnit : Bool)

inductive ExprDerivation : Stratum → Type where
  | tighter {first : Level} {levels : List Level} (inner : ExprDerivation (.level levels)) :
      ExprDerivation (.level (first :: levels))
  | join {first : Level} {levels : List Level} (connector : Connector)
      (atLevel : connector.level = first) (left : ExprDerivation (.level (first :: levels)))
      (right : ExprDerivation (.level levels)) :
      ExprDerivation (.level (first :: levels))
  | signed (inner : ExprDerivation .signed) : ExprDerivation (.level [])
  | sign (op : SignOp) (operand : ExprDerivation .signed) : ExprDerivation .signed
  | ascribed (inner : ExprDerivation .ascribed) : ExprDerivation .signed
  | plain (inner : ExprDerivation (.power false)) : ExprDerivation .ascribed
  | ascribe (operand : ExprDerivation .ascribed) (unit : ExprDerivation (.power true)) :
      ExprDerivation .ascribed
  | primary {asUnit : Bool} (inner : ExprDerivation (.primary asUnit)) :
      ExprDerivation (.power asUnit)
  | power {asUnit : Bool} (base : ExprDerivation (.power asUnit)) (exponent : Exponent) :
      ExprDerivation (.power asUnit)
  | atom {asUnit : Bool} (single : Atom) (fits : asUnit = true → single.isUnit = true) :
      ExprDerivation (.primary asUnit)
  | paren {asUnit : Bool} (inner : ExprDerivation (.level Level.all)) :
      ExprDerivation (.primary asUnit)

/-- The tokens that a stratum may begin with. -/
def Stratum.Begins : Stratum → TokenKind → Prop
  | .level _, kind | .signed, kind =>
    kind = .mark .leftParen ∨ (∃ single : Atom, single.kind = kind) ∨ ∃ op : SignOp, op.kind = kind
  | .ascribed, kind => kind = .mark .leftParen ∨ ∃ single : Atom, single.kind = kind
  | .power asUnit, kind | .primary asUnit, kind =>
    kind = .mark .leftParen ∨
      ∃ single : Atom, single.kind = kind ∧ (asUnit = true → single.isUnit = true)

namespace ExprDerivation

def yield {stratum : Stratum} : ExprDerivation stratum → List TokenKind
  | tighter inner | signed inner | ascribed inner | plain inner | primary inner => inner.yield
  | join connector _ left right => left.yield ++ connector.kind :: right.yield
  | sign op operand => op.kind :: operand.yield
  | ascribe operand unit => operand.yield ++ unit.yield
  | power base exponent => base.yield ++ .mark .caret :: exponent.yield
  | atom single _ => [single.kind]
  | paren inner => .mark .leftParen :: inner.yield ++ [.mark .rightParen]

def tree {stratum : Stratum} : ExprDerivation stratum → Expr
  | tighter inner | signed inner | ascribed inner | plain inner | primary inner => inner.tree
  | join connector _ left right => connector.node left.tree right.tree
  | sign op operand => .sign .nowhere op operand.tree
  | ascribe operand unit => .ascription .nowhere operand.tree unit.tree
  | power base exponent => .power .nowhere base.tree exponent.value
  | atom single _ => single.tree .nowhere
  | paren inner => .paren .nowhere inner.tree

end ExprDerivation

theorem Level.connector?_eq_some {level : Level} {kind : TokenKind} {connector : Connector} :
    level.connector? kind = some connector ↔ connector.level = level ∧ connector.kind = kind := by
  constructor
  · intro found
    unfold connector? at found
    split at found <;> cases found <;> exact ⟨rfl, rfl⟩
  · rintro ⟨rfl, rfl⟩
    cases connector with
    | logical op => cases op <;> rfl
    | binary op => cases op <;> rfl
    | conversion => rfl

theorem Connector.findSome?_kind (connector : Connector) :
    Level.all.findSome? (·.connector? connector.kind) = some connector := by
  cases connector with
  | logical op => cases op <;> rfl
  | binary op => cases op <;> rfl
  | conversion => rfl

theorem Connector.kind_injective {connector other : Connector}
    (same : connector.kind = other.kind) : connector = other := by
  have found := findSome?_kind connector
  rw [same, findSome?_kind other] at found
  exact (Option.some.inj found).symm

theorem SignOp.ofToken?_eq_some {kind : TokenKind} {op : SignOp} :
    SignOp.ofToken? kind = some op ↔ op.kind = kind := by
  constructor
  · intro found
    unfold SignOp.ofToken? at found
    split at found <;> cases found <;> rfl
  · rintro rfl
    cases op <;> rfl

theorem atom?_eq_some {kind : TokenKind} {make : Location → Expr} :
    atom? kind = some make ↔ ∃ atom : Atom, atom.kind = kind ∧ make = (atom.tree ·) := by
  constructor
  · intro found
    unfold atom? at found
    split at found
    next x => exact ⟨.number x, rfl, (Option.some.inj found).symm⟩
    next text => exact ⟨.name text, rfl, (Option.some.inj found).symm⟩
    next => exact ⟨.truth true, rfl, (Option.some.inj found).symm⟩
    next => exact ⟨.truth false, rfl, (Option.some.inj found).symm⟩
    next => exact ⟨.word .boolean, rfl, (Option.some.inj found).symm⟩
    next => exact ⟨.word .scalar, rfl, (Option.some.inj found).symm⟩
    next => cases found
  · rintro ⟨atom, rfl, rfl⟩
    cases atom with
    | number x | name text => rfl
    | truth value => cases value <;> rfl
    | word type => cases type <;> rfl

theorem ExprDerivation.yield_eq_cons {stratum : Stratum} (d : ExprDerivation stratum) :
    ∃ kind more, d.yield = kind :: more ∧ stratum.Begins kind := by
  induction d with
  | tighter inner ih | signed inner ih | primary inner ih => exact ih
  | join connector atLevel left right leftIh rightIh =>
      obtain ⟨kind, more, yield, begins⟩ := leftIh
      exact ⟨kind, more ++ connector.kind :: right.yield, by simp [ExprDerivation.yield, yield], begins⟩
  | sign op operand ih => exact ⟨op.kind, operand.yield, rfl, .inr (.inr ⟨op, rfl⟩)⟩
  | ascribed inner ih =>
      obtain ⟨kind, more, yield, begins⟩ := ih
      exact ⟨kind, more, yield, begins.imp_right .inl⟩
  | plain inner ih =>
      obtain ⟨kind, more, yield, begins⟩ := ih
      refine ⟨kind, more, yield, begins.imp_right ?_⟩
      rintro ⟨single, same, -⟩
      exact ⟨single, same⟩
  | ascribe operand unit operandIh unitIh =>
      obtain ⟨kind, more, yield, begins⟩ := operandIh
      exact ⟨kind, more ++ unit.yield, by simp [ExprDerivation.yield, yield], begins⟩
  | power base exponent ih =>
      obtain ⟨kind, more, yield, begins⟩ := ih
      exact ⟨kind, more ++ .mark .caret :: exponent.yield, by simp [ExprDerivation.yield, yield],
        begins⟩
  | atom single fits => exact ⟨single.kind, [], rfl, .inr ⟨single, rfl, fits⟩⟩
  | paren inner ih => exact ⟨.mark .leftParen, inner.yield ++ [.mark .rightParen], rfl, .inl rfl⟩

end Quantities
