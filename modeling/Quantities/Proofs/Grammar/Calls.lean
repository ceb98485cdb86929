import Quantities.Grammar.Statement
import Quantities.Proofs.Result

/-!
The productions one step at a time. A step of a production makes calls of productions and goes on with what
they give, and it fails as soon as one of them does. The step does not say how calls are answered, so they
can be counted, and only answered up to some depth.
-/

namespace Quantities

/-- A production and where it is called. A loop is called with what has been read before it goes on. -/
inductive Call where
  | level (levels : List Level) (within : levels <:+ Level.all) (c : Cursor)
  | chain (first : Level) (tighter : List Level) (within : first :: tighter <:+ Level.all)
      {c : Cursor} (left : Parsed Expr c)
  | signed (c : Cursor)
  | ascribed (c : Cursor)
  | units {c : Cursor} (operand : Parsed Expr c)
  | power (c : Cursor)
  | powers {c : Cursor} (base : Parsed Expr c)
  | primary (c : Cursor)
  | statement (c : Cursor)
  | blockBody (c : Cursor)
  | statements (c : Cursor)
  | whole (c : Cursor)

namespace Call

/-- What the production gives when it succeeds. -/
abbrev Value : Call → Type
  | @chain _ _ _ c _ | @units c _ | @powers c _ | level _ _ c | signed c | ascribed c | power c
  | primary c => Parsed Expr c
  | statement c => Parsed Stmt c
  | blockBody c => Parsed (List Stmt) c
  | statements _ => List Stmt
  | whole _ => Expr

/-- What the production gives in fact. -/
def answer : (call : Call) → Except ParseError call.Value
  | level levels _ c => Grammar.level levels c
  | chain first tighter _ left => Grammar.chain first tighter left
  | signed c => Grammar.signed c
  | ascribed c => Grammar.ascribed c
  | units operand => Grammar.units operand
  | power c => Grammar.power c
  | powers base => Grammar.powers base
  | primary c => Grammar.primary c
  | statement c => Grammar.statement c
  | blockBody c => Grammar.blockBody c
  | statements c => Grammar.statements c
  | whole c => do
    let e ← Grammar.expression c
    if e.next.atEnd then return e.value else throw (e.next.refuse .endOfInput)

end Call

/-- The rest of a step: a result, or a call and how to go on with the value that it gives. -/
inductive Steps (α : Type) where
  | done (result : Except ParseError α)
  | call (call : Call) (next : call.Value → Steps α)

namespace Steps

variable {α β : Type}

def andThen : Steps α → (α → Steps β) → Steps β
  | done (.ok value), next => next value
  | done (.error e), _ => done (.error e)
  | call production more, next => call production fun value => (more value).andThen next

instance : Monad Steps where
  pure value := done (.ok value)
  bind := andThen

/-- The result when all calls are answered. -/
def run : Steps α → Except ParseError α
  | done result => result
  | call production next => production.answer >>= fun value => (next value).run

/-- The calls that are made when all of them are answered. -/
def Makes : Steps α → Call → Prop
  | done _, _ => False
  | call production next, other =>
    other = production ∨ ∃ value, production.answer = .ok value ∧ (next value).Makes other

/-- The result when only some calls are answered. -/
def runWith (answers : (call : Call) → Option (Except ParseError call.Value)) :
    Steps α → Option (Except ParseError α)
  | done result => some result
  | call production next =>
    match answers production with
    | none => none
    | some (.error e) => some (.error e)
    | some (.ok value) => (next value).runWith answers

theorem run_bind (first : Steps α) (next : α → Steps β) :
    (first >>= next).run = first.run >>= fun value => (next value).run := by
  induction first with
  | done result => cases result <;> rfl
  | call production more ih =>
      change production.answer >>= _ = (production.answer >>= _) >>= _
      rw [bind_assoc]
      exact congrArg _ (funext ih)

end Steps

/-- Calls a production for its value. -/
def Call.ask (production : Call) : Steps production.Value := .call production pure

namespace Grammar

open Steps

variable {α : Type} {c : Cursor}

def expressionSteps (c : Cursor) : Steps (Parsed Expr c) :=
  (Call.level Level.all List.suffix_rfl c).ask

def needAfterSteps (sign : Mark) (c : Cursor) : Steps (Parsed Expr c) := do
  let mark ← done (c.needMark sign)
  let e ← expressionSteps mark.next
  return mark.followedBy e e.value

def optionalAfterSteps (sign : Mark) (p : Parsed α c) : Steps (Parsed (α × Option Expr) c) :=
  match p.next.takeMark? sign with
  | none => return p.map fun value => (value, none)
  | some mark => do
    let e ← expressionSteps mark.next
    return p.followedBy (mark.followedBy e ()) (p.value, some e.value)

def conditionSteps (head : Parsed α c) : Steps (Parsed Expr c) := do
  let opening ← done (head.next.needMark .leftParen)
  let e ← expressionSteps opening.next
  let closing ← done (e.next.needMark .rightParen)
  return head.followedBy (opening.followedBy (e.followedBy closing ()) ()) e.value

def varSteps (head : Parsed α c) : Steps (Parsed Stmt c) := do
  let name ← done head.next.needName
  let declared ← optionalAfterSteps .colon (head.followedBy name name.value)
  let initial ← optionalAfterSteps .equal declared
  let whole ← done (terminated initial)
  return place whole fun location ((name, declared), initial) =>
    .var location name declared initial

def unitSteps (head : Parsed α c) : Steps (Parsed Stmt c) := do
  let name ← done head.next.needName
  let definition ← optionalAfterSteps .equal (head.followedBy name name.value)
  let whole ← done (terminated definition)
  return place whole fun location (name, definition) => .unit location name definition

def constantSteps (head : Parsed α c) : Steps (Parsed Stmt c) := do
  let name ← done head.next.needName
  let rhs ← needAfterSteps .equal name.next
  let whole ← done (terminated (head.followedBy (name.followedBy rhs ()) (name.value, rhs.value)))
  return place whole fun location (name, rhs) => .constant location name rhs

def assignmentSteps (target : Parsed String c) : Steps (Parsed Stmt c) := do
  let rhs ← expressionSteps target.next
  let whole ← done (terminated (target.followedBy rhs (target.value, rhs.value)))
  return place whole fun location (name, rhs) => .assign location name rhs

def expressionStatementSteps (c : Cursor) : Steps (Parsed Stmt c) := do
  let e ← expressionSteps c
  let whole ← done (terminated e)
  return place whole fun location e => .expr location e

end Grammar

/-- One step of a production. -/
def Call.steps : (call : Call) → Steps call.Value
  | level [] _ c => (signed c).ask
  | level (first :: tighter) within c => do
    let left ← (level tighter ((List.suffix_cons first tighter).trans within) c).ask
    (chain first tighter within left).ask
  | chain first tighter within left =>
    match left.next.take? first.connector? with
    | none => return left
    | some connector => do
      let right ← (level tighter ((List.suffix_cons first tighter).trans within) connector.next).ask
      (chain first tighter within (left.followedBy (connector.followedBy right ())
        (connector.value.join left.value right.value))).ask
  | signed c =>
    match c.take? SignOp.ofToken? with
    | none => (ascribed c).ask
    | some op => do
      let operand ← (signed op.next).ask
      let whole := op.followedBy operand ()
      return whole.map fun _ => .sign whole.location op.value operand.value
  | ascribed c => do
    let operand ← (power c).ask
    (units operand).ask
  | units operand =>
    if startsUnit operand.next.kind? then do
      let unit ← (power operand.next).ask
      let location := operand.value.location.merge unit.value.location
      (units (operand.followedBy unit (.ascription location operand.value unit.value))).ask
    else return operand
  | power c => do
    let base ← (primary c).ask
    (powers base).ask
  | powers base =>
    match base.next.takeMark? .caret with
    | none => return base
    | some caret => do
      let size ← Steps.done (Grammar.exponent caret.next)
      let raised := base.followedBy (caret.followedBy size ()) ()
      (powers (raised.map fun _ => .power raised.location base.value size.value)).ask
  | primary c =>
    match c.takeMark? .leftParen with
    | some opening => do
      let inner ← Grammar.expressionSteps opening.next
      let closing ← Steps.done (inner.next.needMark .rightParen)
      let whole := opening.followedBy (inner.followedBy closing ()) ()
      return whole.map fun _ => .paren whole.location inner.value
    | none => do
      let atom ← Steps.done (c.need .expression atom?)
      return atom.map fun make => make atom.location
  | statement c =>
    match c.take? StatementHead.ofToken? with
    | some head =>
      match head.value with
      | .empty => return Grammar.emptyStatement head
      | .var => Grammar.varSteps head
      | .unit => Grammar.unitSteps head
      | .constant => Grammar.constantSteps head
      | .block => do
        let body ← (blockBody head.next).ask
        let whole := head.followedBy body body.value
        return Grammar.place whole fun location body => .block location body
      | .loop => do
        let test ← Grammar.conditionSteps head
        let body ← (statement test.next).ask
        let whole := test.followedBy body (test.value, body.value)
        return Grammar.place whole fun location (test, body) => .loop location test body
      | .branch => do
        let test ← Grammar.conditionSteps head
        let yes ← (statement test.next).ask
        let taken := test.followedBy yes (test.value, yes.value)
        match taken.next.take? (Cursor.acceptKeyword .else) with
        | none =>
          return Grammar.place taken fun location (test, yes) => .branch location test yes none
        | some other => do
          let no ← (statement other.next).ask
          let whole := taken.followedBy (other.followedBy no ()) (taken.value, no.value)
          return Grammar.place whole fun location ((test, yes), no) =>
            .branch location test yes (some no)
    | none =>
      match c.takeTarget? with
      | some target => Grammar.assignmentSteps target
      | none => Grammar.expressionStatementSteps c
  | blockBody c =>
    match c.takeMark? .rightBrace with
    | some closing => return closing.map fun _ => []
    | none =>
      if c.atEnd then Steps.done (throw (c.refuse (.mark .rightBrace)))
      else do
        let first ← (statement c).ask
        let rest ← (blockBody first.next).ask
        return first.followedBy rest (first.value :: rest.value)
  | statements c =>
    if c.atEnd then return []
    else do
      let first ← (statement c).ask
      let rest ← (statements first.next).ask
      return first.value :: rest
  | whole c => do
    let e ← Grammar.expressionSteps c
    if e.next.atEnd then return e.value else Steps.done (throw (e.next.refuse .endOfInput))

namespace Steps

variable {α : Type}

theorem run_ask (production : Call) : production.ask.run = production.answer := by
  change production.answer >>= pure = _
  exact bind_pure _

theorem run_ask_bind (production : Call) (next : production.Value → Steps α) :
    (production.ask >>= next).run = production.answer >>= fun value => (next value).run := by
  rw [run_bind, run_ask]

theorem run_done (result : Except ParseError α) : (done result).run = result := rfl

end Steps

namespace Grammar

open Steps

variable {α : Type} {c : Cursor}

theorem run_expressionSteps (c : Cursor) : (expressionSteps c).run = expression c := run_ask _

theorem run_needAfterSteps (sign : Mark) (c : Cursor) :
    (needAfterSteps sign c).run = needAfter sign c := by
  simp only [needAfterSteps, run_bind, run_done, run_expressionSteps]
  rfl

theorem run_optionalAfterSteps (sign : Mark) (p : Parsed α c) :
    (optionalAfterSteps sign p).run = optionalAfter sign p := by
  unfold optionalAfterSteps optionalAfter
  cases p.next.takeMark? sign with
  | none => rfl
  | some mark =>
      simp only [run_bind, run_expressionSteps]
      rfl

theorem run_conditionSteps (head : Parsed α c) : (conditionSteps head).run = condition head := by
  simp only [conditionSteps, run_bind, run_done, run_expressionSteps]
  rfl

theorem run_varSteps (head : Parsed α c) : (varSteps head).run = varStatement head := by
  simp only [varSteps, run_bind, run_done, run_optionalAfterSteps]
  rfl

theorem run_unitSteps (head : Parsed α c) : (unitSteps head).run = unitStatement head := by
  simp only [unitSteps, run_bind, run_done, run_optionalAfterSteps]
  rfl

theorem run_constantSteps (head : Parsed α c) :
    (constantSteps head).run = constantStatement head := by
  simp only [constantSteps, run_bind, run_done, run_needAfterSteps]
  rfl

theorem run_assignmentSteps (target : Parsed String c) :
    (assignmentSteps target).run = assignment target := by
  simp only [assignmentSteps, run_bind, run_done, run_expressionSteps]
  rfl

theorem run_expressionStatementSteps (c : Cursor) :
    (expressionStatementSteps c).run = expressionStatement c := by
  simp only [expressionStatementSteps, run_bind, run_done, run_expressionSteps]
  rfl

end Grammar

namespace Call

open Steps

theorem run_steps (call : Call) : call.steps.run = call.answer := by
  match call with
  | level [] _ c =>
      rw [answer, Grammar.level]
      exact run_ask (signed c)
  | level (first :: tighter) within c =>
      rw [answer, Grammar.level, steps, run_ask_bind]
      exact bind_congr fun left => run_ask (chain first tighter within left)
  | chain first tighter within left =>
      rw [answer, Grammar.chain, steps]
      cases left.next.take? first.connector? with
      | none => rfl
      | some connector =>
          rw [run_ask_bind]
          exact bind_congr fun right => run_ask (chain first tighter within _)
  | signed c =>
      rw [answer, Grammar.signed, steps]
      cases c.take? SignOp.ofToken? with
      | none => exact run_ask (ascribed c)
      | some op =>
          rw [run_ask_bind]
          rfl
  | ascribed c =>
      rw [answer, Grammar.ascribed, steps, run_ask_bind]
      exact bind_congr fun operand => run_ask (units operand)
  | units operand =>
      rw [answer, Grammar.units, steps]
      cases startsUnit operand.next.kind? with
      | false => rfl
      | true =>
          rw [if_pos rfl, if_pos rfl, run_ask_bind]
          exact bind_congr fun unit => run_ask (units _)
  | power c =>
      rw [answer, Grammar.power, steps, run_ask_bind]
      exact bind_congr fun base => run_ask (powers base)
  | powers base =>
      rw [answer, Grammar.powers, steps]
      cases base.next.takeMark? .caret with
      | none => rfl
      | some caret =>
          rw [run_bind, run_done]
          exact bind_congr fun size => run_ask (powers _)
  | primary c =>
      rw [answer, Grammar.primary, steps]
      cases c.takeMark? .leftParen with
      | some opening =>
          simp only [run_bind, run_done, Grammar.run_expressionSteps]
          rfl
      | none =>
          rw [run_bind, run_done]
          rfl
  | statement c =>
      rw [answer, Grammar.statement, steps]
      cases c.take? StatementHead.ofToken? with
      | some head =>
          dsimp only
          cases head.value with
          | empty => rfl
          | var => exact Grammar.run_varSteps head
          | unit => exact Grammar.run_unitSteps head
          | constant => exact Grammar.run_constantSteps head
          | block =>
              rw [run_ask_bind]
              rfl
          | loop =>
              rw [run_bind, Grammar.run_conditionSteps]
              exact bind_congr fun test => run_ask_bind (statement test.next) _
          | branch =>
              rw [run_bind, Grammar.run_conditionSteps]
              refine bind_congr fun test => (run_ask_bind (statement test.next) _).trans ?_
              refine bind_congr fun yes => ?_
              cases (test.followedBy yes (test.value, yes.value)).next.take?
                  (Cursor.acceptKeyword .else) with
              | none => rfl
              | some other => exact run_ask_bind (statement other.next) _
      | none =>
          cases c.takeTarget? with
          | some target => exact Grammar.run_assignmentSteps target
          | none => exact Grammar.run_expressionStatementSteps c
  | blockBody c =>
      rw [answer, Grammar.blockBody, steps]
      cases c.takeMark? .rightBrace with
      | some closing => rfl
      | none =>
          cases c.atEnd with
          | true => rfl
          | false =>
              refine (run_ask_bind (statement c) _).trans (bind_congr fun first => ?_)
              exact run_ask_bind (blockBody first.next) _
  | statements c =>
      rw [answer, Grammar.statements, steps]
      cases c.atEnd with
      | true => rfl
      | false =>
          refine (run_ask_bind (statement c) _).trans (bind_congr fun first => ?_)
          exact run_ask_bind (statements first.next) _
  | whole c =>
      rw [answer, steps, run_bind, Grammar.run_expressionSteps]
      refine bind_congr fun e => ?_
      cases e.next.atEnd <;> rfl

end Call

end Quantities
