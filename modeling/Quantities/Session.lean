import Quantities.Context
import Quantities.Evaluation.Statement
import Quantities.Grammar.Statement
import Quantities.Typing.Statement

/-!
Sessions. The bindings of an input are kept for the inputs after it if all of the input succeeds.
An input that fails leaves the session as it was.
-/

namespace Quantities

/-- Why an input fails. -/
inductive Failure where
  | parsing (error : ParseError)
  | typing (fault : Fault)
  | running (fault : Fault)
deriving Repr

def Failure.diagnostic : Failure → Diagnostic
  | parsing error => error.diagnostic
  | typing fault => fault.diagnostic .typing
  | running fault => fault.diagnostic .running

/-- What an input comes to: the value or type of its last statement, if that has one. -/
abbrev Outcome := Except Failure (Option Value)

/-- The bindings of a session. Until a first input succeeds they share the cells of the bindings
at the start, and cells of their own afterwards. -/
inductive Bindings where
  | shared (scope : Scope)
  | own (context : Context)
deriving Repr

/-- The context at the start, and the bindings made since. -/
structure Session where
  initial : Context
  bindings : Bindings
deriving Repr

namespace Session

def ofContext (initial : Context) : Session := ⟨initial, .shared initial.scope⟩

/-- A session without bindings. -/
def empty : Session := ofContext .empty

/-- A session with the usual units. -/
def prelude : Session := ofContext .prelude

def context (session : Session) : Context :=
  match session.bindings with
  | .shared scope => { session.initial with scope }
  | .own context => context

/-- Changes the bindings where they are, in shared cells too. -/
def update (session : Session) (change : Context → Context) : Session :=
  let changed := change session.context
  match session.bindings with
  | .shared _ =>
    ⟨{ session.initial with cells := changed.cells }, .shared changed.scope⟩
  | .own _ => { session with bindings := .own changed }

/-- Checks a program and then runs it from where the check left off. -/
def runProgram (rounds : Nat) (session : Session) (program : List Stmt) :
    Option (Outcome × Session) :=
  let checked := Stmt.checkAll program none session.context
  match checked.result with
  | .error fault => some (.error (.typing fault), session)
  | .ok _ =>
    match Stmt.runAll rounds program none checked.context with
    | none => none
    | some ⟨.error fault, _⟩ => some (.error (.running fault), session)
    | some ⟨.ok last, context⟩ => some (.ok last, { session with bindings := .own context })

/-- Runs an input. There is no answer when one of its loops takes more rounds than allowed. -/
def run (rounds : Nat) (session : Session) (source : String) : Option (Outcome × Session) :=
  match Program.ofSource source with
  | .error error => some (.error (.parsing error), session)
  | .ok program => session.runProgram rounds program

/-- The type of the last statement of an input, which is not run. -/
def check (session : Session) (source : String) : Outcome :=
  match Program.ofSource source with
  | .error error => .error (.parsing error)
  | .ok program => (Stmt.checkAll program none session.context).result.mapError .typing

/-- The type of a single expression. -/
def typeOf (session : Session) (source : String) : Except Failure Value :=
  match Expr.ofSource source with
  | .error error => .error (.parsing error)
  | .ok e => (e.infer session.context.getType?).mapError .typing

/-- Forgets the value of a name and keeps its type. A name without a type is refused. -/
def forget? (session : Session) (name : String) : Option Session := do
  let type ← session.context.getType? name
  return session.update fun context =>
    ((context.deleteValue name).deleteType name).addType name (.hole name type.abstractType)

/-- Forgets everything that was bound since the start. -/
def reset (session : Session) : Session :=
  { session with bindings := .shared session.initial.scope }

end Session

end Quantities
