import Quantities.Prompt.Command
import Quantities.Report
import Quantities.Session
import Quantities.Tree.Outline
import Quantities.Tree.Text

/-! The prompt: what is answered to a line, and the session that goes on after it. -/

namespace Quantities

inductive Reply where
  | output (text : String)
  | silent
  | error (text : String)
  | leave
deriving Repr, DecidableEq

namespace Reply

/-- The report on a failure, drawn against the text that failed. -/
def failed (source : String) (failure : Failure) : Reply :=
  error (failure.diagnostic.report source)

def ofExcept {α : Type} (source : String) (reply : α → Reply) : Except Failure α → Reply
  | .ok result => reply result
  | .error failure => failed source failure

/-- The answer to an expression that is only read. -/
def ofReading (source : String) (text : Expr → String) : Reply :=
  ofExcept source (output ∘ text) ((Expr.ofSource source).mapError .parsing)

def ofOutcome (source : String) : Outcome → Reply :=
  ofExcept source fun
    | some v => output v.text
    | none => silent

end Reply

namespace Prompt

def help : String :=
  "\n".intercalate [
    ".help          show this list",
    ".exit          leave",
    ".clear         forget everything bound so far",
    ".ast <expr>    print the syntax tree of an expression",
    ".parens <expr> print an expression with its grouping made explicit",
    ".type <expr>   print the type of an expression",
    ".undef <name>  forget the value of a name, keeping its type"]

def outline (e : Expr) : String := String.ofList (Text.trimEnd e.outline.toList)

end Prompt

namespace Session

/-- Carries out a command. There is no answer when a loop takes more rounds than allowed. -/
def handle (rounds : Nat) (session : Session) : Command → Option (Reply × Session)
  | .help => some (.output Prompt.help, session)
  | .leave => some (.leave, session)
  | .clear => some (.silent, session.reset)
  | .outline source => some (.ofReading source Prompt.outline, session)
  | .grouping source => some (.ofReading source Expr.groupedText, session)
  | .typeOf source =>
    some (.ofExcept source (.output ∘ Value.typeText) (session.typeOf source), session)
  | .forget name =>
    match session.forget? name with
    | some next => some (.silent, next)
    | none =>
      let problem : Problem String := .nameNotDefined name
      some (.error (problem.message id), session)
  | .run source =>
    if source.isEmpty then some (.silent, session)
    else (session.run rounds source).map fun (outcome, next) => (.ofOutcome source outcome, next)
  | .unknown name =>
    some (.error ("unknown command '." ++ name ++ "', try .help"), session)

/-- Answers a line at the prompt. -/
def reply (rounds : Nat) (session : Session) (line : String) : Option (Reply × Session) :=
  session.handle rounds (.ofLine line)

end Session

end Quantities
