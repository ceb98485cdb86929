import Quantities.Folder
import Quantities.Prompt
import Quantities.Text.Cut

/-!
The command line: what the arguments ask for, and what is written in answer. Reading files and
writing the answer are left to the caller.
-/

namespace Quantities

/-- Text for the standard output and for the errors. -/
structure Written where
  output : String
  errors : String
deriving Repr, DecidableEq

namespace Written

def nothing : Written := ⟨"", ""⟩

def line (text : String) : Written := ⟨text ++ "\n", ""⟩

def errorLine (text : String) : Written := ⟨"", text ++ "\n"⟩

def append (first second : Written) : Written :=
  ⟨first.output ++ second.output, first.errors ++ second.errors⟩

instance : Append Written := ⟨append⟩

def ofReply : Reply → Written
  | .output text => line text
  | .silent => nothing
  | .error text => errorLine (String.ofList (Text.trimEnd text.toList))
  | .leave => nothing

end Written

/-- What a run of the program writes, and the code that it ends with. -/
structure Ending where
  code : Nat
  written : Written
deriving Repr, DecidableEq

namespace CommandLine

inductive Request where
  | prompt
  | run (path : String)
  | check (path : String)
  | usage
  | incomplete (command : String)
  | unknown (command : String)
deriving Repr, DecidableEq

/-- The option that may stand anywhere among the arguments. -/
def withoutPrelude : String := "--no-prelude"

namespace Request

/-- What the arguments other than the option ask for. -/
def ofWords : List String → Request
  | [] => prompt
  | ["run", path] => run path
  | ["check", path] => check path
  | ["help"] => usage
  | ["--help"] => usage
  | ["-h"] => usage
  | command :: _ =>
    if command = "run" ∨ command = "check" then incomplete command else unknown command

def ofArguments (arguments : List String) : Request :=
  ofWords (arguments.filter (· != withoutPrelude))

/-- The file that has to be read. -/
def path? : Request → Option String
  | run path => some path
  | check path => some path
  | _ => none

end Request

/-- The session that the arguments ask for. -/
def session (arguments : List String) : Session :=
  if withoutPrelude ∈ arguments then .empty else .prelude

def usage : Written :=
  .line <| "\n".intercalate [
    "watt: a language for quantities with units",
    "",
    "Usage: watt [--no-prelude] [command]",
    "",
    "Commands:",
    "  (none)             Start the interactive prompt",
    "  run <file.watt>    Check and evaluate a file, printing the last value",
    "  check <file.watt>  Type-check a file, printing the last type",
    "  help               Show this message",
    "",
    "Options:",
    "  --no-prelude       Start without the built-in units m, s, km, min, h"]

def unreadable (path : String) (cause : Unreadable) : Ending :=
  ⟨1, .errorLine ("error: cannot read '" ++ path ++ "': " ++ cause.reason)⟩

/-- How a run over a file ends. A failure is reported against the text of the file. -/
def ofOutcome (source : String) (shown : Value → String) : Outcome → Ending
  | .ok (some v) => ⟨0, .line (shown v)⟩
  | .ok none => ⟨0, .nothing⟩
  | .error failure => ⟨1, ⟨"", failure.diagnostic.report source⟩⟩

/-- What stands in front of a line that is waited for. -/
def promptSign : Written := ⟨"> ", ""⟩

/-- Answers lines until one of them leaves, or there are no more. -/
def converse (rounds : Nat) (session : Session) : List String → Option Written
  | [] => some promptSign
  | line :: rest => do
    let (reply, next) ← session.reply rounds line
    let after ← if reply = .leave then some .nothing else converse rounds next rest
    return promptSign ++ .ofReply reply ++ after

/-- The lines of an input, each with its line feed. -/
def inputLines (input : String) : List String :=
  (Text.cutLines input.toList).map String.ofList

/-- Carries out a request. Reading a path gives the text there, or why there is none. There is no
answer when a loop takes more rounds than allowed. -/
def Request.ending (rounds : Nat) (session : Session) (read : String → Except Unreadable String)
    (input : String) : Request → Option Ending
  | prompt => (converse rounds session (inputLines input)).map (⟨0, ·⟩)
  | run path =>
    match read path with
    | .error cause => some (unreadable path cause)
    | .ok source =>
      (session.run rounds source).map fun (outcome, _) => ofOutcome source Value.text outcome
  | check path =>
    match read path with
    | .error cause => some (unreadable path cause)
    | .ok source => some (ofOutcome source Value.typeText (session.check source))
  | usage => some ⟨0, CommandLine.usage⟩
  | incomplete command => some ⟨1, .errorLine ("Usage: watt " ++ command ++ " <file.watt>")⟩
  | unknown command =>
    some ⟨1, .errorLine ("Unknown command: " ++ command ++ "\n") ++ CommandLine.usage⟩

/-- Carries out what the arguments ask for. -/
def ending (rounds : Nat) (arguments : List String) (read : String → Except Unreadable String)
    (input : String) : Option Ending :=
  (Request.ofArguments arguments).ending rounds (session arguments) read input

end CommandLine

end Quantities
