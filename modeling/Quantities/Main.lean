import Quantities.CommandLine

/-! The program: reads files and lines, and writes what the command line answers. -/

namespace Quantities.Program

/-- More rounds than any loop that comes to an end takes. -/
def rounds : Nat := Nat.pow 10 18

def write (written : Written) : IO Unit := do
  let output ← IO.getStdout
  output.putStr written.output
  output.flush
  (← IO.getStderr).putStr written.errors

/-- The text of a file, or why there is none. -/
def readText (path : String) : IO (Except Unreadable String) := do
  try
    match String.fromUTF8? (← IO.FS.readBinFile path) with
    | some text => return .ok text
    | none => return .error .notText
  catch
    | .noFileOrDirectory .. => return .error .missing
    | .inappropriateType none .. => return .error .isFolder
    | .inappropriateType (some _) .. => return .error .notFolder
    | failure => return .error (.other (toString failure))

/-- Answers lines as they come. -/
partial def converse (session : Session) : IO Unit := do
  write CommandLine.promptSign
  let line ← (← IO.getStdin).getLine
  if line.isEmpty then return
  match session.reply rounds line with
  | none => return
  | some (reply, next) =>
    write (.ofReply reply)
    if reply = .leave then return
    converse next

def execute (arguments : List String) : IO UInt32 := do
  let request := CommandLine.Request.ofArguments arguments
  let session := CommandLine.session arguments
  if request = .prompt then
    converse session
    return 0
  let text ← match request.path? with
    | some path => readText path
    | none => pure (.error .missing)
  match request.ending rounds session (fun _ => text) "" with
  | some ending =>
    write ending.written
    return ending.code.toUInt32
  | none => return 1

end Quantities.Program

def main (arguments : List String) : IO UInt32 := Quantities.Program.execute arguments
