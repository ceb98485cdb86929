import Quantities.Text.Space

/-! Lines at the prompt. A line that begins with a dot is a command, any other one is run. -/

namespace Quantities

inductive Command where
  | help
  | leave
  | clear
  | outline (source : String)
  | grouping (source : String)
  | typeOf (source : String)
  | forget (name : String)
  | run (source : String)
  | unknown (name : String)
deriving Repr, DecidableEq

namespace Command

def ofWord (word argument : String) : Command :=
  match word with
  | "help" => help
  | "exit" => leave
  | "quit" => leave
  | "clear" => clear
  | "ast" => outline argument
  | "parens" => grouping argument
  | "type" => typeOf argument
  | "undef" => forget argument
  | other => unknown other

/-- The word after the dot goes up to the first space, and the rest is its argument. -/
def ofLine (line : String) : Command :=
  match Text.trim line.toList with
  | '.' :: rest =>
    let word := rest.takeWhile fun c => !Text.isSpace c
    let argument := Text.trim (rest.drop word.length)
    ofWord (String.ofList word) (String.ofList argument)
  | source => run (String.ofList source)

end Command

end Quantities
