import Quantities.Number
import Quantities.Text.Cut
import Quantities.Tree

/-!
Trees written as source text. An expression keeps the parentheses it has. The statements of a block
stand on lines of their own, indented by two blanks.
-/

namespace Quantities

namespace Expr

def text : Expr → String
  | number _ x => Number.text x
  | bool _ truth => if truth then "true" else "false"
  | typeWord _ word => word.text
  | name _ text => text
  | paren _ inner => "(" ++ inner.text ++ ")"
  | sign _ op operand => op.symbol ++ operand.text
  | power _ base exponent => base.text ++ "^" ++ Number.text exponent
  | binary _ op left right => left.text ++ " " ++ op.symbol ++ " " ++ right.text
  | logical _ op left right => left.text ++ " " ++ op.symbol ++ " " ++ right.text
  | ascription _ operand unit => operand.text ++ " " ++ unit.text
  | conversion _ operand unit => operand.text ++ " as " ++ unit.text

/-- The text with all grouping made explicit by parentheses. -/
def groupedText (e : Expr) : String := e.explicit.text

end Expr

/-- Every line of the text two blanks further in, each with a line feed at its end. -/
def indented (text : String) : String :=
  String.join ((Text.cutLines text.toList).map fun line =>
    "  " ++ String.ofList (Text.withoutEnd line) ++ "\n")

namespace Stmt

def optionalText (before : String) : Option Expr → String
  | some e => before ++ e.text
  | none => ""

mutual

def text : Stmt → String
  | empty _ => ";"
  | block _ body => "\x7b\n" ++ bodyText body ++ "\x7d"
  | branch _ condition yes none => "if (" ++ condition.text ++ ") " ++ yes.text
  | branch _ condition yes (some no) =>
    "if (" ++ condition.text ++ ") " ++ yes.text ++ " else " ++ no.text
  | loop _ condition body => "while (" ++ condition.text ++ ") " ++ body.text
  | var _ name declared initial =>
    "var " ++ name ++ optionalText ": " declared ++ optionalText " = " initial ++ ";"
  | unit _ name definition => "unit " ++ name ++ optionalText " = " definition ++ ";"
  | assign _ name rhs => name ++ " := " ++ rhs.text ++ ";"
  | constant _ name rhs => "let " ++ name ++ " = " ++ rhs.text ++ ";"
  | expr _ e => e.text ++ ";"

def bodyText : List Stmt → String
  | [] => ""
  | first :: rest => indented first.text ++ bodyText rest

end

end Stmt

end Quantities
