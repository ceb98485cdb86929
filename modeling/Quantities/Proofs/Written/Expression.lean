import Quantities.Proofs.Grammar.Derivation
import Quantities.Proofs.Written.Pieces
import Quantities.Tree.Text

/-!
Expressions written out. The text of the tree of a derivation is read as a row of tokens with the
same tree. The row may be another one, for the exponent of a power may be written without its sign.
-/

namespace Quantities

/-- The numbers in an expression, exponents too. -/
def Expr.numbers : Expr → List Float
  | .number _ x => [x]
  | .bool .. | .typeWord .. | .name .. => []
  | .paren _ part | .sign _ _ part => part.numbers
  | .power _ base exponent => base.numbers ++ [exponent]
  | .binary _ _ left right | .logical _ _ left right | .ascription _ left right
  | .conversion _ left right => left.numbers ++ right.numbers

theorem Expr.numbers_bare (e : Expr) : e.bare.numbers = e.numbers := by
  induction e with
  | paren _ _ ih | sign _ _ _ ih => exact ih
  | power _ _ _ ih => rw [bare, numbers, numbers, ih]
  | binary _ _ _ _ leftIh rightIh | logical _ _ _ _ leftIh rightIh
  | ascription _ _ _ leftIh rightIh | conversion _ _ _ leftIh rightIh =>
      rw [bare, numbers, numbers, leftIh, rightIh]
  | _ => rfl

theorem Expr.text_bare (e : Expr) : e.bare.text = e.text := by
  induction e with
  | paren _ _ ih | sign _ _ _ ih | power _ _ _ ih => rw [bare, text, text, ih]
  | binary _ _ _ _ leftIh rightIh | logical _ _ _ _ leftIh rightIh
  | ascription _ _ _ leftIh rightIh | conversion _ _ _ leftIh rightIh =>
      rw [bare, text, text, leftIh, rightIh]
  | _ => rfl

/-- The text writes tokens and does not go on a mark in front of it. -/
structure Stands (text : List Char) (tokens : List TokenKind) : Prop where
  writes : Writes text tokens
  parts : Parts text

section

variable {text : List Char} {tokens : List TokenKind}

theorem Stands.sign (op : SignOp) (operand : Stands text tokens) :
    Stands (op.symbol.toList ++ text) (op.kind :: tokens) := by
  cases op with
  | not => exact ⟨operand.writes.mark .bang operand.parts, .cons (by decide) _⟩
  | plus => exact ⟨operand.writes.mark .plus operand.parts, .cons (by decide) _⟩
  | minus => exact ⟨operand.writes.mark .minus operand.parts, .cons (by decide) _⟩

theorem Stands.append {more : List Char} {others : List TokenKind} (first : Stands text tokens)
    (breaks : Breaks more) (rest : Writes more others) : Stands (text ++ more) (tokens ++ others) :=
  ⟨first.writes.append breaks rest, first.parts.append breaks.parts⟩

end

namespace Connector

def symbol : Connector → String
  | .logical op => op.symbol
  | .binary op => op.symbol
  | .conversion => "as"

theorem text_node (connector : Connector) (left right : Expr) :
    (connector.node left right).text.toList =
      left.text.toList ++ ' ' :: (connector.symbol.toList ++ ' ' :: right.text.toList) := by
  cases connector <;> simp [node, symbol, Expr.text]

theorem numbers_node (connector : Connector) (left right : Expr) :
    (connector.node left right).numbers = left.numbers ++ right.numbers := by
  cases connector <;> rfl

theorem writes {text : List Char} {tokens : List TokenKind} (connector : Connector)
    (operand : Writes text tokens) :
    Writes (connector.symbol.toList ++ ' ' :: text) (connector.kind :: tokens) := by
  have blank : Breaks (' ' :: text) := .cons (by decide) text
  have sign (mark : Mark) : Writes (mark.text.toList ++ ' ' :: text) (.mark mark :: tokens) :=
    operand.blank.mark mark blank.parts
  cases connector with
  | logical op =>
      cases op with
      | and => exact sign .and
      | or => exact sign .or
  | binary op =>
      cases op with
      | times => exact sign .star
      | divide => exact sign .slash
      | modulo => exact sign .percent
      | plus => exact sign .plus
      | minus => exact sign .minus
      | equal => exact sign .equalEqual
      | notEqual => exact sign .notEqual
      | atMost => exact sign .atMost
      | atLeast => exact sign .atLeast
      | less => exact sign .less
      | greater => exact sign .greater
  | conversion => exact operand.blank.keyword .as blank

end Connector

theorem Atom.stands {single : Atom} {location : Location} (spelled : single.kind.Spelled)
    (readable : ∀ x ∈ (single.tree location).numbers, Number.Readable x) :
    Stands (single.tree location).text.toList [single.kind] := by
  have word (word : Keyword) : Stands word.text.toList [.keyword word] := by
    have written := Writes.nil.keyword word .nil
    rw [List.append_nil] at written
    exact ⟨written, word.isWord.parts⟩
  cases single with
  | number x =>
      have spells := (readable x List.mem_cons_self).spells spelled
      exact ⟨.number spells, spells.parts⟩
  | name text => exact ⟨.name spelled, spelled.1.parts⟩
  | truth value =>
      cases value with
      | true => exact word .true
      | false => exact word .false
  | word type =>
      cases type with
      | boolean => exact word .boolean
      | scalar => exact word .scalar

theorem Exponent.exists_stands {x : Float} (readable : Number.Readable x) :
    ∃ exponent : Exponent, exponent.value = x ∧
      Stands (Number.text x).toList exponent.yield := by
  cases negative : Number.isNegative x with
  | false =>
      have spells := readable.spells negative
      exact ⟨.plain x, rfl, .number spells, spells.parts⟩
  | true =>
      obtain ⟨digits, y, text, spells, rfl⟩ := readable.spells_neg negative
      rw [text]
      exact ⟨.minus y, rfl, Stands.sign .minus ⟨.number spells, spells.parts⟩⟩

/-- A way to write exponents. Those that can be read are read as they were. -/
theorem Exponent.exists_spelling : ∃ spell : Float → Exponent, ∀ x, Number.Readable x →
    (spell x).value = x ∧ Stands (Number.text x).toList (spell x).yield := by
  have spells (x : Float) : ∃ exponent : Exponent, Number.Readable x →
      exponent.value = x ∧ Stands (Number.text x).toList exponent.yield := by
    by_cases readable : Number.Readable x
    · obtain ⟨exponent, stands⟩ := exists_stands readable
      exact ⟨exponent, fun _ => stands⟩
    · exact ⟨.plain x, fun other => absurd other readable⟩
  exact Classical.skolem.mp spells

namespace Expr

/-- The tokens of the numbers, names and words in an expression. -/
def leaves : Expr → List TokenKind
  | number _ x => [.number x]
  | bool _ truth => [(Atom.truth truth).kind]
  | typeWord _ word => [(Atom.word word).kind]
  | name _ text => [.name text]
  | paren _ part | sign _ _ part | power _ part _ => part.leaves
  | binary _ _ left right | logical _ _ left right | ascription _ left right
  | conversion _ left right => left.leaves ++ right.leaves

/-- The tokens that an expression is written with, where `spell` writes the exponents. -/
def kinds (spell : Float → Exponent) : Expr → List TokenKind
  | number _ x => [.number x]
  | bool _ truth => [(Atom.truth truth).kind]
  | typeWord _ word => [(Atom.word word).kind]
  | name _ text => [.name text]
  | paren _ inner => .mark .leftParen :: inner.kinds spell ++ [.mark .rightParen]
  | sign _ op operand => op.kind :: operand.kinds spell
  | power _ base exponent => base.kinds spell ++ .mark .caret :: (spell exponent).yield
  | binary _ op left right =>
    left.kinds spell ++ (Connector.binary op).kind :: right.kinds spell
  | logical _ op left right =>
    left.kinds spell ++ (Connector.logical op).kind :: right.kinds spell
  | ascription _ operand unit => operand.kinds spell ++ unit.kinds spell
  | conversion _ operand unit =>
    operand.kinds spell ++ Connector.conversion.kind :: unit.kinds spell

theorem kinds_bare (spell : Float → Exponent) (e : Expr) : e.bare.kinds spell = e.kinds spell := by
  induction e with
  | paren _ _ ih | sign _ _ _ ih | power _ _ _ ih => rw [bare, kinds, kinds, ih]
  | binary _ _ _ _ leftIh rightIh | logical _ _ _ _ leftIh rightIh
  | ascription _ _ _ leftIh rightIh | conversion _ _ _ leftIh rightIh =>
      rw [bare, kinds, kinds, leftIh, rightIh]
  | _ => rfl

end Expr

theorem Stands.join {left right : Expr} {tokens others : List TokenKind} (connector : Connector)
    (first : Stands left.text.toList tokens) (second : Stands right.text.toList others) :
    Stands (connector.node left right).text.toList (tokens ++ connector.kind :: others) := by
  have blank : Breaks (' ' :: (connector.symbol.toList ++ ' ' :: right.text.toList)) :=
    .cons (by decide) _
  rw [connector.text_node]
  exact first.append blank (connector.writes second.writes).blank

/-- The text of a tree, whatever tree it is, is read as the tokens it is written with. -/
theorem Expr.stands {spell : Float → Exponent} {e : Expr}
    (spells : ∀ x ∈ e.numbers, Stands (Number.text x).toList (spell x).yield)
    (spelled : ∀ kind ∈ e.leaves, kind.Spelled) (readable : ∀ x ∈ e.numbers, Number.Readable x) :
    Stands e.text.toList (e.kinds spell) := by
  have alone (single : Atom) (location : Location) (spelled : single.kind.Spelled)
      (readable : ∀ x ∈ (single.tree location).numbers, Number.Readable x) :
      Stands (single.tree location).text.toList [single.kind] := Atom.stands spelled readable
  induction e with
  | number location x => exact alone (.number x) location (spelled _ List.mem_cons_self) readable
  | bool location truth =>
      exact alone (.truth truth) location (spelled _ List.mem_cons_self) readable
  | typeWord location word =>
      exact alone (.word word) location (spelled _ List.mem_cons_self) readable
  | name location text => exact alone (.name text) location (spelled _ List.mem_cons_self) readable
  | paren location inner ih =>
      have stands := ih spells spelled readable
      have closing : Writes [')'] [.mark .rightParen] :=
        Writes.nil.mark .rightParen Breaks.nil.parts
      have inside := stands.append (.cons (by decide) _) closing
      have opening : Writes ('(' :: (inner.text.toList ++ [')']))
          (.mark .leftParen :: (inner.kinds spell ++ [.mark .rightParen])) :=
        inside.writes.mark .leftParen inside.parts
      have stands : Stands _ _ := ⟨opening, .cons (by decide) _⟩
      simpa [text, kinds] using stands
  | sign location op operand ih =>
      rw [text, String.toList_append, kinds]
      exact (ih spells spelled readable).sign op
  | power location base exponent ih =>
      rw [numbers, List.forall_mem_append] at spells readable
      have exponentStands := spells.2 exponent List.mem_cons_self
      have raised : Writes ('^' :: (Number.text exponent).toList)
          (.mark .caret :: (spell exponent).yield) :=
        exponentStands.writes.mark .caret exponentStands.parts
      have stands := (ih spells.1 spelled readable.1).append (.cons (by decide) _) raised
      simpa [text, kinds] using stands
  | binary location op left right leftIh rightIh =>
      rw [numbers, List.forall_mem_append] at spells readable
      rw [leaves, List.forall_mem_append] at spelled
      exact .join (.binary op) (leftIh spells.1 spelled.1 readable.1)
        (rightIh spells.2 spelled.2 readable.2)
  | logical location op left right leftIh rightIh =>
      rw [numbers, List.forall_mem_append] at spells readable
      rw [leaves, List.forall_mem_append] at spelled
      exact .join (.logical op) (leftIh spells.1 spelled.1 readable.1)
        (rightIh spells.2 spelled.2 readable.2)
  | conversion location operand unit operandIh unitIh =>
      rw [numbers, List.forall_mem_append] at spells readable
      rw [leaves, List.forall_mem_append] at spelled
      exact .join .conversion (operandIh spells.1 spelled.1 readable.1)
        (unitIh spells.2 spelled.2 readable.2)
  | ascription location operand unit operandIh unitIh =>
      rw [numbers, List.forall_mem_append] at spells readable
      rw [leaves, List.forall_mem_append] at spelled
      have operandStands := operandIh spells.1 spelled.1 readable.1
      have unitStands := unitIh spells.2 spelled.2 readable.2
      have blank : Breaks (' ' :: unit.text.toList) := .cons (by decide) _
      have stands := operandStands.append blank unitStands.writes.blank
      simpa [text, kinds] using stands

namespace ExprDerivation

/-- The derivation with its exponents written in another way. -/
def respell (spell : Float → Exponent) {stratum : Stratum} :
    ExprDerivation stratum → ExprDerivation stratum
  | tighter inner => .tighter (inner.respell spell)
  | join connector atLevel left right =>
    .join connector atLevel (left.respell spell) (right.respell spell)
  | signed inner => .signed (inner.respell spell)
  | sign op operand => .sign op (operand.respell spell)
  | ascribed inner => .ascribed (inner.respell spell)
  | plain inner => .plain (inner.respell spell)
  | ascribe operand unit => .ascribe (operand.respell spell) (unit.respell spell)
  | primary inner => .primary (inner.respell spell)
  | power base exponent => .power (base.respell spell) (spell exponent.value)
  | atom single fits => .atom single fits
  | paren inner => .paren (inner.respell spell)

variable {spell : Float → Exponent} {stratum : Stratum}

theorem tree_respell {d : ExprDerivation stratum}
    (exact : ∀ x ∈ d.tree.numbers, (spell x).value = x) : (d.respell spell).tree = d.tree := by
  induction d with
  | tighter inner ih | signed inner ih | ascribed inner ih | plain inner ih | primary inner ih =>
      exact ih exact
  | join connector atLevel left right leftIh rightIh =>
      rw [tree, connector.numbers_node, List.forall_mem_append] at exact
      rw [respell, tree, tree, leftIh exact.1, rightIh exact.2]
  | sign op operand ih => rw [respell, tree, tree, ih exact]
  | ascribe operand unit operandIh unitIh =>
      rw [tree, Expr.numbers, List.forall_mem_append] at exact
      rw [respell, tree, tree, operandIh exact.1, unitIh exact.2]
  | power base exponent ih =>
      rw [tree, Expr.numbers, List.forall_mem_append] at exact
      rw [respell, tree, tree, ih exact.1, exact.2 _ List.mem_cons_self]
  | atom single fits => rfl
  | paren inner ih => rw [respell, tree, tree, ih exact]

theorem yield_respell (d : ExprDerivation stratum) :
    (d.respell spell).yield = d.tree.kinds spell := by
  induction d with
  | tighter inner ih | signed inner ih | ascribed inner ih | plain inner ih | primary inner ih =>
      exact ih
  | join connector atLevel left right leftIh rightIh =>
      rw [respell, yield, leftIh, rightIh, tree]
      cases connector <;> rfl
  | sign op operand ih => rw [respell, yield, ih, tree, Expr.kinds]
  | ascribe operand unit operandIh unitIh =>
      rw [respell, yield, operandIh, unitIh, tree, Expr.kinds]
  | power base exponent ih => rw [respell, yield, ih, tree, Expr.kinds]
  | atom single fits => cases single <;> rfl
  | paren inner ih => rw [respell, yield, ih, tree, Expr.kinds]

theorem mem_yield_of_leaf {d : ExprDerivation stratum} {kind : TokenKind}
    (member : kind ∈ d.tree.leaves) : kind ∈ d.yield := by
  induction d with
  | tighter inner ih | signed inner ih | ascribed inner ih | plain inner ih | primary inner ih =>
      exact ih member
  | join connector atLevel left right leftIh rightIh =>
      have leaves : (connector.node left.tree right.tree).leaves =
          left.tree.leaves ++ right.tree.leaves := by cases connector <;> rfl
      rw [tree, leaves] at member
      rcases List.mem_append.mp member with front | behind
      · exact List.mem_append_left _ (leftIh front)
      · exact List.mem_append_right _ (List.mem_cons_of_mem _ (rightIh behind))
  | sign op operand ih => exact List.mem_cons_of_mem _ (ih member)
  | ascribe operand unit operandIh unitIh =>
      rcases List.mem_append.mp member with front | behind
      · exact List.mem_append_left _ (operandIh front)
      · exact List.mem_append_right _ (unitIh behind)
  | power base exponent ih => exact List.mem_append_left _ (ih member)
  | atom single fits => cases single <;> exact member
  | paren inner ih => exact List.mem_append_left _ (List.mem_cons_of_mem _ (ih member))

theorem exists_stands (d : ExprDerivation stratum) (spelled : ∀ kind ∈ d.yield, kind.Spelled)
    (readable : ∀ x ∈ d.tree.numbers, Number.Readable x) :
    ∃ again : ExprDerivation stratum, again.tree = d.tree ∧
      Stands d.tree.text.toList again.yield := by
  obtain ⟨spell, spells⟩ := Exponent.exists_spelling
  refine ⟨d.respell spell, tree_respell fun x member => (spells x (readable x member)).1, ?_⟩
  rw [d.yield_respell]
  exact Expr.stands (fun x member => (spells x (readable x member)).2)
    (fun kind member => spelled kind (mem_yield_of_leaf member)) readable

end ExprDerivation

end Quantities
