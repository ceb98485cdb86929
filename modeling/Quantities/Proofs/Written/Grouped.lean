import Quantities.Proofs.Grammar.ExpressionCut
import Quantities.Proofs.Written.Program

/-!
Expressions written with all their grouping. Parentheses are left out around single words and numbers,
also around a number or a truth that is the unit of an ascription, where the grammar asks for them.
The tokens of the text say where these parentheses belong, and with them in place the text is read as
the expression again. So it tells all groupings apart, but is read only if no parentheses are missing.
-/

namespace Quantities

namespace Expr

/-- The expression without any of its parentheses. -/
def ungrouped : Expr → Expr
  | paren _ inner => inner.ungrouped
  | sign location op operand => sign location op operand.ungrouped
  | power location base exponent => power location base.ungrouped exponent
  | binary location op left right => binary location op left.ungrouped right.ungrouped
  | logical location op left right => logical location op left.ungrouped right.ungrouped
  | ascription location operand unit => ascription location operand.ungrouped unit.ungrouped
  | conversion location operand unit => conversion location operand.ungrouped unit.ungrouped
  | atom => atom

/-- A number or a truth, which does not stand as a unit by itself. -/
def isLiteral : Expr → Bool
  | number .. | bool .. => true
  | _ => false

/-- How many ascriptions have a number or a truth for their unit. -/
def literalUnits : Expr → Nat
  | number .. | bool .. | typeWord .. | name .. => 0
  | paren _ part | sign _ _ part | power _ part _ => part.literalUnits
  | binary _ _ left right | logical _ _ left right | conversion _ left right =>
    left.literalUnits + right.literalUnits
  | ascription _ operand unit =>
    operand.literalUnits + unit.literalUnits + if unit.ungrouped.isLiteral then 1 else 0

/-- Puts in parentheses what is not a unit without them. -/
def encloseUnit (e : Expr) : Expr := if e.isLiteral then paren e.location e else e.enclose

/-- As `explicit`, but with the parentheses that the units of ascriptions need. -/
def spoken : Expr → Expr
  | paren _ inner => inner.spoken
  | sign location op operand => sign location op operand.spoken.enclose
  | power location base exponent => power location base.spoken.enclose exponent
  | binary location op left right =>
    binary location op left.spoken.enclose right.spoken.enclose
  | logical location op left right =>
    logical location op left.spoken.enclose right.spoken.enclose
  | ascription location operand unit =>
    ascription location operand.spoken.enclose unit.spoken.encloseUnit
  | conversion location operand unit =>
    conversion location operand.spoken.enclose unit.spoken.enclose
  | atom => atom

/-- What is in all the parentheses around an expression is one token, or it is several in all of its
forms. -/
theorem single_or_several (e : Expr) :
    (∃ (single : Atom) (location : Location), e.ungrouped = single.tree location ∧
      e.explicit = single.tree location ∧ e.spoken = single.tree location) ∨
    e.ungrouped.isAtomic = false ∧ e.explicit.isAtomic = false ∧ e.spoken.isAtomic = false := by
  induction e with
  | number location x => exact .inl ⟨.number x, location, rfl, rfl, rfl⟩
  | bool location truth => exact .inl ⟨.truth truth, location, rfl, rfl, rfl⟩
  | typeWord location word => exact .inl ⟨.word word, location, rfl, rfl, rfl⟩
  | name location text => exact .inl ⟨.name text, location, rfl, rfl, rfl⟩
  | paren location inner ih => exact ih
  | _ => exact .inr ⟨rfl, rfl, rfl⟩

theorem ungrouped_enclose (e : Expr) : e.enclose.ungrouped = e.ungrouped := by
  unfold enclose
  split <;> rfl

theorem ungrouped_encloseUnit (e : Expr) : e.encloseUnit.ungrouped = e.ungrouped := by
  unfold encloseUnit
  split
  next => rfl
  next => exact e.ungrouped_enclose

theorem ungrouped_spoken (e : Expr) : e.spoken.ungrouped = e.ungrouped := by
  induction e with
  | paren _ _ ih => exact ih
  | sign _ _ _ ih | power _ _ _ ih => rw [spoken, ungrouped, ungrouped_enclose, ih, ungrouped]
  | binary _ _ _ _ leftIh rightIh | logical _ _ _ _ leftIh rightIh | conversion _ _ _ leftIh rightIh =>
      rw [spoken, ungrouped, ungrouped_enclose, ungrouped_enclose, leftIh, rightIh, ungrouped]
  | ascription _ _ _ operandIh unitIh =>
      rw [spoken, ungrouped, ungrouped_enclose, ungrouped_encloseUnit, operandIh, unitIh, ungrouped]
  | _ => rfl

theorem ungrouped_bare (e : Expr) : e.bare.ungrouped = e.ungrouped.bare := by
  induction e with
  | paren _ _ ih => exact ih
  | sign _ _ _ ih | power _ _ _ ih => rw [bare, ungrouped, ungrouped, bare, ih]
  | binary _ _ _ _ leftIh rightIh | logical _ _ _ _ leftIh rightIh
  | ascription _ _ _ leftIh rightIh | conversion _ _ _ leftIh rightIh =>
      rw [bare, ungrouped, ungrouped, bare, leftIh, rightIh]
  | _ => rfl

theorem enclose_bare (e : Expr) : e.enclose.bare = e.bare.enclose := by
  cases e <;> rfl

theorem explicit_bare (e : Expr) : e.bare.explicit = e.explicit.bare := by
  induction e with
  | paren _ _ ih => exact ih
  | sign _ _ _ ih | power _ _ _ ih => rw [bare, explicit, explicit, bare, enclose_bare, ih]
  | binary _ _ _ _ leftIh rightIh | logical _ _ _ _ leftIh rightIh
  | ascription _ _ _ leftIh rightIh | conversion _ _ _ leftIh rightIh =>
      rw [bare, explicit, explicit, bare, enclose_bare, enclose_bare, leftIh, rightIh]
  | _ => rfl

theorem explicit_ungrouped (e : Expr) : e.ungrouped.explicit = e.explicit := by
  induction e with
  | paren _ _ ih => exact ih
  | sign _ _ _ ih | power _ _ _ ih => rw [ungrouped, explicit, explicit, ih]
  | binary _ _ _ _ leftIh rightIh | logical _ _ _ _ leftIh rightIh
  | ascription _ _ _ leftIh rightIh | conversion _ _ _ leftIh rightIh =>
      rw [ungrouped, explicit, explicit, leftIh, rightIh]
  | _ => rfl

theorem groupedText_congr {e other : Expr} (same : e.ungrouped.bare = other.ungrouped.bare) :
    e.groupedText = other.groupedText := by
  rw [groupedText, groupedText, ← explicit_ungrouped, ← text_bare, ← explicit_bare, same,
    explicit_bare, text_bare, explicit_ungrouped]

theorem ungrouped_explicit (e : Expr) : e.explicit.ungrouped = e.ungrouped := by
  induction e with
  | paren _ _ ih => exact ih
  | sign _ _ _ ih | power _ _ _ ih => rw [explicit, ungrouped, ungrouped_enclose, ih, ungrouped]
  | binary _ _ _ _ leftIh rightIh | logical _ _ _ _ leftIh rightIh
  | ascription _ _ _ leftIh rightIh | conversion _ _ _ leftIh rightIh =>
      rw [explicit, ungrouped, ungrouped_enclose, ungrouped_enclose, leftIh, rightIh, ungrouped]
  | _ => rfl

theorem numbers_ungrouped (e : Expr) : e.ungrouped.numbers = e.numbers := by
  induction e with
  | paren _ _ ih => exact ih
  | sign _ _ _ ih | power _ _ _ ih => rw [ungrouped, numbers, ih, numbers]
  | binary _ _ _ _ leftIh rightIh | logical _ _ _ _ leftIh rightIh
  | ascription _ _ _ leftIh rightIh | conversion _ _ _ leftIh rightIh =>
      rw [ungrouped, numbers, leftIh, rightIh, numbers]
  | _ => rfl

theorem leaves_ungrouped (e : Expr) : e.ungrouped.leaves = e.leaves := by
  induction e with
  | paren _ _ ih => exact ih
  | sign _ _ _ ih | power _ _ _ ih => rw [ungrouped, leaves, ih, leaves]
  | binary _ _ _ _ leftIh rightIh | logical _ _ _ _ leftIh rightIh
  | ascription _ _ _ leftIh rightIh | conversion _ _ _ leftIh rightIh =>
      rw [ungrouped, leaves, leftIh, rightIh, leaves]
  | _ => rfl

theorem leaves_bare (e : Expr) : e.bare.leaves = e.leaves := by
  induction e with
  | paren _ _ ih | sign _ _ _ ih | power _ _ _ ih => exact ih
  | binary _ _ _ _ leftIh rightIh | logical _ _ _ _ leftIh rightIh
  | ascription _ _ _ leftIh rightIh | conversion _ _ _ leftIh rightIh =>
      rw [bare, leaves, leftIh, rightIh, leaves]
  | _ => rfl

theorem numbers_explicit (e : Expr) : e.explicit.numbers = e.numbers := by
  rw [← numbers_ungrouped, ungrouped_explicit, numbers_ungrouped]

theorem leaves_explicit (e : Expr) : e.explicit.leaves = e.leaves := by
  rw [← leaves_ungrouped, ungrouped_explicit, leaves_ungrouped]

theorem numbers_spoken (e : Expr) : e.spoken.numbers = e.numbers := by
  rw [← numbers_ungrouped, ungrouped_spoken, numbers_ungrouped]

end Expr

namespace ExprDerivation

/-- What is read with a sign in front, or none, is read at every level. -/
def ofSigned (d : ExprDerivation .signed) : (levels : List Level) → ExprDerivation (.level levels)
  | [] => .signed d
  | _ :: rest => .tighter (ofSigned d rest)

theorem tree_ofSigned (d : ExprDerivation .signed) (levels : List Level) :
    (d.ofSigned levels).tree = d.tree := by
  induction levels with
  | nil => rfl
  | cons first rest ih => exact ih

end ExprDerivation

theorem Connector.exists_phrase (connector : Connector) (left right : ExprDerivation .signed) :
    ∃ d : Phrase, d.tree = connector.node left.tree right.tree := by
  obtain ⟨rest, within⟩ : ∃ rest, connector.level :: rest <:+ Level.all := by
    cases connector.level with
    | disjunction => exact ⟨_, List.suffix_refl _⟩
    | conjunction => exact ⟨_, ⟨[.disjunction], rfl⟩⟩
    | comparison => exact ⟨_, ⟨[.disjunction, .conjunction], rfl⟩⟩
    | conversion => exact ⟨_, ⟨[.disjunction, .conjunction, .comparison], rfl⟩⟩
    | sum => exact ⟨_, ⟨[.disjunction, .conjunction, .comparison, .conversion], rfl⟩⟩
    | product => exact ⟨_, ⟨[.disjunction, .conjunction, .comparison, .conversion, .sum], rfl⟩⟩
  obtain ⟨d, -, tree⟩ := ExprDerivation.exists_phrase_of_level
    (.join connector rfl (left.ofSigned _) (right.ofSigned rest)) within
  refine ⟨d, tree.trans ?_⟩
  rw [ExprDerivation.tree, ExprDerivation.tree_ofSigned, ExprDerivation.tree_ofSigned]

namespace Expr

variable {e : Expr}

theorem exists_operand (phrase : ∃ d : Phrase, d.tree = e.spoken.bare) :
    ∃ d : ExprDerivation (.power false), d.tree = e.spoken.enclose.bare := by
  rcases e.single_or_several with ⟨single, location, -, -, spoken⟩ | ⟨-, -, several⟩
  · refine ⟨.primary (.atom single (absurd · Bool.false_ne_true)), ?_⟩
    rw [spoken]
    cases single <;> rfl
  · obtain ⟨d, tree⟩ := phrase
    refine ⟨.primary (.paren d), ?_⟩
    rw [enclose, several, if_neg Bool.false_ne_true, bare, ← tree]
    rfl

theorem exists_unit (phrase : ∃ d : Phrase, d.tree = e.spoken.bare) :
    ∃ d : ExprDerivation (.power true), d.tree = e.spoken.encloseUnit.bare := by
  obtain ⟨d, tree⟩ := phrase
  rcases e.single_or_several with ⟨single, location, -, -, spoken⟩ | ⟨-, -, several⟩
  · rw [spoken] at tree ⊢
    cases single with
    | name text => exact ⟨.primary (.atom (.name text) fun _ => rfl), rfl⟩
    | word type => exact ⟨.primary (.atom (.word type) fun _ => rfl), rfl⟩
    | number x => exact ⟨.primary (.paren d), congrArg (Expr.paren .nowhere) tree⟩
    | truth value => exact ⟨.primary (.paren d), congrArg (Expr.paren .nowhere) tree⟩
  · refine ⟨.primary (.paren d), ?_⟩
    have notLiteral : e.spoken.isLiteral = false := by
      cases spoken : e.spoken with
      | number location x | bool location truth =>
          rw [spoken] at several
          cases several
      | _ => rfl
    rw [encloseUnit, notLiteral, if_neg Bool.false_ne_true, enclose, several,
      if_neg Bool.false_ne_true, bare, ← tree]
    rfl

/-- With all its parentheses every expression is derived, also one that no text is read as. -/
theorem exists_spoken (e : Expr) : ∃ d : Phrase, d.tree = e.spoken.bare := by
  have join (connector : Connector) {left right : Expr}
      (leftIh : ∃ d : Phrase, d.tree = left.spoken.bare)
      (rightIh : ∃ d : Phrase, d.tree = right.spoken.bare) :
      ∃ d : Phrase, d.tree = connector.node left.spoken.enclose.bare right.spoken.enclose.bare := by
    obtain ⟨l, leftTree⟩ := exists_operand leftIh
    obtain ⟨r, rightTree⟩ := exists_operand rightIh
    obtain ⟨d, tree⟩ := connector.exists_phrase (.ascribed (.plain l)) (.ascribed (.plain r))
    refine ⟨d, tree.trans ?_⟩
    rw [← leftTree, ← rightTree]
    rfl
  have whole (d : ExprDerivation .signed) : ∃ phrase : Phrase, phrase.tree = d.tree :=
    ⟨d.ofSigned Level.all, d.tree_ofSigned _⟩
  induction e with
  | number location x =>
      exact whole (.ascribed (.plain (.primary (.atom (.number x) (absurd · Bool.false_ne_true)))))
  | bool location truth =>
      exact whole (.ascribed (.plain (.primary (.atom (.truth truth) (absurd · Bool.false_ne_true)))))
  | typeWord location word => exact whole (.ascribed (.plain (.primary (.atom (.word word) fun _ => rfl))))
  | name location text => exact whole (.ascribed (.plain (.primary (.atom (.name text) fun _ => rfl))))
  | paren location inner ih => exact ih
  | sign location op operand ih =>
      obtain ⟨d, tree⟩ := exists_operand ih
      have written := whole (.sign op (.ascribed (.plain d)))
      simp only [ExprDerivation.tree, tree] at written
      exact written
  | power location base exponent ih =>
      obtain ⟨d, tree⟩ := exists_operand ih
      have written := whole (.ascribed (.plain (.power d (.plain exponent))))
      simp only [ExprDerivation.tree, tree] at written
      exact written
  | binary location op left right leftIh rightIh => exact join (.binary op) leftIh rightIh
  | logical location op left right leftIh rightIh => exact join (.logical op) leftIh rightIh
  | conversion location operand unit operandIh unitIh => exact join .conversion operandIh unitIh
  | ascription location operand unit operandIh unitIh =>
      obtain ⟨d, tree⟩ := exists_operand operandIh
      obtain ⟨u, unitTree⟩ := exists_unit unitIh
      have written := whole (.ascribed (.ascribe (.plain d) u))
      simp only [ExprDerivation.tree, tree, unitTree] at written
      exact written

end Expr

namespace TokenKind

def isLiteral : TokenKind → Bool
  | .number _ | .keyword .true | .keyword .false => true
  | _ => false

/-- Whether an operand may end with the token. -/
def endsOperand : TokenKind → Bool
  | .number _ | .name _ | .mark .rightParen => true
  | .keyword .true | .keyword .false | .keyword .boolean | .keyword .scalar => true
  | _ => false

/-- Puts every number and truth that comes behind an operand in parentheses. -/
def encloseLiterals : (behindOperand : Bool) → List TokenKind → List TokenKind
  | _, [] => []
  | behindOperand, kind :: rest =>
    if behindOperand && kind.isLiteral then
      .mark .leftParen :: kind :: .mark .rightParen :: encloseLiterals true rest
    else kind :: encloseLiterals kind.endsOperand rest

variable {kind : TokenKind} (rest : List TokenKind)

theorem encloseLiterals_first (kind : TokenKind) :
    encloseLiterals false (kind :: rest) = kind :: encloseLiterals kind.endsOperand rest := rfl

theorem encloseLiterals_of_not_literal (behindOperand : Bool) (other : kind.isLiteral = false) :
    encloseLiterals behindOperand (kind :: rest) = kind :: encloseLiterals kind.endsOperand rest := by
  rw [encloseLiterals, other, Bool.and_false, if_neg Bool.false_ne_true]

end TokenKind

open TokenKind

theorem Atom.endsOperand_kind (single : Atom) : single.kind.endsOperand = true := by
  cases single with
  | number x | name text => rfl
  | truth value => cases value <;> rfl
  | word type => cases type <;> rfl

theorem Atom.isLiteral_kind (single : Atom) : single.kind.isLiteral = !single.isUnit := by
  cases single with
  | number x | name text => rfl
  | truth value => cases value <;> rfl
  | word type => cases type <;> rfl

theorem Connector.encloseLiterals_kind (connector : Connector) (behindOperand : Bool)
    (rest : List TokenKind) :
    encloseLiterals behindOperand (connector.kind :: rest) =
      connector.kind :: encloseLiterals false rest := by
  have parts : connector.kind.isLiteral = false ∧ connector.kind.endsOperand = false := by
    cases connector with
    | logical op => cases op <;> exact ⟨rfl, rfl⟩
    | binary op => cases op <;> exact ⟨rfl, rfl⟩
    | conversion => exact ⟨rfl, rfl⟩
  rw [encloseLiterals_of_not_literal rest behindOperand parts.1, parts.2]

theorem SignOp.encloseLiterals_kind (op : SignOp) (rest : List TokenKind) :
    encloseLiterals false (op.kind :: rest) = op.kind :: encloseLiterals false rest := by
  cases op <;> rfl

theorem Exponent.encloseLiterals_yield (exponent : Exponent) (rest : List TokenKind) :
    encloseLiterals false (exponent.yield ++ rest) = exponent.yield ++ encloseLiterals true rest := by
  cases exponent <;> rfl

/-- Only units come right behind an operand. -/
def Stratum.Follows : Stratum → Bool → Prop
  | .power true, _ | .primary true, _ => True
  | _, behindOperand => behindOperand = false

/-- No number or truth comes behind an operand in what is read as an expression. -/
theorem ExprDerivation.encloseLiterals_yield {stratum : Stratum} (d : ExprDerivation stratum)
    {behindOperand : Bool} (follows : stratum.Follows behindOperand) (rest : List TokenKind) :
    encloseLiterals behindOperand (d.yield ++ rest) = d.yield ++ encloseLiterals true rest := by
  induction d generalizing behindOperand rest with
  | tighter inner ih | signed inner ih | ascribed inner ih => exact ih follows rest
  | plain inner ih => exact ih follows rest
  | @primary asUnit inner ih =>
      apply ih
      cases asUnit <;> exact follows
  | join connector atLevel left right leftIh rightIh =>
      rw [yield, List.append_assoc, leftIh follows, List.cons_append, connector.encloseLiterals_kind,
        rightIh rfl, List.append_assoc, List.cons_append]
  | sign op operand ih =>
      obtain rfl : behindOperand = false := follows
      rw [yield, List.cons_append, op.encloseLiterals_kind, ih rfl, List.cons_append]
  | ascribe operand unit operandIh unitIh =>
      rw [yield, List.append_assoc, operandIh follows, unitIh trivial, List.append_assoc]
  | @power asUnit base exponent ih =>
      have baseFollows : (Stratum.power asUnit).Follows behindOperand := follows
      rw [yield, List.append_assoc, ih baseFollows, List.cons_append,
        encloseLiterals_of_not_literal _ true rfl, List.append_assoc, List.cons_append]
      exact congrArg (fun more => base.yield ++ .mark .caret :: more)
        (exponent.encloseLiterals_yield rest)
  | @atom asUnit single fits =>
      rw [yield, List.singleton_append, List.singleton_append]
      cases asUnit with
      | true =>
          have notLiteral : single.kind.isLiteral = false := by
            rw [single.isLiteral_kind, fits rfl]
            rfl
          rw [encloseLiterals_of_not_literal rest behindOperand notLiteral, single.endsOperand_kind]
      | false =>
          obtain rfl : behindOperand = false := follows
          rw [encloseLiterals_first, single.endsOperand_kind]
  | @paren asUnit inner ih =>
      rw [yield, List.cons_append, List.cons_append, List.append_assoc,
        encloseLiterals_of_not_literal _ behindOperand rfl]
      exact congrArg (List.cons _) ((ih (show (Stratum.level Level.all).Follows false from rfl) _).trans
        (List.append_assoc inner.yield [.mark .rightParen] (encloseLiterals true rest)).symm)

namespace Expr

variable {spell : Float → Exponent} {e : Expr}

/-- In the tokens of the grouped text, the missing parentheses are put in. -/
def Completes (spell : Float → Exponent) (e : Expr) : Prop :=
  ∀ rest, encloseLiterals false (e.explicit.kinds spell ++ rest) =
    e.spoken.kinds spell ++ encloseLiterals true rest

theorem Completes.operand (completes : e.Completes spell) (rest : List TokenKind) :
    encloseLiterals false (e.explicit.enclose.kinds spell ++ rest) =
      e.spoken.enclose.kinds spell ++ encloseLiterals true rest := by
  rcases e.single_or_several with ⟨single, location, -, explicit, spoken⟩ | ⟨-, explicit, spoken⟩
  · have alone : (single.tree location).enclose = single.tree location := by cases single <;> rfl
    rw [Completes] at completes
    rw [explicit, spoken] at completes ⊢
    rw [alone]
    exact completes rest
  · rw [enclose, enclose, explicit, spoken, if_neg Bool.false_ne_true, if_neg Bool.false_ne_true,
      kinds, kinds, List.cons_append, List.cons_append, List.append_assoc, encloseLiterals_first]
    exact congrArg (List.cons _) ((completes _).trans
      (List.append_assoc (e.spoken.kinds spell) [.mark .rightParen] (encloseLiterals true rest)).symm)

theorem Completes.unit (completes : e.Completes spell) (rest : List TokenKind) :
    encloseLiterals true (e.explicit.enclose.kinds spell ++ rest) =
      e.spoken.encloseUnit.kinds spell ++ encloseLiterals true rest := by
  rcases e.single_or_several with ⟨single, location, -, explicit, spoken⟩ | ⟨-, explicit, spoken⟩
  · rw [explicit, spoken]
    cases single with
    | number x | name text => rfl
    | truth value => cases value <;> rfl
    | word type => cases type <;> rfl
  · have notLiteral : e.spoken.isLiteral = false := by
      cases same : e.spoken with
      | number location x | bool location truth =>
          rw [same] at spoken
          cases spoken
      | _ => rfl
    have operand := completes.operand rest
    rw [encloseUnit, notLiteral, if_neg Bool.false_ne_true, ← operand, enclose, explicit,
      if_neg Bool.false_ne_true]
    rfl

theorem completes (spell : Float → Exponent) (e : Expr) : e.Completes spell := by
  have join (connector : Connector) {left right : Expr} (leftIh : left.Completes spell)
      (rightIh : right.Completes spell) (rest : List TokenKind) :
      encloseLiterals false ((left.explicit.enclose.kinds spell ++
          connector.kind :: right.explicit.enclose.kinds spell) ++ rest) =
        (left.spoken.enclose.kinds spell ++ connector.kind :: right.spoken.enclose.kinds spell) ++
          encloseLiterals true rest := by
    rw [List.append_assoc, leftIh.operand, List.cons_append, connector.encloseLiterals_kind,
      rightIh.operand, List.append_assoc, List.cons_append]
  induction e with
  | number location x | name location text => exact fun rest => rfl
  | bool location truth => cases truth <;> exact fun rest => rfl
  | typeWord location word => cases word <;> exact fun rest => rfl
  | paren location inner ih => exact ih
  | sign location op operand ih =>
      intro rest
      rw [explicit, spoken, kinds, kinds, List.cons_append, op.encloseLiterals_kind, ih.operand,
        List.cons_append]
  | power location base exponent ih =>
      intro rest
      rw [explicit, spoken, kinds, kinds, List.append_assoc, ih.operand, List.cons_append,
        encloseLiterals_of_not_literal _ true rfl, List.append_assoc, List.cons_append]
      exact congrArg (fun more => base.spoken.enclose.kinds spell ++ .mark .caret :: more)
        ((spell exponent).encloseLiterals_yield rest)
  | binary location op left right leftIh rightIh => exact join (.binary op) leftIh rightIh
  | logical location op left right leftIh rightIh => exact join (.logical op) leftIh rightIh
  | conversion location operand unit operandIh unitIh => exact join .conversion operandIh unitIh
  | ascription location operand unit operandIh unitIh =>
      intro rest
      rw [explicit, spoken, kinds, kinds, List.append_assoc, operandIh.operand, unitIh.unit,
        List.append_assoc]

theorem isLiteral_spoken (e : Expr) : e.spoken.isLiteral = e.ungrouped.isLiteral := by
  rcases e.single_or_several with ⟨single, location, ungrouped, -, spoken⟩ | ⟨several, -, spoken⟩
  · rw [ungrouped, spoken]
  · have notLiteral {f : Expr} (compound : f.isAtomic = false) : f.isLiteral = false := by
      cases f with
      | number location x | bool location truth => cases compound
      | _ => rfl
    rw [notLiteral several, notLiteral spoken]

/-- Where no unit is a number or a truth, no parentheses are missing. -/
theorem spoken_eq_explicit (units : e.literalUnits = 0) : e.spoken = e.explicit := by
  induction e with
  | paren _ _ ih => exact ih units
  | sign _ _ _ ih | power _ _ _ ih => rw [spoken, explicit, ih units]
  | binary _ _ _ _ leftIh rightIh | logical _ _ _ _ leftIh rightIh
  | conversion _ _ _ leftIh rightIh =>
      obtain ⟨left, right⟩ := Nat.add_eq_zero_iff.mp units
      rw [spoken, explicit, leftIh left, rightIh right]
  | ascription _ operand unit operandIh unitIh =>
      obtain ⟨parts, own⟩ := Nat.add_eq_zero_iff.mp units
      obtain ⟨left, right⟩ := Nat.add_eq_zero_iff.mp parts
      have notLiteral : unit.spoken.isLiteral = false := by
        rw [isLiteral_spoken]
        cases literal : unit.ungrouped.isLiteral with
        | true =>
            rw [literal] at own
            cases own
        | false => rfl
      rw [spoken, explicit, encloseUnit, notLiteral, if_neg Bool.false_ne_true, operandIh left,
        unitIh right]
  | _ => rfl

theorem length_operand {count : Nat}
    (length : (e.spoken.kinds spell).length = (e.explicit.kinds spell).length + count) :
    (e.spoken.enclose.kinds spell).length = (e.explicit.enclose.kinds spell).length + count := by
  rcases e.single_or_several with ⟨single, location, -, explicit, spoken⟩ | ⟨-, explicit, spoken⟩
  · have alone : (single.tree location).enclose = single.tree location := by cases single <;> rfl
    rw [explicit, spoken] at length ⊢
    rw [alone]
    exact length
  · simp only [enclose, explicit, spoken, Bool.false_eq_true, if_false, kinds, List.length_append,
      List.length_cons, List.length_nil, length]
    omega

theorem length_spoken (spell : Float → Exponent) (e : Expr) :
    (e.spoken.kinds spell).length = (e.explicit.kinds spell).length + 2 * e.literalUnits := by
  induction e with
  | paren _ _ ih => exact ih
  | sign _ _ _ ih =>
      have operand := length_operand ih
      simp only [spoken, explicit, kinds, List.length_cons, operand, literalUnits]
      omega
  | power _ _ _ ih =>
      have base := length_operand ih
      simp only [spoken, explicit, kinds, List.length_append, base, literalUnits]
      omega
  | binary _ _ _ _ leftIh rightIh | logical _ _ _ _ leftIh rightIh
  | conversion _ _ _ leftIh rightIh =>
      have left := length_operand leftIh
      have right := length_operand rightIh
      simp only [spoken, explicit, kinds, List.length_append, List.length_cons, left, right,
        literalUnits]
      omega
  | ascription _ operand unit operandIh unitIh =>
      have left := length_operand operandIh
      have right : (unit.spoken.encloseUnit.kinds spell).length =
          (unit.explicit.enclose.kinds spell).length + 2 * unit.literalUnits +
            2 * if unit.ungrouped.isLiteral then 1 else 0 := by
        rw [← isLiteral_spoken, encloseUnit]
        split
        next literal =>
          rcases unit.single_or_several with ⟨single, location, -, explicit, spoken⟩ | ⟨-, -, several⟩
          · have alone : (single.tree location).enclose = single.tree location := by
              cases single <;> rfl
            rw [explicit, spoken] at unitIh ⊢
            simp only [alone, kinds, List.length_append, List.length_cons, List.length_nil]
            omega
          · cases same : unit.spoken <;> rw [same] at literal several <;> cases literal <;> cases several
        next => exact length_operand unitIh
      simp only [spoken, explicit, kinds, List.length_append, left, right, literalUnits]
      omega
  | _ => rfl

theorem encloseLiterals_kinds (spell : Float → Exponent) (e : Expr) :
    encloseLiterals false (e.explicit.kinds spell) = e.spoken.kinds spell := by
  have completed := e.completes spell []
  rwa [List.append_nil, encloseLiterals, List.append_nil] at completed

/-- What exponents that can be read are written as. -/
structure Spells (spell : Float → Exponent) (e : Expr) : Prop where
  value : ∀ x ∈ e.numbers, (spell x).value = x
  kinds_groupedText : (Tokens.ofSource e.groupedText).kinds = e.explicit.kinds spell

theorem spells_of_readable (spells : ∀ x, Number.Readable x →
      (spell x).value = x ∧ Stands (Number.text x).toList (spell x).yield)
    (spelled : ∀ kind ∈ e.leaves, kind.Spelled) (readable : ∀ x ∈ e.numbers, Number.Readable x) :
    e.Spells spell := by
  refine ⟨fun x member => (spells x (readable x member)).1, ?_⟩
  rw [← leaves_explicit] at spelled
  rw [← numbers_explicit] at readable
  rw [Tokens.kinds_ofSource, groupedText]
  exact (stands (fun x member => (spells x (readable x member)).2) spelled readable).writes.kinds

theorem Spells.exists_phrase (spells : e.Spells spell) :
    ∃ d : Phrase, d.yield = e.spoken.kinds spell ∧ d.tree = e.spoken.bare := by
  obtain ⟨d, tree⟩ := exists_spoken e
  have numbers : d.tree.numbers = e.numbers := by rw [tree, numbers_bare, numbers_spoken]
  refine ⟨d.respell spell, ?_, ?_⟩
  · rw [d.yield_respell, tree, kinds_bare]
  · rw [ExprDerivation.tree_respell (numbers ▸ spells.value), tree]

/-- The grouped text is read just if no parentheses are missing, and then as the expression. -/
theorem Spells.ofSource_groupedText (spells : e.Spells spell) :
    ((∃ again, Expr.ofSource e.groupedText = .ok again) ↔ e.literalUnits = 0) ∧
    ∀ again, Expr.ofSource e.groupedText = .ok again →
      again.ungrouped.bare = e.ungrouped.bare := by
  have units {again : Expr} (read : Expr.ofSource e.groupedText = .ok again) :
      e.literalUnits = 0 := by
    obtain ⟨d, yields, -⟩ := Expr.exists_derivation read
    have kept := d.encloseLiterals_yield (show (Stratum.level Level.all).Follows false from rfl) []
    rw [List.append_nil, encloseLiterals, List.append_nil, yields, spells.kinds_groupedText,
      encloseLiterals_kinds] at kept
    have length := e.length_spoken spell
    rw [kept] at length
    omega
  have reads (none : e.literalUnits = 0) :
      ∃ again, Expr.ofSource e.groupedText = .ok again ∧ again.bare = e.spoken.bare := by
    obtain ⟨d, yields, tree⟩ := spells.exists_phrase
    rw [spoken_eq_explicit none, ← spells.kinds_groupedText] at yields
    obtain ⟨again, read, same⟩ := Expr.ofTokens_of_yield yields
    exact ⟨again, read, same.trans tree⟩
  refine ⟨⟨fun ⟨again, read⟩ => units read, fun none => ?_⟩, fun again read => ?_⟩
  · obtain ⟨again, read, -⟩ := reads none
    exact ⟨again, read⟩
  · obtain ⟨other, otherRead, same⟩ := reads (units read)
    obtain rfl := Except.ok.inj (read.symm.trans otherRead)
    rw [← ungrouped_bare, same, ungrouped_bare, ungrouped_spoken]

/-- Two expressions have one grouped text just if they differ in their parentheses only. -/
theorem Spells.groupedText_eq_iff {other : Expr} (spells : e.Spells spell)
    (otherSpells : other.Spells spell) :
    e.groupedText = other.groupedText ↔ e.ungrouped.bare = other.ungrouped.bare := by
  refine ⟨fun same => ?_, groupedText_congr⟩
  obtain ⟨d, yields, tree⟩ := spells.exists_phrase
  obtain ⟨otherD, otherYields, otherTree⟩ := otherSpells.exists_phrase
  have spokenKinds : e.spoken.kinds spell = other.spoken.kinds spell := by
    rw [← encloseLiterals_kinds, ← encloseLiterals_kinds, ← spells.kinds_groupedText,
      ← otherSpells.kinds_groupedText, same]
  let tokens : Tokens := ⟨(e.spoken.kinds spell).map (⟨·, .nowhere⟩), .nowhere⟩
  have kinds : tokens.kinds = e.spoken.kinds spell := by
    simp [tokens, Tokens.kinds, Function.comp_def]
  have own : d.yield = tokens.kinds := yields.trans kinds.symm
  obtain rfl := Phrase.eq_of_yield own (otherYields.trans (spokenKinds.symm.trans kinds.symm))
  have trees : e.spoken.bare = other.spoken.bare := tree.symm.trans otherTree
  rw [← ungrouped_spoken, ← ungrouped_bare, trees, ungrouped_bare, ungrouped_spoken]

theorem spelled_of_read {source : String} (read : Expr.ofSource source = .ok e) :
    ∀ kind ∈ e.leaves, kind.Spelled := by
  obtain ⟨d, yields, tree⟩ := Expr.exists_derivation read
  intro kind member
  have inTree : kind ∈ d.tree.leaves := by
    rwa [← tree, leaves_bare]
  apply Tokens.spelled_ofSource source
  rw [← yields]
  exact ExprDerivation.mem_yield_of_leaf inTree

/-- The grouped text of an expression that was read is read again if no unit in it is a number or a
truth, and only then. What is read groups as the expression does. The grouped texts of two expressions
are the same just if the expressions differ in their parentheses only. -/
theorem groupedText_reads_back {source otherSource : String} {other : Expr}
    (read : Expr.ofSource source = .ok e) (otherRead : Expr.ofSource otherSource = .ok other)
    (readable : ∀ x ∈ e.numbers, Number.Readable x)
    (otherReadable : ∀ x ∈ other.numbers, Number.Readable x) :
    ((∃ again, Expr.ofSource e.groupedText = .ok again) ↔ e.literalUnits = 0) ∧
    (∀ again, Expr.ofSource e.groupedText = .ok again →
      again.ungrouped.bare = e.ungrouped.bare) ∧
    (e.groupedText = other.groupedText ↔ e.ungrouped.bare = other.ungrouped.bare) := by
  obtain ⟨spell, all⟩ := Exponent.exists_spelling
  have spells := spells_of_readable all (spelled_of_read read) readable
  have otherSpells := spells_of_readable all (spelled_of_read otherRead) otherReadable
  obtain ⟨accepted, same⟩ := spells.ofSource_groupedText
  exact ⟨accepted, same, spells.groupedText_eq_iff otherSpells⟩

/-- Two metres, with and without parentheses. -/
theorem two_metres_read_back : ∃ e other, Expr.ofSource "(2) (m)" = .ok e ∧
    Expr.ofSource "2 m" = .ok other ∧ (∀ x ∈ e.numbers, Number.Readable x) ∧
    (∀ x ∈ other.numbers, Number.Readable x) ∧
    ((∃ again, Expr.ofSource e.groupedText = .ok again) ↔ e.literalUnits = 0) ∧
    (∀ again, Expr.ofSource e.groupedText = .ok again →
      again.ungrouped.bare = e.ungrouped.bare) ∧
    (e.groupedText = other.groupedText ↔ e.ungrouped.bare = other.ungrouped.bare) := by
  let two : ExprDerivation (.primary false) := .atom (.number 2) (absurd · Bool.false_ne_true)
  let metre {asUnit : Bool} : ExprDerivation (.primary asUnit) := .atom (.name "m") fun _ => rfl
  let alone (d : ExprDerivation (.primary false)) : Phrase :=
    .ofSigned (.ascribed (.plain (.primary d))) Level.all
  let grouped : Phrase := .ofSigned (.ascribed (.ascribe (.plain (.primary (.paren (alone two))))
    (.primary (.paren (alone metre))))) Level.all
  let plain : Phrase := .ofSigned (.ascribed (.ascribe (.plain (.primary two)) (.primary metre))) Level.all
  have groupedKinds : grouped.yield = (Tokens.ofSource "(2) (m)").kinds := by decide +kernel
  have plainKinds : plain.yield = (Tokens.ofSource "2 m").kinds := by decide +kernel
  obtain ⟨e, read, tree⟩ := Expr.ofTokens_of_yield groupedKinds
  obtain ⟨other, otherRead, otherTree⟩ := Expr.ofTokens_of_yield plainKinds
  have twoReadable : ∀ x ∈ ([2] : List Float), Number.Readable x :=
    List.forall_mem_singleton.mpr ⟨by decide +kernel, by decide +kernel⟩
  have readable : ∀ x ∈ e.numbers, Number.Readable x := by
    rw [← numbers_bare, tree]
    exact twoReadable
  have otherReadable : ∀ x ∈ other.numbers, Number.Readable x := by
    rw [← numbers_bare, otherTree]
    exact twoReadable
  exact ⟨e, other, read, otherRead, readable, otherReadable,
    groupedText_reads_back read otherRead readable otherReadable⟩

/-- A number that is the unit of another one is not read without its parentheses. -/
theorem two_threes_not_read : ∃ e, Expr.ofSource "2 (3)" = .ok e ∧
    (∀ x ∈ e.numbers, Number.Readable x) ∧ e.groupedText = "2 3" ∧
    ¬ ∃ again, Expr.ofSource e.groupedText = .ok again := by
  let number (x : Float) : ExprDerivation (.power false) :=
    .primary (.atom (.number x) (absurd · Bool.false_ne_true))
  let threes : Phrase := .ofSigned (.ascribed (.ascribe (.plain (number 2))
    (.primary (.paren (.ofSigned (.ascribed (.plain (number 3))) Level.all))))) Level.all
  have kinds : threes.yield = (Tokens.ofSource "2 (3)").kinds := by decide +kernel
  obtain ⟨e, read, tree⟩ := Expr.ofTokens_of_yield kinds
  have text : e.groupedText = "2 3" := by
    rw [groupedText, ← text_bare, ← explicit_bare, tree]
    decide +kernel
  refine ⟨e, read, ?_, text, ?_⟩
  · rw [← numbers_bare, tree]
    change ∀ x ∈ ([2, 3] : List Float), Number.Readable x
    simp only [List.forall_mem_cons]
    exact ⟨⟨by decide +kernel, by decide +kernel⟩, ⟨by decide +kernel, by decide +kernel⟩,
      List.forall_mem_nil _⟩
  · rintro ⟨again, readAgain⟩
    rw [text] at readAgain
    obtain ⟨d, yields, -⟩ := Expr.exists_derivation readAgain
    have bare : (Tokens.ofSource "2 3").kinds = [.number 2, .number 3] := by decide +kernel
    have kept := d.encloseLiterals_yield (show (Stratum.level Level.all).Follows false from rfl) []
    rw [List.append_nil, encloseLiterals, List.append_nil, yields, bare] at kept
    cases kept

end Expr

end Quantities
