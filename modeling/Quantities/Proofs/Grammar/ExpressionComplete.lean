import Quantities.Proofs.Grammar.ExpressionSound

/-!
Every derivation is found. In front of a token that cannot carry on the expression, the parser takes
the yield and gives the tree. What it has read of a stratum that groups to the left is carried from
one operand to the next, and so is the statement that is proved.
-/

namespace Quantities

/-- The reading gave the tree and left the tokens. -/
structure Parsed.Gives {c : Cursor} (p : Parsed Expr c) (tree : Expr) (rest : List TokenKind) :
    Prop where
  tree : p.value.bare = tree
  kinds : p.next.kinds = rest

/-- The tokens cannot carry on an expression of one of the levels. -/
structure Ends (levels : List Level) (rest : List TokenKind) : Prop where
  noConnector : ∀ level ∈ levels, ∀ kind, rest.head? = some kind → level.connector? kind = none
  noUnit : startsUnit rest.head? = false
  noCaret : rest.head? ≠ some (.mark .caret)

namespace Ends

variable {first : Level} {levels : List Level} {rest : List TokenKind}

theorem tighter (ends : Ends (first :: levels) rest) : Ends levels rest :=
  ⟨fun level member => ends.noConnector level (List.mem_cons_of_mem _ member), ends.noUnit,
    ends.noCaret⟩

/-- Behind an expression in a statement comes nothing, or a mark that ends the expression. -/
theorem of_mark
    (marked : ∀ kind, rest.head? = some kind →
      kind = .mark .semicolon ∨ kind = .mark .rightParen ∨ kind = .mark .equal) :
    Ends levels rest := by
  cases rest with
  | nil => exact ⟨fun _ _ _ found => (nomatch found), rfl, by simp⟩
  | cons kind more =>
      have others := marked kind rfl
      refine ⟨fun level _ other found => ?_, ?_, ?_⟩
      · cases found
        rcases others with rfl | rfl | rfl <;> cases level <;> rfl
      · rcases others with rfl | rfl | rfl <;> rfl
      · rcases others with rfl | rfl | rfl <;> simp

theorem paren : Ends levels (.mark .rightParen :: rest) := by
  apply of_mark
  intro kind found
  cases found
  exact .inr (.inl rfl)

/-- The operator of another level cannot carry on a tighter expression. -/
theorem connector (connector : Connector) (absent : connector.level ∉ levels) :
    Ends levels (connector.kind :: rest) where
  noConnector level member kind found := by
    cases found
    cases accepted : level.connector? connector.kind with
    | none => rfl
    | some other =>
        obtain ⟨atLevel, sameKind⟩ := Level.connector?_eq_some.mp accepted
        have same := Connector.kind_injective sameKind
        subst same
        exact absurd (atLevel ▸ member) absent
  noUnit := by
    cases connector with
    | logical op => cases op <;> rfl
    | binary op => cases op <;> rfl
    | conversion => rfl
  noCaret := by
    cases connector with
    | logical op => cases op <;> simp [Connector.kind]
    | binary op => cases op <;> simp [Connector.kind]
    | conversion => simp [Connector.kind]

end Ends

/-- What may follow a part of the stratum, as far as it has been read. -/
def Stratum.Allows : Stratum → List TokenKind → Prop
  | .level [], rest | .signed, rest => Ends [] rest
  | .level (_ :: tighter), rest => Ends tighter rest
  | .ascribed, rest => rest.head? ≠ some (.mark .caret)
  | .power _, _ | .primary _, _ => True

/-- No level comes twice. -/
def Stratum.Distinct : Stratum → Prop
  | .level levels => levels.Nodup
  | .signed | .ascribed | .power _ | .primary _ => True

theorem Level.all_nodup : Level.all.Nodup := by decide

namespace Grammar

/-- The parser comes to where it has read the tree and is left with the tokens, and where it goes
on if more of the stratum can follow. -/
def Reaches : Stratum → Cursor → Expr → List TokenKind → Prop
  | .level [], c, tree, rest => ∃ p, level [] c = .ok p ∧ p.Gives tree rest
  | .level (first :: tighter), c, tree, rest =>
    ∃ p : Parsed Expr c, level (first :: tighter) c = chain first tighter p ∧ p.Gives tree rest
  | .signed, c, tree, rest => ∃ p, signed c = .ok p ∧ p.Gives tree rest
  | .ascribed, c, tree, rest => ∃ p : Parsed Expr c, ascribed c = units p ∧ p.Gives tree rest
  | .power _, c, tree, rest => ∃ p : Parsed Expr c, power c = powers p ∧ p.Gives tree rest
  | .primary _, c, tree, rest => ∃ p, primary c = .ok p ∧ p.Gives tree rest

section

variable {c : Cursor} {tree : Expr} {rest : List TokenKind}

theorem level_of_reaches {levels : List Level} (reaches : Reaches (.level levels) c tree rest)
    (ends : Ends levels rest) : ∃ p, level levels c = .ok p ∧ p.Gives tree rest := by
  cases levels with
  | nil => exact reaches
  | cons first tighter =>
      obtain ⟨p, read, gives⟩ := reaches
      have last : p.next.take? first.connector? = none :=
        Cursor.take?_eq_none fun kind found =>
          ends.noConnector first List.mem_cons_self kind (gives.kinds ▸ found)
      refine ⟨p, ?_, gives⟩
      rw [read, chain, last]
      rfl

theorem ascribed_of_reaches (reaches : Reaches .ascribed c tree rest)
    (noUnit : startsUnit rest.head? = false) : ∃ p, ascribed c = .ok p ∧ p.Gives tree rest := by
  obtain ⟨p, read, gives⟩ := reaches
  refine ⟨p, ?_, gives⟩
  rw [read, units, Cursor.kind?_eq_head?, gives.kinds, noUnit]
  rfl

theorem power_of_reaches {asUnit : Bool} (reaches : Reaches (.power asUnit) c tree rest)
    (noCaret : rest.head? ≠ some (.mark .caret)) : ∃ p, power c = .ok p ∧ p.Gives tree rest := by
  obtain ⟨p, read, gives⟩ := reaches
  refine ⟨p, ?_, gives⟩
  rw [read, powers, Cursor.takeMark?_eq_none (gives.kinds ▸ noCaret)]
  rfl

end

theorem exponent_complete (e : Exponent) {c : Cursor} {rest : List TokenKind}
    (kinds : c.kinds = e.yield ++ rest) :
    ∃ p, exponent c = .ok p ∧ p.value = e.value ∧ p.next.kinds = rest := by
  have needed {before : Cursor} {x : Float} (kinds : before.kinds = .number x :: rest) :
      ∃ size, needExponent before = .ok size ∧ size.value = x ∧ size.next.kinds = rest := by
    obtain ⟨size, taken, value, next⟩ :=
      Cursor.take?_of_kinds kinds (Cursor.acceptNumber_eq_some.mpr rfl)
    exact ⟨size, Cursor.need_eq_ok.mpr taken, value, next⟩
  cases e with
  | minus x =>
      obtain ⟨sign, taken, next⟩ := Cursor.takeMark?_of_kinds kinds
      obtain ⟨size, found, rfl, left⟩ := needed next
      refine ⟨sign.followedBy size (-size.value), ?_, rfl, left⟩
      simp only [exponent, taken, found]
      rfl
  | plus x =>
      have noMinus : c.takeMark? .minus = none :=
        Cursor.takeMark?_eq_none (by rw [kinds]; simp [Exponent.yield])
      obtain ⟨sign, taken, next⟩ := Cursor.takeMark?_of_kinds kinds
      obtain ⟨size, found, rfl, left⟩ := needed next
      refine ⟨sign.followedBy size size.value, ?_, rfl, left⟩
      simp only [exponent, noMinus, taken, found]
      rfl
  | plain x =>
      have noSign (sign : Mark) : c.takeMark? sign = none :=
        Cursor.takeMark?_eq_none (by rw [kinds]; simp [Exponent.yield])
      obtain ⟨size, found, rfl, left⟩ := needed kinds
      refine ⟨size, ?_, rfl, left⟩
      simp only [exponent, noSign, found]

theorem ne_caret_of_begins {kind : TokenKind} {asUnit : Bool}
    (begins : (Stratum.power asUnit).Begins kind) : kind ≠ .mark .caret := by
  rcases begins with rfl | ⟨single, rfl, -⟩
  · simp
  · cases single with
    | number x | name text => simp [Atom.kind]
    | truth value => cases value <;> simp [Atom.kind]
    | word type => cases type <;> simp [Atom.kind]

theorem startsUnit_of_begins {kind : TokenKind} (begins : (Stratum.power true).Begins kind) :
    startsUnit (some kind) = true := by
  rcases begins with rfl | ⟨single, rfl, isUnit⟩
  · rfl
  · rw [single.isUnit_iff]
    exact isUnit rfl

theorem noSign_of_begins {kind : TokenKind} (begins : Stratum.ascribed.Begins kind) :
    SignOp.ofToken? kind = none := by
  rcases begins with rfl | ⟨single, rfl⟩
  · rfl
  · cases single with
    | number x | name text => rfl
    | truth value => cases value <;> rfl
    | word type => cases type <;> rfl

theorem noParen_of_atom (single : Atom) : single.kind ≠ .mark .leftParen := by
  cases single with
  | number x | name text => simp [Atom.kind]
  | truth value => cases value <;> simp [Atom.kind]
  | word type => cases type <;> simp [Atom.kind]

theorem allows_of_ends {levels : List Level} {rest : List TokenKind} (ends : Ends levels rest) :
    (Stratum.level levels).Allows rest := by
  cases levels with
  | nil => exact ends
  | cons first tighter => exact ends.tighter

/-- By induction on the derivation. A part that groups to the left is read first, and the operator
after it allows it to be read no further. -/
theorem reaches {stratum : Stratum} (d : ExprDerivation stratum) {c : Cursor}
    {rest : List TokenKind} (kinds : c.kinds = d.yield ++ rest) (allows : stratum.Allows rest)
    (distinct : stratum.Distinct) : Reaches stratum c d.tree rest := by
  induction d generalizing c rest with
  | @tighter first levels inner ih =>
      have levelsDistinct := (List.nodup_cons.mp distinct).2
      obtain ⟨p, read, gives⟩ := level_of_reaches
        (ih kinds (allows_of_ends allows) levelsDistinct) allows
      refine ⟨p, ?_, gives⟩
      rw [level, read]
      rfl
  | @join first levels connector atLevel left right leftIh rightIh =>
      obtain ⟨absent, levelsDistinct⟩ := List.nodup_cons.mp distinct
      have leftKinds : c.kinds = left.yield ++ connector.kind :: (right.yield ++ rest) := by
        rw [kinds]
        simp [ExprDerivation.yield]
      -- No tighter level takes the connector, and so the left operand ends in front of it.
      obtain ⟨p, read, gives⟩ := leftIh leftKinds (.connector connector (atLevel ▸ absent)) distinct
      obtain ⟨taken, took, value, next⟩ := Cursor.take?_of_kinds gives.kinds
        (Level.connector?_eq_some.mpr ⟨atLevel, rfl⟩)
      obtain ⟨q, rightRead, rightGives⟩ := level_of_reaches
        (rightIh next (allows_of_ends allows) levelsDistinct) allows
      refine ⟨p.followedBy (taken.followedBy q ()) (taken.value.join p.value q.value), ?_, ?_,
        rightGives.kinds⟩
      · rw [read, chain, took]
        simp only [rightRead]
        rfl
      · simp only [Parsed.followedBy, Connector.bare_join, gives.tree, rightGives.tree, value,
          ExprDerivation.tree]
  | signed inner ih =>
      obtain ⟨p, read, gives⟩ := ih kinds allows trivial
      exact ⟨p, by rw [level, read], gives⟩
  | sign op operand ih =>
      obtain ⟨taken, took, value, next⟩ :=
        Cursor.take?_of_kinds kinds (SignOp.ofToken?_eq_some.mpr rfl)
      obtain ⟨p, read, gives⟩ := ih next allows trivial
      refine ⟨(taken.followedBy p ()).map fun _ =>
        .sign (taken.followedBy p ()).location taken.value p.value, ?_, ?_, gives.kinds⟩
      · rw [signed, took]
        simp only [read]
        rfl
      · simp only [Parsed.map, Expr.bare, gives.tree, value, ExprDerivation.tree]
  | ascribed inner ih =>
      obtain ⟨kind, more, yield, begins⟩ := inner.yield_eq_cons
      have noSign : c.take? SignOp.ofToken? = none := by
        apply Cursor.take?_eq_none
        intro first found
        rw [kinds, ExprDerivation.yield, yield] at found
        cases found
        exact noSign_of_begins begins
      obtain ⟨p, read, gives⟩ := ascribed_of_reaches (ih kinds allows.noCaret trivial) allows.noUnit
      exact ⟨p, by rw [signed, noSign, read], gives⟩
  | plain inner ih =>
      obtain ⟨p, read, gives⟩ := power_of_reaches (ih kinds trivial trivial) allows
      refine ⟨p, ?_, gives⟩
      rw [ascribed, read]
      rfl
  | ascribe operand unit operandIh unitIh =>
      obtain ⟨kind, more, yield, begins⟩ := unit.yield_eq_cons
      have operandKinds : c.kinds = operand.yield ++ (unit.yield ++ rest) := by
        rw [kinds]
        simp [ExprDerivation.yield]
      -- No unit begins with a caret, and so the operand is not raised to a power any more.
      have operandAllows : Stratum.ascribed.Allows (unit.yield ++ rest) := by
        rw [yield]
        exact fun caret => ne_caret_of_begins begins (Option.some.inj caret)
      obtain ⟨p, read, gives⟩ := operandIh operandKinds operandAllows trivial
      obtain ⟨q, unitRead, unitGives⟩ := power_of_reaches (unitIh gives.kinds trivial trivial) allows
      have starts : startsUnit p.next.kind? = true := by
        rw [Cursor.kind?_eq_head?, gives.kinds, yield]
        exact startsUnit_of_begins begins
      refine ⟨p.followedBy q (.ascription (p.value.location.merge q.value.location) p.value q.value),
        ?_, ?_, unitGives.kinds⟩
      · rw [read, units, if_pos starts, unitRead]
        rfl
      · simp only [Parsed.followedBy, Expr.bare, gives.tree, unitGives.tree, ExprDerivation.tree]
  | primary inner ih =>
      obtain ⟨p, read, gives⟩ := ih kinds trivial trivial
      refine ⟨p, ?_, gives⟩
      rw [power, read]
      rfl
  | power base e ih =>
      have baseKinds : c.kinds = base.yield ++ .mark .caret :: (e.yield ++ rest) := by
        rw [kinds]
        simp [ExprDerivation.yield]
      obtain ⟨p, read, gives⟩ := ih baseKinds trivial trivial
      obtain ⟨caret, took, next⟩ := Cursor.takeMark?_of_kinds gives.kinds
      obtain ⟨size, sizeRead, value, left⟩ := exponent_complete e next
      refine ⟨(p.followedBy (caret.followedBy size ()) ()).map fun _ =>
        .power (p.followedBy (caret.followedBy size ()) ()).location p.value size.value, ?_, ?_, left⟩
      · rw [read, powers, took]
        simp only [sizeRead]
        rfl
      · simp only [Parsed.map, Expr.bare, gives.tree, value, ExprDerivation.tree]
  | atom single fits =>
      have noParen : c.takeMark? .leftParen = none := by
        apply Cursor.takeMark?_eq_none
        rw [kinds]
        exact fun paren => noParen_of_atom single (Option.some.inj paren)
      obtain ⟨taken, took, value, next⟩ :=
        Cursor.take?_of_kinds kinds (atom?_eq_some.mpr ⟨single, rfl, rfl⟩)
      refine ⟨taken.map fun make => make taken.location, ?_, ?_, next⟩
      · rw [primary, noParen]
        simp only [Cursor.need_eq_ok.mpr took]
        rfl
      · simp only [Parsed.map, value, Atom.bare_tree, ExprDerivation.tree]
  | paren inner ih =>
      have openingKinds : c.kinds =
          .mark .leftParen :: (inner.yield ++ .mark .rightParen :: rest) := by
        rw [kinds]
        simp [ExprDerivation.yield]
      obtain ⟨opening, took, next⟩ := Cursor.takeMark?_of_kinds openingKinds
      obtain ⟨p, read, gives⟩ := level_of_reaches
        (ih next (allows_of_ends .paren) Level.all_nodup) .paren
      obtain ⟨closing, closed, last⟩ := Cursor.takeMark?_of_kinds gives.kinds
      refine ⟨(opening.followedBy (p.followedBy closing ()) ()).map fun _ =>
        .paren (opening.followedBy (p.followedBy closing ()) ()).location p.value, ?_, ?_, last⟩
      · rw [primary, took]
        simp only [read]
        change (do
          let closing ← p.next.needMark .rightParen
          let whole := opening.followedBy (p.followedBy closing ()) ()
          return whole.map fun _ => Expr.paren whole.location p.value) = _
        rw [Cursor.needMark_eq_ok.mpr closed]
        rfl
      · simp only [Parsed.map, Expr.bare, gives.tree, ExprDerivation.tree]

/-- In front of what cannot carry it on, the parser reads a derived expression. -/
theorem expression_complete (d : ExprDerivation (.level Level.all)) {c : Cursor}
    {rest : List TokenKind} (kinds : c.kinds = d.yield ++ rest) (ends : Ends Level.all rest) :
    ∃ p, expression c = .ok p ∧ p.value.bare = d.tree ∧ p.next.kinds = rest := by
  obtain ⟨p, read, gives⟩ := level_of_reaches
    (reaches d kinds (allows_of_ends ends) Level.all_nodup) ends
  exact ⟨p, read, gives.tree, gives.kinds⟩

end Grammar

end Quantities
