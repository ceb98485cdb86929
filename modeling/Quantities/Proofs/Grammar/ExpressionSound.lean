import Quantities.Proofs.Grammar.Derivation
import Quantities.Proofs.Grammar.Reading

/-!
What is read as an expression is derived by the grammar: the tokens taken are the yield of a
derivation, and what they were read as is its tree.
-/

namespace Quantities

/-- The reading took the yield of the derivation and gave its tree. -/
structure ReadAs {stratum : Stratum} {c : Cursor} (p : Parsed Expr c)
    (d : ExprDerivation stratum) : Prop where
  kinds : c.kinds = d.yield ++ p.next.kinds
  tree : p.value.bare = d.tree

theorem Connector.bare_join (connector : Connector) (left right : Expr) :
    (connector.join left right).bare = connector.node left.bare right.bare := by
  cases connector <;> rfl

theorem Atom.bare_tree (atom : Atom) (location : Location) :
    (atom.tree location).bare = atom.tree .nowhere := by
  cases atom <;> rfl

theorem Atom.isUnit_iff (atom : Atom) : startsUnit (some atom.kind) = atom.isUnit := by
  cases atom with
  | number x | name text => rfl
  | truth value => cases value <;> rfl
  | word type => cases type <;> rfl

namespace Grammar

theorem exponent_sound {c : Cursor} {p : Parsed Float c} (read : exponent c = .ok p) :
    ∃ e : Exponent, c.kinds = e.yield ++ p.next.kinds ∧ p.value = e.value := by
  have needed {before : Cursor} {size : Parsed Float before}
      (found : needExponent before = .ok size) :
      before.kinds = .number size.value :: size.next.kinds := by
    obtain ⟨kind, kinds, accepted⟩ := Cursor.take?_kinds (Cursor.need_eq_ok.mp found)
    rw [kinds, Cursor.acceptNumber_eq_some.mp accepted]
  unfold exponent at read
  split at read
  next sign taken =>
    obtain ⟨size, found, read⟩ := Result.bind_eq_ok.mp read
    cases read
    refine ⟨.minus size.value, ?_, rfl⟩
    rw [Cursor.takeMark?_kinds taken, needed found]
    rfl
  next =>
    split at read
    next sign taken =>
      obtain ⟨size, found, read⟩ := Result.bind_eq_ok.mp read
      cases read
      refine ⟨.plus size.value, ?_, rfl⟩
      rw [Cursor.takeMark?_kinds taken, needed found]
      rfl
    next => exact ⟨.plain p.value, needed read, rfl⟩

section

variable {c : Cursor} {location : Location}

theorem readAs_join {first : Level} {tighter : List Level} {left : Parsed Expr c}
    {connector : Parsed Connector left.next} {right : Parsed Expr connector.next}
    {d : ExprDerivation (.level (first :: tighter))} {operand : ExprDerivation (.level tighter)}
    (readLeft : ReadAs left d) (taken : left.next.take? first.connector? = some connector)
    (readRight : ReadAs right operand) :
    ∃ joined : ExprDerivation (.level (first :: tighter)),
      ReadAs (left.followedBy (connector.followedBy right ())
        (connector.value.join left.value right.value)) joined := by
  obtain ⟨kind, kinds, accepted⟩ := Cursor.take?_kinds taken
  obtain ⟨atLevel, rfl⟩ := Level.connector?_eq_some.mp accepted
  refine ⟨.join connector.value atLevel d operand, ?_, ?_⟩
  · rw [readLeft.kinds, kinds, readRight.kinds]
    simp [ExprDerivation.yield, Parsed.followedBy]
  · simp only [Parsed.followedBy, Connector.bare_join, readLeft.tree, readRight.tree,
      ExprDerivation.tree]

theorem readAs_ascribe {operand : Parsed Expr c} {unit : Parsed Expr operand.next}
    {d : ExprDerivation .ascribed} {unitDerivation : ExprDerivation (.power true)}
    (readOperand : ReadAs operand d) (readUnit : ReadAs unit unitDerivation) :
    ReadAs (operand.followedBy unit (.ascription location operand.value unit.value))
      (.ascribe d unitDerivation) where
  kinds := by
    rw [readOperand.kinds, readUnit.kinds]
    simp [ExprDerivation.yield, Parsed.followedBy]
  tree := by
    simp only [Parsed.followedBy, Expr.bare, readOperand.tree, readUnit.tree, ExprDerivation.tree]

theorem readAs_power {asUnit : Bool} {base : Parsed Expr c} {caret : Parsed Unit base.next}
    {size : Parsed Float caret.next} {d : ExprDerivation (.power asUnit)} (readBase : ReadAs base d)
    (taken : base.next.takeMark? .caret = some caret) (found : exponent caret.next = .ok size) :
    ∃ e, ReadAs ((base.followedBy (caret.followedBy size ()) ()).map fun _ =>
      .power location base.value size.value) (.power d e) := by
  obtain ⟨e, exponentKinds, value⟩ := exponent_sound found
  refine ⟨e, ?_, ?_⟩
  · rw [readBase.kinds, Cursor.takeMark?_kinds taken, exponentKinds]
    simp [ExprDerivation.yield, Parsed.map, Parsed.followedBy]
  · simp [ExprDerivation.tree, Parsed.map, Expr.bare, readBase.tree, value]

theorem readAs_sign {op : Parsed SignOp c} {operand : Parsed Expr op.next}
    {d : ExprDerivation .signed} (taken : c.take? SignOp.ofToken? = some op)
    (readOperand : ReadAs operand d) :
    ReadAs ((op.followedBy operand ()).map fun _ => .sign location op.value operand.value)
      (.sign op.value d) where
  kinds := by
    obtain ⟨kind, kinds, accepted⟩ := Cursor.take?_kinds taken
    rw [kinds, readOperand.kinds, ← SignOp.ofToken?_eq_some.mp accepted]
    rfl
  tree := by simp only [Parsed.map, Expr.bare, readOperand.tree, ExprDerivation.tree]

theorem readAs_paren {asUnit : Bool} {opening : Parsed Unit c} {inner : Parsed Expr opening.next}
    {closing : Parsed Unit inner.next} {d : ExprDerivation (.level Level.all)}
    (taken : c.takeMark? .leftParen = some opening) (readInner : ReadAs inner d)
    (closed : inner.next.takeMark? .rightParen = some closing) :
    ReadAs ((opening.followedBy (inner.followedBy closing ()) ()).map fun _ =>
      .paren location inner.value) (@ExprDerivation.paren asUnit d) where
  kinds := by
    rw [Cursor.takeMark?_kinds taken, readInner.kinds, Cursor.takeMark?_kinds closed]
    simp [ExprDerivation.yield, Parsed.map, Parsed.followedBy]
  tree := by simp only [Parsed.map, Expr.bare, readInner.tree, ExprDerivation.tree]

theorem readAs_atom (asUnit : Bool) {make : Parsed (Location → Expr) c}
    (starts : asUnit = true → startsUnit c.kind? = true) (taken : c.take? atom? = some make) :
    ∃ single fits, ReadAs (make.map fun make => make location)
      (@ExprDerivation.atom asUnit single fits) := by
  obtain ⟨kind, kinds, accepted⟩ := Cursor.take?_kinds taken
  obtain ⟨single, rfl, value⟩ := atom?_eq_some.mp accepted
  refine ⟨single, fun isUnit => ?_, ?_, ?_⟩
  · have first := starts isUnit
    rw [Cursor.kind?_eq_head?, kinds] at first
    rw [← single.isUnit_iff]
    exact first
  · exact kinds
  · simp only [Parsed.map, value, Atom.bare_tree, ExprDerivation.tree]

end

theorem powers_sound {asUnit : Bool} {c : Cursor} {base p : Parsed Expr c}
    (d : ExprDerivation (.power asUnit)) (readBase : ReadAs base d) (read : powers base = .ok p) :
    ∃ d : ExprDerivation (.power asUnit), ReadAs p d := by
  rw [powers] at read
  split at read
  next =>
    cases read
    exact ⟨d, readBase⟩
  next caret taken =>
    obtain ⟨size, found, read⟩ := Result.bind_eq_ok.mp read
    obtain ⟨e, readPower⟩ := readAs_power readBase taken found
    exact powers_sound (.power d e) readPower read
termination_by base.next.rest.length
decreasing_by exact Parsed.followedBy_shorter _ _ _

mutual

theorem level_sound (levels : List Level) {c : Cursor} {p : Parsed Expr c}
    (read : level levels c = .ok p) : ∃ d : ExprDerivation (.level levels), ReadAs p d := by
  match levels with
  | [] =>
      rw [level] at read
      obtain ⟨d, readAs⟩ := signed_sound read
      exact ⟨.signed d, readAs.kinds, readAs.tree⟩
  | first :: tighter =>
      rw [level] at read
      obtain ⟨left, leftRead, read⟩ := Result.bind_eq_ok.mp read
      obtain ⟨d, readAs⟩ := level_sound tighter leftRead
      exact chain_sound (.tighter d) ⟨readAs.kinds, readAs.tree⟩ read
termination_by (c.rest.length, 2 * levels.length + 4)
decreasing_by
  · exact Prod.Lex.right _ (by simp +arith)
  · exact Prod.Lex.right _ (by simp +arith)
  · exact Prod.Lex.left _ _ (Parsed.shorter _)

theorem chain_sound {first : Level} {tighter : List Level} {c : Cursor} {left p : Parsed Expr c}
    (d : ExprDerivation (.level (first :: tighter))) (readLeft : ReadAs left d)
    (read : chain first tighter left = .ok p) :
    ∃ d : ExprDerivation (.level (first :: tighter)), ReadAs p d := by
  rw [chain] at read
  split at read
  next =>
    cases read
    exact ⟨d, readLeft⟩
  next connector taken =>
    obtain ⟨right, rightRead, read⟩ := Result.bind_eq_ok.mp read
    obtain ⟨operand, readRight⟩ := level_sound tighter rightRead
    obtain ⟨joined, readJoined⟩ := readAs_join readLeft taken readRight
    exact chain_sound joined readJoined read
termination_by (left.next.rest.length, 2 * tighter.length + 5)
decreasing_by
  · exact Prod.Lex.left _ _ (Parsed.shorter _)
  · exact Prod.Lex.left _ _ (Parsed.followedBy_shorter _ _ _)

theorem signed_sound {c : Cursor} {p : Parsed Expr c} (read : signed c = .ok p) :
    ∃ d : ExprDerivation .signed, ReadAs p d := by
  rw [signed] at read
  split at read
  next =>
    obtain ⟨d, readAs⟩ := ascribed_sound read
    exact ⟨.ascribed d, readAs.kinds, readAs.tree⟩
  next op taken =>
    obtain ⟨operand, operandRead, read⟩ := Result.bind_eq_ok.mp read
    cases read
    obtain ⟨d, readAs⟩ := signed_sound operandRead
    exact ⟨.sign op.value d, readAs_sign taken readAs⟩
termination_by (c.rest.length, 3)
decreasing_by
  · exact Prod.Lex.right _ (by decide)
  · exact Prod.Lex.left _ _ (Parsed.shorter _)

theorem ascribed_sound {c : Cursor} {p : Parsed Expr c} (read : ascribed c = .ok p) :
    ∃ d : ExprDerivation .ascribed, ReadAs p d := by
  rw [ascribed] at read
  obtain ⟨operand, operandRead, read⟩ := Result.bind_eq_ok.mp read
  obtain ⟨d, readAs⟩ := power_sound false (fun asUnit => by cases asUnit) operandRead
  exact units_sound (.plain d) ⟨readAs.kinds, readAs.tree⟩ read
termination_by (c.rest.length, 2)
decreasing_by
  · exact Prod.Lex.right _ (by decide)
  · exact Prod.Lex.left _ _ (Parsed.shorter _)

theorem units_sound {c : Cursor} {operand p : Parsed Expr c} (d : ExprDerivation .ascribed)
    (readOperand : ReadAs operand d) (read : units operand = .ok p) :
    ∃ d : ExprDerivation .ascribed, ReadAs p d := by
  rw [units] at read
  split at read
  next starts =>
    obtain ⟨unit, unitRead, read⟩ := Result.bind_eq_ok.mp read
    obtain ⟨unitDerivation, readUnit⟩ := power_sound true (fun _ => starts) unitRead
    exact units_sound (.ascribe d unitDerivation) (readAs_ascribe readOperand readUnit) read
  next =>
    cases read
    exact ⟨d, readOperand⟩
termination_by (operand.next.rest.length, 2)
decreasing_by
  · exact Prod.Lex.right _ (by decide)
  · exact Prod.Lex.left _ _ (Parsed.followedBy_shorter _ _ _)

theorem power_sound (asUnit : Bool) {c : Cursor} {p : Parsed Expr c}
    (starts : asUnit = true → startsUnit c.kind? = true) (read : power c = .ok p) :
    ∃ d : ExprDerivation (.power asUnit), ReadAs p d := by
  rw [power] at read
  obtain ⟨base, baseRead, read⟩ := Result.bind_eq_ok.mp read
  obtain ⟨d, readAs⟩ := primary_sound asUnit starts baseRead
  exact powers_sound (.primary d) ⟨readAs.kinds, readAs.tree⟩ read
termination_by (c.rest.length, 1)
decreasing_by exact Prod.Lex.right _ (by decide)

theorem primary_sound (asUnit : Bool) {c : Cursor} {p : Parsed Expr c}
    (starts : asUnit = true → startsUnit c.kind? = true) (read : primary c = .ok p) :
    ∃ d : ExprDerivation (.primary asUnit), ReadAs p d := by
  rw [primary] at read
  split at read
  next opening taken =>
    obtain ⟨inner, innerRead, read⟩ := Result.bind_eq_ok.mp read
    obtain ⟨closing, closed, read⟩ := Result.bind_eq_ok.mp read
    cases read
    obtain ⟨d, readAs⟩ := level_sound Level.all innerRead
    exact ⟨.paren d, readAs_paren taken readAs (Cursor.needMark_eq_ok.mp closed)⟩
  next =>
    obtain ⟨make, found, read⟩ := Result.bind_eq_ok.mp read
    cases read
    obtain ⟨single, fits, readAs⟩ := readAs_atom asUnit starts (Cursor.need_eq_ok.mp found)
    exact ⟨.atom single fits, readAs⟩
termination_by (c.rest.length, 0)
decreasing_by exact Prod.Lex.left _ _ (Parsed.shorter _)

end

end Grammar

end Quantities
