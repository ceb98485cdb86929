import Quantities.Proofs.Grammar.Cut
import Quantities.Proofs.Grammar.ExpressionSound
import Quantities.Proofs.Grammar.Took

/-! Every expression that is read is cut out of the tokens that were taken, with all of its children. -/

namespace Quantities

namespace ExprDerivation

/-- A unit is a power like any other where it does not follow a number. -/
theorem exists_plain {asUnit : Bool} (d : ExprDerivation (.power asUnit)) :
    ∃ plain : ExprDerivation (.power false), plain.yield = d.yield ∧ plain.tree = d.tree := by
  match d with
  | .primary (.atom single _) => exact ⟨.primary (.atom single (absurd · Bool.false_ne_true)), rfl, rfl⟩
  | .primary (.paren inner) => exact ⟨.primary (.paren inner), rfl, rfl⟩
  | .power base e =>
      obtain ⟨plain, yield, tree⟩ := base.exists_plain
      exact ⟨.power plain e, by rw [ExprDerivation.yield, yield]; rfl,
        by rw [ExprDerivation.tree, tree]; rfl⟩

theorem exists_looser (front : List Level) {levels : List Level}
    (d : ExprDerivation (.level levels)) :
    ∃ looser : ExprDerivation (.level (front ++ levels)),
      looser.yield = d.yield ∧ looser.tree = d.tree := by
  induction front with
  | nil => exact ⟨d, rfl, rfl⟩
  | cons first front ih =>
      obtain ⟨inner, yield, tree⟩ := ih
      exact ⟨.tighter inner, yield, tree⟩

/-- What is read at a tight level is a whole expression when it is read on its own. -/
theorem exists_phrase_of_level {levels : List Level} (d : ExprDerivation (.level levels))
    (within : levels <:+ Level.all) :
    ∃ phrase : Phrase, phrase.yield = d.yield ∧ phrase.tree = d.tree := by
  obtain ⟨front, whole⟩ := within
  have looser := d.exists_looser front
  rw [whole] at looser
  exact looser

end ExprDerivation

def Stratum.Within : Stratum → Prop
  | .level levels => levels <:+ Level.all
  | .signed | .ascribed | .power _ | .primary _ => True

theorem ExprDerivation.exists_phrase {stratum : Stratum} (d : ExprDerivation stratum)
    (within : stratum.Within) : ∃ phrase : Phrase, phrase.yield = d.yield ∧ phrase.tree = d.tree := by
  match stratum, d with
  | .level levels, d => exact d.exists_phrase_of_level within
  | .signed, d => exact exists_phrase_of_level (.signed d) List.nil_suffix
  | .ascribed, d => exact exists_phrase_of_level (.signed (.ascribed d)) List.nil_suffix
  | .power _, d =>
      obtain ⟨plain, yield, tree⟩ := d.exists_plain
      rw [← yield, ← tree]
      exact exists_phrase_of_level (.signed (.ascribed (.plain plain))) List.nil_suffix
  | .primary _, d =>
      obtain ⟨plain, yield, tree⟩ := (ExprDerivation.primary d).exists_plain
      have whole := exists_phrase_of_level (.signed (.ascribed (.plain plain))) List.nil_suffix
      rwa [ExprDerivation.yield, ExprDerivation.yield, ExprDerivation.yield, yield,
        ExprDerivation.tree, ExprDerivation.tree, ExprDerivation.tree, tree] at whole

theorem Connector.location_join (connector : Connector) (left right : Expr) :
    (connector.join left right).location = left.location.merge right.location := by
  cases connector <;> rfl

theorem Connector.children_join (connector : Connector) (left right : Expr) :
    (connector.join left right).children = [left, right] := by
  cases connector <;> rfl

theorem Atom.location_tree (single : Atom) (location : Location) :
    (single.tree location).location = location := by
  cases single <;> rfl

theorem Atom.children_tree (single : Atom) (location : Location) :
    (single.tree location).children = [] := by
  cases single <;> rfl

/-- The reading took the tokens of the expression that it gave. -/
structure Parsed.Cuts {stratum : Stratum} {c : Cursor} (p : Parsed Expr c)
    (d : ExprDerivation stratum) (used : List Token) : Prop where
  readAs : ReadAs p d
  took : p.Took used
  cut : (Node.expr p.value).Cut used

theorem Parsed.Cuts.lift {stratum other : Stratum} {c : Cursor} {p : Parsed Expr c}
    {inner : ExprDerivation stratum} {used : List Token} (cuts : p.Cuts inner used)
    (d : ExprDerivation other) (yield : d.yield = inner.yield) (tree : d.tree = inner.tree) :
    p.Cuts d used :=
  ⟨⟨yield ▸ cuts.readAs.kinds, tree ▸ cuts.readAs.tree⟩, cuts.took, cuts.cut⟩

namespace Grammar

variable {c : Cursor} {used : List Token}

section

variable {stratum : Stratum} {p : Parsed Expr c} {d : ExprDerivation stratum}

theorem yield_eq_kinds (readAs : ReadAs p d) (took : p.Took used) :
    d.yield = used.map (·.kind) := by
  have kinds := readAs.kinds
  rw [took.kinds] at kinds
  exact (List.append_cancel_right kinds).symm

theorem cuts_node (within : stratum.Within) (readAs : ReadAs p d) (took : p.Took used)
    (covers : p.value.location.Covers used)
    (pieces : Pieces Node.Cut (Node.expr p.value).children used) : p.Cuts d used := by
  obtain ⟨phrase, yield, tree⟩ := d.exists_phrase within
  have kinds := yield_eq_kinds readAs took
  exact ⟨readAs, took, .of_children covers
    ⟨phrase, yield.trans kinds, tree.trans readAs.tree.symm⟩ pieces⟩

end

theorem exponent_took {p : Parsed Float c} (read : exponent c = .ok p) : ∃ used, p.Took used := by
  have needed {before : Cursor} {size : Parsed Float before}
      (found : needExponent before = .ok size) : ∃ used, size.Took used := by
    obtain ⟨token, took, -⟩ := Cursor.take?_took (Cursor.need_eq_ok.mp found)
    exact ⟨[token], took⟩
  unfold exponent at read
  split at read
  next sign taken =>
    obtain ⟨size, found, read⟩ := Result.bind_eq_ok.mp read
    cases read
    obtain ⟨token, signTook, -⟩ := Cursor.take?_took taken
    obtain ⟨more, took⟩ := needed found
    exact ⟨_, signTook.followedBy took _⟩
  next =>
    split at read
    next sign taken =>
      obtain ⟨size, found, read⟩ := Result.bind_eq_ok.mp read
      cases read
      obtain ⟨token, signTook, -⟩ := Cursor.take?_took taken
      obtain ⟨more, took⟩ := needed found
      exact ⟨_, signTook.followedBy took _⟩
    next => exact needed read

section

variable {first : Level} {tighter : List Level} {stratum : Stratum}

theorem cuts_merged {p : Parsed Expr c} {d : ExprDerivation stratum} {left right : Expr}
    (between : List Token) {leftUsed rightUsed : List Token} (within : stratum.Within)
    (readAs : ReadAs p d) (inOrder : Token.InOrder c.rest) (took : p.Took (leftUsed ++ (between ++ rightUsed)))
    (location : p.value.location = left.location.merge right.location)
    (children : p.value.children = [left, right]) (lefts : (Node.expr left).Cut leftUsed)
    (rights : (Node.expr right).Cut rightUsed) : p.Cuts d (leftUsed ++ (between ++ rightUsed)) := by
  have usedInOrder := inOrder.sublist (took.rest ▸ List.sublist_append_left _ p.next.rest)
  refine cuts_node within readAs took ?_ ?_
  · rw [location]
    exact lefts.covers.merge rights.covers usedInOrder
  · rw [Node.children, children]
    exact .append (.single lefts) (.prepend between (.single rights))

theorem cuts_wrapped {whole : Parsed Unit c} {e part : Expr} {d : ExprDerivation stratum}
    (before : List Token) {used after : List Token} (within : stratum.Within)
    (readAs : ReadAs (whole.map fun _ => e) d) (took : whole.Took (before ++ (used ++ after)))
    (location : e.location = whole.location) (children : e.children = [part]) (cut : (Node.expr part).Cut used) :
    (whole.map fun _ => e).Cuts d (before ++ (used ++ after)) := by
  refine cuts_node within readAs (took.map _) (location ▸ took.covers) ?_
  change Pieces Node.Cut (e.children.map .expr) _
  rw [children]
  exact .prepend before (.append (.single cut) .nil)

end

theorem powers_cut {asUnit : Bool} {c : Cursor} {base p : Parsed Expr c}
    {d : ExprDerivation (.power asUnit)} {used : List Token} (cuts : base.Cuts d used)
    (read : powers base = .ok p) :
    ∃ (d : ExprDerivation (.power asUnit)) (used : List Token), p.Cuts d used := by
  rw [powers] at read
  split at read
  next =>
    cases read
    exact ⟨d, used, cuts⟩
  next caret taken =>
    obtain ⟨size, found, read⟩ := Result.bind_eq_ok.mp read
    obtain ⟨token, caretTook, -⟩ := Cursor.take?_took taken
    obtain ⟨sizeUsed, sizeTook⟩ := exponent_took found
    obtain ⟨e, readAs⟩ := readAs_power cuts.readAs taken found
    have took := cuts.took.followedBy (caretTook.followedBy sizeTook ()) ()
    exact powers_cut (cuts_wrapped [] trivial readAs took rfl rfl cuts.cut) read
termination_by base.next.rest.length
decreasing_by exact Parsed.followedBy_shorter _ _ _

mutual

theorem level_cut (levels : List Level) (within : levels <:+ Level.all) {c : Cursor}
    {p : Parsed Expr c} (inOrder : Token.InOrder c.rest) (read : level levels c = .ok p) :
    ∃ (d : ExprDerivation (.level levels)) (used : List Token), p.Cuts d used := by
  match levels with
  | [] =>
      rw [level] at read
      obtain ⟨d, used, cuts⟩ := signed_cut inOrder read
      exact ⟨.signed d, used, cuts.lift (.signed d) rfl rfl⟩
  | first :: tighter =>
      rw [level] at read
      obtain ⟨left, leftRead, read⟩ := Result.bind_eq_ok.mp read
      have tighterWithin := (List.suffix_cons first tighter).trans within
      obtain ⟨d, used, cuts⟩ := level_cut tighter tighterWithin inOrder leftRead
      exact chain_cut within inOrder (cuts.lift (.tighter d) rfl rfl)
        read
termination_by (c.rest.length, 2 * levels.length + 4)
decreasing_by
  · exact Prod.Lex.right _ (by simp +arith)
  · exact Prod.Lex.right _ (by simp +arith)
  · exact Prod.Lex.left _ _ (Parsed.shorter _)

theorem chain_cut {first : Level} {tighter : List Level} (within : first :: tighter <:+ Level.all)
    {c : Cursor} {left p : Parsed Expr c} {d : ExprDerivation (.level (first :: tighter))}
    {used : List Token} (inOrder : Token.InOrder c.rest) (cuts : left.Cuts d used)
    (read : chain first tighter left = .ok p) :
    ∃ (d : ExprDerivation (.level (first :: tighter))) (used : List Token), p.Cuts d used := by
  rw [chain] at read
  split at read
  next =>
    cases read
    exact ⟨d, used, cuts⟩
  next connector taken =>
    obtain ⟨right, rightRead, read⟩ := Result.bind_eq_ok.mp read
    obtain ⟨token, connectorTook, -⟩ := Cursor.take?_took taken
    have behind := connectorTook.inOrder (cuts.took.inOrder inOrder)
    have tighterWithin := (List.suffix_cons first tighter).trans within
    obtain ⟨operand, rightUsed, rightCuts⟩ := level_cut tighter tighterWithin behind rightRead
    obtain ⟨joined, readAs⟩ := readAs_join cuts.readAs taken rightCuts.readAs
    have took := cuts.took.followedBy (connectorTook.followedBy rightCuts.took ())
      (connector.value.join left.value right.value)
    exact chain_cut within inOrder (cuts_merged [token] within readAs inOrder took
      (connector.value.location_join _ _) (connector.value.children_join _ _) cuts.cut rightCuts.cut)
      read
termination_by (left.next.rest.length, 2 * tighter.length + 5)
decreasing_by
  · exact Prod.Lex.left _ _ (Parsed.shorter _)
  · exact Prod.Lex.left _ _ (Parsed.followedBy_shorter _ _ _)

theorem signed_cut {c : Cursor} {p : Parsed Expr c} (inOrder : Token.InOrder c.rest)
    (read : signed c = .ok p) :
    ∃ (d : ExprDerivation .signed) (used : List Token), p.Cuts d used := by
  rw [signed] at read
  split at read
  next =>
    obtain ⟨d, used, cuts⟩ := ascribed_cut inOrder read
    exact ⟨.ascribed d, used, cuts.lift (.ascribed d) rfl rfl⟩
  next op taken =>
    obtain ⟨operand, operandRead, read⟩ := Result.bind_eq_ok.mp read
    cases read
    obtain ⟨token, opTook, -⟩ := Cursor.take?_took taken
    obtain ⟨d, used, cuts⟩ := signed_cut (opTook.inOrder inOrder) operandRead
    have took := opTook.followedBy cuts.took ()
    rw [← List.append_nil used] at took
    exact ⟨.sign op.value d, _, cuts_wrapped [token] trivial (readAs_sign taken cuts.readAs) took rfl
      rfl cuts.cut⟩
termination_by (c.rest.length, 3)
decreasing_by
  · exact Prod.Lex.right _ (by decide)
  · exact Prod.Lex.left _ _ (Parsed.shorter _)

theorem ascribed_cut {c : Cursor} {p : Parsed Expr c} (inOrder : Token.InOrder c.rest)
    (read : ascribed c = .ok p) :
    ∃ (d : ExprDerivation .ascribed) (used : List Token), p.Cuts d used := by
  rw [ascribed] at read
  obtain ⟨operand, operandRead, read⟩ := Result.bind_eq_ok.mp read
  obtain ⟨d, used, cuts⟩ :=
    power_cut false (fun asUnit => by cases asUnit) inOrder operandRead
  exact units_cut inOrder (cuts.lift (.plain d) rfl rfl) read
termination_by (c.rest.length, 2)
decreasing_by
  · exact Prod.Lex.right _ (by decide)
  · exact Prod.Lex.left _ _ (Parsed.shorter _)

theorem units_cut {c : Cursor} {operand p : Parsed Expr c} {d : ExprDerivation .ascribed}
    {used : List Token} (inOrder : Token.InOrder c.rest) (cuts : operand.Cuts d used)
    (read : units operand = .ok p) :
    ∃ (d : ExprDerivation .ascribed) (used : List Token), p.Cuts d used := by
  rw [units] at read
  split at read
  next starts =>
    obtain ⟨unit, unitRead, read⟩ := Result.bind_eq_ok.mp read
    obtain ⟨unitDerivation, unitUsed, unitCuts⟩ :=
      power_cut true (fun _ => starts) (cuts.took.inOrder inOrder) unitRead
    have took := cuts.took.followedBy unitCuts.took
      (Expr.ascription (operand.value.location.merge unit.value.location) operand.value unit.value)
    exact units_cut inOrder (cuts_merged [] trivial (readAs_ascribe cuts.readAs unitCuts.readAs) inOrder
      took rfl rfl cuts.cut unitCuts.cut) read
  next =>
    cases read
    exact ⟨d, used, cuts⟩
termination_by (operand.next.rest.length, 2)
decreasing_by
  · exact Prod.Lex.right _ (by decide)
  · exact Prod.Lex.left _ _ (Parsed.followedBy_shorter _ _ _)

theorem power_cut (asUnit : Bool) {c : Cursor} {p : Parsed Expr c}
    (starts : asUnit = true → startsUnit c.kind? = true) (inOrder : Token.InOrder c.rest)
    (read : power c = .ok p) :
    ∃ (d : ExprDerivation (.power asUnit)) (used : List Token), p.Cuts d used := by
  rw [power] at read
  obtain ⟨base, baseRead, read⟩ := Result.bind_eq_ok.mp read
  obtain ⟨d, used, cuts⟩ := primary_cut asUnit starts inOrder baseRead
  exact powers_cut (cuts.lift (.primary d) rfl rfl) read
termination_by (c.rest.length, 1)
decreasing_by exact Prod.Lex.right _ (by decide)

theorem primary_cut (asUnit : Bool) {c : Cursor} {p : Parsed Expr c}
    (starts : asUnit = true → startsUnit c.kind? = true) (inOrder : Token.InOrder c.rest)
    (read : primary c = .ok p) :
    ∃ (d : ExprDerivation (.primary asUnit)) (used : List Token), p.Cuts d used := by
  rw [primary] at read
  split at read
  next opening taken =>
    obtain ⟨inner, innerRead, read⟩ := Result.bind_eq_ok.mp read
    obtain ⟨closing, closed, read⟩ := Result.bind_eq_ok.mp read
    cases read
    have closed := Cursor.needMark_eq_ok.mp closed
    obtain ⟨first, openTook, -⟩ := Cursor.take?_took taken
    obtain ⟨last, closeTook, -⟩ := Cursor.take?_took closed
    obtain ⟨d, used, cuts⟩ :=
      level_cut Level.all List.suffix_rfl (openTook.inOrder inOrder) innerRead
    have took := openTook.followedBy (cuts.took.followedBy closeTook ()) ()
    exact ⟨.paren d, _, cuts_wrapped [first] trivial (readAs_paren taken cuts.readAs closed) took rfl
      rfl cuts.cut⟩
  next =>
    obtain ⟨make, found, read⟩ := Result.bind_eq_ok.mp read
    cases read
    have taken := Cursor.need_eq_ok.mp found
    obtain ⟨token, took, accepted⟩ := Cursor.take?_took taken
    obtain ⟨single, fits, readAs⟩ := readAs_atom asUnit starts taken
    obtain ⟨atom, -, value⟩ := atom?_eq_some.mp accepted
    refine ⟨.atom single fits, [token], cuts_node trivial readAs (took.map _) ?_ ?_⟩
    · simp only [Parsed.map, value, Atom.location_tree]
      exact took.covers
    · simp only [Node.children, Parsed.map, value, Atom.children_tree, List.map_nil]
      exact .nil
termination_by (c.rest.length, 0)
decreasing_by exact Prod.Lex.left _ _ (Parsed.shorter _)

end

end Grammar

end Quantities
