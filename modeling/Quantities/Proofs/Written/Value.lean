import Quantities.Context
import Quantities.Display
import Quantities.Proofs.Dimensions.Entry
import Quantities.Proofs.Grammar.Program
import Quantities.Proofs.Placeless.Expression
import Quantities.Proofs.Written.Expression

/-!
Values written out. The text of a number or a unit, read as an expression again, evaluates to a value
with the same magnitude and the same dimensions, wherever the labels in it stand for themselves.
-/

namespace Quantities

/-- The text is read as an expression of the stratum, which has the value. -/
def Reads (stratum : Stratum) (values : String → Option Value) (text : String) (v : Value) : Prop :=
  ∃ d : ExprDerivation stratum, Stands text.toList d.yield ∧ d.tree.eval values = .ok v

namespace Reads

variable {values : String → Option Value} {text more : String} {asUnit : Bool} {u v w : Value}
  {unit : Measure} {x : Float}

theorem primary (reads : Reads (.primary asUnit) values text v) :
    Reads (.power asUnit) values text v := by
  obtain ⟨d, stands, evaluates⟩ := reads
  exact ⟨.primary d, stands, evaluates⟩

theorem ascribed (reads : Reads (.power false) values text v) : Reads .ascribed values text v := by
  obtain ⟨d, stands, evaluates⟩ := reads
  exact ⟨.plain d, stands, evaluates⟩

theorem signed (reads : Reads .ascribed values text v) : Reads .signed values text v := by
  obtain ⟨d, stands, evaluates⟩ := reads
  exact ⟨.ascribed d, stands, evaluates⟩

theorem product (reads : Reads .signed values text v) :
    Reads (.level [.product]) values text v := by
  obtain ⟨d, stands, evaluates⟩ := reads
  exact ⟨.tighter (.signed d), stands, evaluates⟩

theorem whole (reads : Reads (.level [.product]) values text v) :
    Reads (.level Level.all) values text v := by
  obtain ⟨d, stands, evaluates⟩ := reads
  exact ⟨.tighter (.tighter (.tighter (.tighter (.tighter d)))), stands, evaluates⟩

theorem ofSource (reads : Reads (.level Level.all) values text v) :
    ∃ e, Expr.ofSource text = .ok e ∧ e.eval values = .ok v := by
  obtain ⟨d, stands, evaluates⟩ := reads
  have kinds : d.yield = (Tokens.ofSource text).kinds := by
    rw [Tokens.kinds_ofSource, stands.writes.kinds]
  obtain ⟨e, read, tree⟩ := Expr.ofTokens_of_yield kinds
  exact ⟨e, read, Expr.eval_of_bare tree evaluates⟩

theorem name (spelled : (TokenKind.name text).Spelled) (found : values text = some v) :
    Reads (.primary asUnit) values text v := by
  refine ⟨.atom (.name text) fun _ => rfl, ⟨.name spelled, spelled.1.parts⟩, ?_⟩
  simp only [ExprDerivation.tree, Atom.tree, Expr.eval, found]

theorem scalar : Reads (.primary asUnit) values "scalar" (.unitConstructor .scalar) := by
  have stands : Stands (Atom.tree .nowhere (.word .scalar)).text.toList [Atom.kind (.word .scalar)] :=
    Atom.stands trivial nofun
  exact ⟨.atom (.word .scalar) fun _ => rfl, stands, rfl⟩

theorem paren (reads : Reads (.level Level.all) values text v) :
    Reads (.primary asUnit) values ("(" ++ text ++ ")") v := by
  obtain ⟨d, stands, evaluates⟩ := reads
  have closing : Writes [')'] [.mark .rightParen] := Writes.nil.mark .rightParen Breaks.nil.parts
  have inside := stands.append (.cons (by decide) _) closing
  have opening : Writes ('(' :: (text.toList ++ [')']))
      (.mark .leftParen :: (d.yield ++ [.mark .rightParen])) :=
    inside.writes.mark .leftParen inside.parts
  have whole : Stands _ _ := ⟨opening, .cons (by decide) _⟩
  exact ⟨.paren d, by simpa [ExprDerivation.yield] using whole, evaluates⟩

theorem ofReadable (readable : Number.Readable x)
    (front : ∀ (digits : String) (y : Float), Number.Spells digits.toList y →
      Reads .ascribed values (digits ++ more) (.quantity ⟨y, unit⟩)) :
    Reads .signed values (Number.text x ++ more) (.quantity ⟨x, unit⟩) := by
  cases negative : Number.isNegative x with
  | false => exact (front _ x (readable.spells negative)).signed
  | true =>
      obtain ⟨digits, y, written, spells, rfl⟩ := readable.spells_neg negative
      obtain ⟨d, stands, evaluates⟩ := front (String.ofList digits) y (by rwa [String.toList_ofList])
      have text : (Number.text (-y) ++ more).toList = '-' :: (String.ofList digits ++ more).toList := by
        simp [written]
      refine ⟨.sign .minus (.ascribed d), ?_, ?_⟩
      · rw [text]
        exact stands.sign .minus
      · simp only [ExprDerivation.tree, Expr.eval, evaluates]
        rfl

theorem number {digits : String} (spells : Number.Spells digits.toList x) :
    Reads .ascribed values digits (.ofNumber x) := by
  refine ⟨.plain (.primary (.atom (.number x) (absurd · Bool.false_ne_true))),
    ⟨.number spells, spells.parts⟩, rfl⟩

theorem ofNumber (readable : Number.Readable x) :
    Reads .signed values (Number.text x) (.ofNumber x) := by
  have reads : Reads .signed values (Number.text x ++ "") (.quantity ⟨x, .scalar⟩) := by
    refine ofReadable readable ?_
    intro digits y spells
    rw [String.append_empty]
    exact number spells
  rwa [String.append_empty] at reads

theorem ascription (readable : Number.Readable x)
    (reads : Reads (.power true) values text (.unitConstructor unit)) :
    Reads .signed values (Number.text x ++ " " ++ text) (.quantity ⟨x, unit⟩) := by
  obtain ⟨d, stands, evaluates⟩ := reads
  rw [String.append_assoc]
  refine ofReadable readable ?_
  intro digits y spells
  obtain ⟨operand, operandStands, operandEvaluates⟩ : Reads .ascribed values digits (.ofNumber y) :=
    number spells
  refine ⟨.ascribe operand d, ?_, ?_⟩
  · have blank : Breaks (' ' :: text.toList) := .cons (by decide) _
    have written := operandStands.append blank stands.writes.blank
    simpa [ExprDerivation.yield] using written
  · simp only [ExprDerivation.tree, Expr.eval, operandEvaluates, evaluates]
    rfl

theorem power (readable : Number.Readable x)
    (reads : Reads (.power asUnit) values text (.unitConstructor unit)) :
    Reads (.power asUnit) values (text ++ "^" ++ Number.text x) (.unitConstructor (unit.power x)) := by
  obtain ⟨d, stands, evaluates⟩ := reads
  obtain ⟨exponent, rfl, exponentStands⟩ := Exponent.exists_stands readable
  have raised : Writes ('^' :: (Number.text exponent.value).toList)
      (.mark .caret :: exponent.yield) :=
    exponentStands.writes.mark .caret exponentStands.parts
  refine ⟨.power d exponent, ?_, ?_⟩
  · have written := stands.append (.cons (by decide) _) raised
    simpa [ExprDerivation.yield] using written
  · simp only [ExprDerivation.tree, Expr.eval, evaluates]
    rfl

theorem times (left : Reads (.level [.product]) values text u) (right : Reads .signed values more v)
    (fits : ∀ location leftLocation rightLocation,
      Evaluation.checkOperands location leftLocation rightLocation .times u v = .ok ())
    (product : u.times v = some w) :
    Reads (.level [.product]) values (text ++ " * " ++ more) w := by
  obtain ⟨d, stands, evaluates⟩ := left
  obtain ⟨other, otherStands, otherEvaluates⟩ := right
  refine ⟨.join (.binary .times) rfl d (.signed other), ?_, ?_⟩
  · have blank : Breaks (' ' :: ('*' :: ' ' :: more.toList)) := .cons (by decide) _
    have operator := (Connector.binary .times).writes otherStands.writes
    have written := stands.append blank operator.blank
    simpa [ExprDerivation.yield] using written
  · simp only [ExprDerivation.tree, Connector.node, Expr.eval, evaluates, otherEvaluates]
    change Evaluation.binary _ _ _ .times u v = .ok w
    rw [Evaluation.binary, fits]
    simp only [Value.binary, product]
    rfl

theorem timesUnit {front : Measure}
    (left : Reads (.level [.product]) values text (.unitConstructor front))
    (right : Reads (.power false) values more (.unitConstructor unit)) :
    Reads (.level [.product]) values (text ++ " * " ++ more) (.unitConstructor (front.times unit)) :=
  left.times right.ascribed.signed (fun _ _ _ => rfl) rfl

end Reads

namespace Measure

/-- Labels that are read as names, in order, and numbers that are read as they are written. -/
structure Readable (unit : Measure) : Prop where
  ordered : Dimensions.Ordered unit.dims.entries
  zeroFree : unit.dims.ZeroFree
  spelled : ∀ entry ∈ unit.dims.entries, (TokenKind.name entry.1).Spelled
  exponents : ∀ entry ∈ unit.dims.entries, Number.Readable entry.2
  factor : Number.Readable unit.factor

/-- Each label of the unit is the name of a unit with this label alone. -/
def Named (unit : Measure) (values : String → Option Value) : Prop :=
  ∀ entry ∈ unit.dims.entries, ∃ named, values entry.1 = some (.unitConstructor named) ∧
    named.dims = .single entry.1

variable {values : String → Option Value} {unit : Measure}

theorem displayFactor_reads {entry : String × Float} (spelled : (TokenKind.name entry.1).Spelled)
    (readable : Number.Readable entry.2) (nonzero : (entry.2 == 0) = false) {named : Measure}
    (found : values entry.1 = some (.unitConstructor named)) (dims : named.dims = .single entry.1) :
    ∃ single : Measure, single.dims = ⟨[entry]⟩ ∧ ∀ asUnit,
      Reads (.power asUnit) values (displayFactor entry.1 entry.2).text (.unitConstructor single) := by
  obtain ⟨label, exponent⟩ := entry
  have name (asUnit : Bool) : Reads (.power asUnit) values label (.unitConstructor named) :=
    (Reads.name spelled found).primary
  unfold displayFactor
  by_cases one : (exponent == 1) = true
  · obtain rfl : exponent = 1 := Dimensions.exponent_eq_of_beq one nonzero
    rw [if_pos one]
    exact ⟨named, dims.trans (Dimensions.single_eq label), name⟩
  · rw [if_neg one]
    refine ⟨named.power exponent, ?_, fun asUnit => (name asUnit).power readable⟩
    rw [power, dims, Dimensions.power_single readable.1 nonzero]

/-- More factors behind what has been read already. -/
theorem factors_read (readable : unit.Readable) (named : unit.Named values)
    {rest : List (String × Float)} (members : ∀ entry ∈ rest, entry ∈ unit.dims.entries)
    {front : String} {w : Measure} (ordered : Dimensions.Ordered (w.dims.entries ++ rest))
    (reads : Reads (.level [.product]) values front (.unitConstructor w)) :
    ∃ whole : Measure, whole.dims = ⟨w.dims.entries ++ rest⟩ ∧
      Reads (.level [.product]) values
        (" * ".intercalate
          (front :: Display.texts (rest.map fun entry => displayFactor entry.1 entry.2)))
        (.unitConstructor whole) := by
  induction rest generalizing front w with
  | nil =>
      refine ⟨w, by rw [List.append_nil], ?_⟩
      rw [List.map_nil, Display.texts, String.intercalate_singleton]
      exact reads
  | cons entry rest ih =>
      have member := members entry List.mem_cons_self
      have exponent := readable.exponents entry member
      have nonzero := readable.zeroFree entry member
      obtain ⟨bound, found, boundDims⟩ := named entry member
      obtain ⟨single, dims, shown⟩ :=
        displayFactor_reads (readable.spelled entry member) exponent nonzero found boundDims
      have after : ∀ earlier ∈ w.dims.entries, earlier.1 < entry.1 := fun earlier earlierMember =>
        (List.pairwise_append.mp ordered).2.2 earlier earlierMember entry List.mem_cons_self
      have longer : (w.times single).dims = ⟨w.dims.entries ++ [entry]⟩ := by
        rw [times, dims]
        exact Dimensions.times_last exponent.1 nonzero after
      have moved : w.dims.entries ++ entry :: rest = (w.times single).dims.entries ++ rest := by
        rw [longer, List.append_assoc, List.singleton_append]
      rw [moved] at ordered ⊢
      exact ih (fun later more => members later (List.mem_cons_of_mem _ more)) ordered
        (reads.timesUnit (shown false))

/-- The factors of the unit as they are shown, without the number in front. -/
def shownFactors (unit : Measure) : List Display :=
  let labels := unit.dims.entries.map fun entry => displayFactor entry.1 entry.2
  if labels.isEmpty then [.keyword "scalar"] else labels

/-- The first factor can be read alone, and then the others behind any text that has its dimensions. -/
theorem shownFactors_read (readable : unit.Readable) (named : unit.Named values) :
    ∃ first others, unit.shownFactors = first :: others ∧
      ∃ single : Measure, (others = [] → single.dims = unit.dims) ∧
        (∀ asUnit, Reads (.power asUnit) values first.text (.unitConstructor single)) ∧
        ∀ {front : String} {w : Measure},
          Reads (.level [.product]) values front (.unitConstructor w) → w.dims = single.dims →
            ∃ whole : Measure, whole.dims = unit.dims ∧
              Reads (.level [.product]) values (" * ".intercalate (front :: Display.texts others))
                (.unitConstructor whole) := by
  have ordered := readable.ordered
  rw [shownFactors]
  cases entries : unit.dims.entries with
  | nil =>
      have scalar : Measure.scalar.dims = unit.dims := (congrArg Dimensions.mk entries).symm
      refine ⟨.keyword "scalar", [], rfl, .scalar, fun _ => scalar, fun _ => Reads.scalar.primary, ?_⟩
      intro front w reads dims
      refine ⟨w, dims.trans scalar, ?_⟩
      rw [Display.texts, String.intercalate_singleton]
      exact reads
  | cons entry rest =>
      have member : entry ∈ unit.dims.entries := entries ▸ List.mem_cons_self
      have members : ∀ later ∈ rest, later ∈ unit.dims.entries :=
        fun later more => entries ▸ List.mem_cons_of_mem _ more
      obtain ⟨bound, found, boundDims⟩ := named entry member
      obtain ⟨single, dims, shown⟩ := displayFactor_reads (readable.spelled entry member)
        (readable.exponents entry member) (readable.zeroFree entry member) found boundDims
      rw [entries] at ordered
      refine ⟨_, _, rfl, single, ?_, shown, ?_⟩
      · intro alone
        rw [List.map_eq_nil_iff.mp alone] at entries
        exact dims.trans (congrArg Dimensions.mk entries).symm
      · intro front w reads same
        have start : w.dims.entries = [entry] := by rw [same, dims]
        have ordered : Dimensions.Ordered (w.dims.entries ++ rest) := by
          rw [start]
          exact ordered
        obtain ⟨whole, wholeDims, wholeReads⟩ := factors_read readable named members ordered reads
        refine ⟨whole, ?_, wholeReads⟩
        rw [wholeDims, start, List.singleton_append, ← entries]

theorem display_eq (unit : Measure) :
    unit.display =
      match if unit.dims == unit.base && unit.factor != 1 then
        .number unit.factor :: unit.shownFactors else unit.shownFactors with
      | [only] => only
      | several => .product several := rfl

/-- Alone or behind its factor, a unit is read with its dimensions. Shown as one word it can follow a
number, and otherwise in parentheses. -/
theorem display_reads (readable : unit.Readable) (named : unit.Named values) :
    (∃ whole : Measure, whole.dims = unit.dims ∧
      Reads (.level [.product]) values unit.display.text (.unitConstructor whole)) ∧
    ∃ whole : Measure, whole.dims = unit.dims ∧
      Reads (.power true) values unit.display.enclose.text (.unitConstructor whole) := by
  obtain ⟨first, others, shown, single, alone, firstReads, othersRead⟩ :=
    shownFactors_read readable named
  have enclosed {tree : Display} {whole : Measure} (several : tree.isAtomic = false)
      (reads : Reads (.level [.product]) values tree.text (.unitConstructor whole)) :
      Reads (.power true) values tree.enclose.text (.unitConstructor whole) := by
    rw [Display.enclose, several, if_neg Bool.false_ne_true, Display.text]
    exact reads.whole.paren.primary
  rw [display_eq, shown]
  by_cases scaled : (unit.dims == unit.base && unit.factor != 1) = true
  · rw [if_pos scaled]
    have front := (Reads.ofNumber readable.factor).product.times (firstReads false).ascribed.signed
      (fun _ _ _ => rfl) rfl
    obtain ⟨whole, dims, reads⟩ := othersRead front rfl
    have reads : Reads (.level [.product]) values
        (Display.product (.number unit.factor :: first :: others)).text (.unitConstructor whole) := by
      rw [Display.text]
      exact reads
    exact ⟨⟨whole, dims, reads⟩, whole, dims, enclosed rfl reads⟩
  · rw [if_neg scaled]
    obtain ⟨whole, dims, reads⟩ := othersRead (firstReads false).ascribed.signed.product rfl
    cases others with
    | nil =>
        rw [Display.texts, String.intercalate_singleton] at reads
        refine ⟨⟨whole, dims, reads⟩, ?_⟩
        by_cases atomic : first.isAtomic = true
        · simp only [Display.enclose, if_pos atomic]
          exact ⟨single, alone rfl, firstReads true⟩
        · exact ⟨whole, dims, enclosed (Bool.eq_false_iff.mpr atomic) reads⟩
    | cons second rest =>
        have reads : Reads (.level [.product]) values
            (Display.product (first :: second :: rest)).text (.unitConstructor whole) := by
          rw [Display.text]
          exact reads
        exact ⟨⟨whole, dims, reads⟩, whole, dims, enclosed rfl reads⟩

end Measure

/-- A value of the same kind, with the same magnitude and the same dimensions. -/
inductive Value.Echoes : Value → Value → Prop where
  | quantity {q echo : Quantity} (magnitude : echo.magnitude = q.magnitude)
      (dims : echo.unit.dims = q.unit.dims) : Echoes (.quantity q) (.quantity echo)
  | unitConstructor {unit echo : Measure} (dims : echo.dims = unit.dims) :
      Echoes (.unitConstructor unit) (.unitConstructor echo)

theorem Quantity.display_reads {values : String → Option Value} {q : Quantity}
    (readable : q.unit.Readable) (named : q.unit.Named values)
    (magnitude : Number.Readable q.magnitude) :
    ∃ echo : Quantity, echo.magnitude = q.magnitude ∧ echo.unit.dims = q.unit.dims ∧
      Reads .signed values q.display.text (.quantity echo) := by
  unfold display
  by_cases plain : (q.isScalar && q.unit.factor == 1) = true
  · have scalar : q.unit.dims.entries = [] :=
      List.isEmpty_iff.mp (Bool.and_eq_true_iff.mp plain).1
    rw [if_pos plain, Display.text]
    exact ⟨ofNumber q.magnitude, rfl, (congrArg Dimensions.mk scalar).symm, .ofNumber magnitude⟩
  · obtain ⟨-, whole, dims, reads⟩ := Measure.display_reads readable named
    rw [if_neg plain, Display.text, Display.text]
    exact ⟨⟨q.magnitude, whole⟩, rfl, dims, reads.ascription magnitude⟩

/-- The text of a unit, or of a number with the unit, is read and evaluates to such a value again,
wherever each label is the name of a unit with this label alone. -/
theorem Value.text_evaluates {context : Context} {unit : Measure} (readable : unit.Readable)
    (named : unit.Named context.getValue?) :
    (∃ e echo, Expr.ofSource (Value.unitConstructor unit).text = .ok e ∧
      e.eval context.getValue? = .ok echo ∧ (Value.unitConstructor unit).Echoes echo) ∧
    ∀ x, Number.Readable x → ∃ e echo, Expr.ofSource (Value.quantity ⟨x, unit⟩).text = .ok e ∧
      e.eval context.getValue? = .ok echo ∧ (Value.quantity ⟨x, unit⟩).Echoes echo := by
  constructor
  · obtain ⟨⟨whole, dims, reads⟩, -⟩ := Measure.display_reads readable named
    obtain ⟨e, read, evaluates⟩ := reads.whole.ofSource
    exact ⟨e, _, read, evaluates, .unitConstructor dims⟩
  · intro x finite
    obtain ⟨echo, magnitude, dims, reads⟩ :=
      Quantity.display_reads (q := ⟨x, unit⟩) readable named finite
    obtain ⟨e, read, evaluates⟩ := reads.product.whole.ofSource
    exact ⟨e, _, read, evaluates, .quantity magnitude dims⟩

/-- A speed. Its text has parentheses, an exponent with a sign and the labels in their order. -/
def Measure.kilometresAnHour : Measure :=
  ⟨⟨[("h", -1), ("km", 1)]⟩, ⟨[("m", 1), ("s", -1)]⟩, 0.25⟩

theorem Measure.kilometresAnHour_readable : kilometresAnHour.Readable := by
  have hour : (TokenKind.name "h").Spelled := ⟨⟨_, _, rfl, rfl, nofun⟩, by decide +kernel⟩
  have kilometre : (TokenKind.name "km").Spelled :=
    ⟨⟨_, _, rfl, rfl, List.all_eq_true.mp rfl⟩, by decide +kernel⟩
  refine ⟨?_, ?_, ?_, ?_, by decide +kernel, by decide +kernel⟩
  · exact List.pairwise_pair.mpr (by decide +kernel)
  · simp only [Dimensions.ZeroFree, kilometresAnHour, List.forall_mem_cons]
    exact ⟨by decide +kernel, by decide +kernel, List.forall_mem_nil _⟩
  · simp only [kilometresAnHour, List.forall_mem_cons]
    exact ⟨hour, kilometre, List.forall_mem_nil _⟩
  · simp only [kilometresAnHour, List.forall_mem_cons]
    exact ⟨⟨by decide +kernel, by decide +kernel⟩, ⟨by decide +kernel, by decide +kernel⟩,
      List.forall_mem_nil _⟩

theorem Value.speed_text_evaluates :
    ∃ e echo, Expr.ofSource (Value.quantity ⟨-3, .kilometresAnHour⟩).text = .ok e ∧
      e.eval Context.prelude.getValue? = .ok echo ∧
      (Value.quantity ⟨-3, .kilometresAnHour⟩).Echoes echo := by
  have named : Measure.kilometresAnHour.Named Context.prelude.getValue? := by
    intro entry member
    rcases List.mem_cons.mp member with rfl | member
    · exact ⟨_, rfl, rfl⟩
    · obtain rfl := List.mem_singleton.mp member
      exact ⟨_, rfl, rfl⟩
  exact (text_evaluates Measure.kilometresAnHour_readable named).2 (-3)
    ⟨by decide +kernel, by decide +kernel⟩

end Quantities
