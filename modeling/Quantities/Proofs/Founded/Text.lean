import Quantities.Proofs.Founded.Session
import Quantities.Proofs.Written.Distinct

/-!
What is printed against the quantity that it stands for. The text of a quantity tells everything but the
factor of a unit that is not written in base units. The factor is left to the labels there, and a unit
that was scaled has the labels of the unit that it was made of.
-/

namespace Quantities

namespace Quantity

variable {a b left right : Quantity} {unit : Measure}

theorem beq_self_of_isFinite {x : Float} (finite : x.isFinite = true) : (x == x) = true := by
  rw [Float.beq_self_iff]
  rintro rfl
  exact absurd finite (by decide +kernel)

/-- One magnitude in two units with the same base dimensions is converted to the same magnitude just if
it is zero or scaled by the same factor. -/
theorem convert_beq_iff (finite : a.magnitude.isFinite = true) (magnitude : a.magnitude = b.magnitude)
    (base : a.unit.base = b.unit.base) (leftConverts : a.convert unit = some left)
    (rightConverts : b.convert unit = some right) (leftExact : a.ConvertsExactly unit)
    (rightExact : b.ConvertsExactly unit) :
    (left.magnitude == right.magnitude) = true ↔ a.ScaledAlike b unit ∨ (a.magnitude == 0) = true := by
  cases same : a.unit.base == unit.base with
  | true =>
      have otherSame : (b.unit.base == unit.base) = true := base ▸ same
      obtain ⟨m, f, g, first⟩ := leftExact.scales same
      obtain ⟨n, h, g', second⟩ := rightExact.scales otherSame
      obtain rfl := Option.some.inj (first.target.symm.trans second.target)
      obtain rfl := Option.some.inj (first.magnitude.symm.trans (magnitude ▸ second.magnitude))
      rw [convert_of_base same] at leftConverts
      rw [convert_of_base otherSame] at rightConverts
      cases leftConverts
      cases rightConverts
      rw [Number.beq_iff_rational first.converted second.converted, div_left_inj' first.nonzero,
        mul_eq_mul_left_iff, ScaledAlike, forall_prop_of_true same,
        Number.beq_iff_rational first.factor second.factor, ← Number.rational?_eq_zero,
        first.magnitude, Option.some.injEq]
  | false =>
      have otherSame : (b.unit.base == unit.base) = false := base ▸ same
      rw [a.convert_of_not_base same] at leftConverts
      rw [b.convert_of_not_base otherSame] at rightConverts
      obtain ⟨-, ⟨⟩⟩ := Option.ite_none_right_eq_some.mp leftConverts
      obtain ⟨-, ⟨⟩⟩ := Option.ite_none_right_eq_some.mp rightConverts
      have alike : a.ScaledAlike b unit := by
        intro base
        rw [same] at base
        cases base
      rw [← magnitude]
      exact ⟨fun _ => .inl alike, fun _ => beq_self_of_isFinite finite⟩

/-- A conversion looks at the magnitude, the dimensions, the base dimensions, and the factor if the unit
has the same base dimensions. -/
theorem convert_congr (magnitude : a.magnitude = b.magnitude) (dims : a.unit.dims = b.unit.dims)
    (base : a.unit.base = b.unit.base)
    (factor : (a.unit.base == unit.base) = true → a.unit.factor = b.unit.factor) :
    a.convert unit = b.convert unit := by
  have plain : a.isScalar = b.isScalar := congrArg Dimensions.isScalar dims
  cases same : a.unit.base == unit.base with
  | true => rw [convert_of_base same, convert_of_base (base ▸ same), magnitude, factor same]
  | false =>
      rw [a.convert_of_not_base same, b.convert_of_not_base (base ▸ same), plain, magnitude]

end Quantity

namespace Session

variable {steps : List (Session × String)} {a b : Quantity}

theorem legible_of_founded {law : String → String →₀ ℚ} {q : Quantity}
    (founded : (Value.quantity q).kind.Founded law {label | (TokenKind.name label).Spelled})
    (factor : q.unit.factor.isFinite = true) : q.unit.Legible :=
  ⟨fun _ member => Dimensions.Founded.mem_labels founded member,
    fun _ member => Dimensions.Founded.isFinite founded member, factor⟩

/-- Quantities with the same text have the same magnitude, the same dimensions and the same base
dimensions, and the same factor if they are written in base units. What they are converted to is the
same if their factors are, or if conversion scales neither; and without rounding it is the same only
then, unless they are zero. -/
theorem convert_of_text (takes : prelude.Takes steps)
    (distinct : (prelude.labels ++ steps.flatMap declared).Nodup)
    (makes : Makes steps (.quantity a)) (otherMakes : Makes steps (.quantity b))
    (finite : a.magnitude.isFinite = true) (otherFinite : b.magnitude.isFinite = true)
    (factor : a.unit.factor.isFinite = true) (otherFactor : b.unit.factor.isFinite = true)
    (same : (Value.quantity a).text = (Value.quantity b).text) :
    a.magnitude = b.magnitude ∧ a.unit.dims = b.unit.dims ∧ a.unit.base = b.unit.base ∧
    ((a.unit.dims == a.unit.base) = true → a.unit.factor = b.unit.factor) ∧
    ∀ unit,
      (((a.unit.base == unit.base) = true → a.unit.factor = b.unit.factor) →
        a.convert unit = b.convert unit) ∧
      ∀ left right, a.convert unit = some left → b.convert unit = some right →
        a.ConvertsExactly unit → b.ConvertsExactly unit →
          ((left.magnitude == right.magnitude) = true ↔
            a.ScaledAlike b unit ∨ (a.magnitude == 0) = true) := by
  obtain ⟨law, follows⟩ := exists_founded takes distinct
  have founded := follows _ makes
  have otherFounded := follows _ otherMakes
  obtain ⟨magnitude, dims, shown⟩ := Quantity.eq_of_text finite otherFinite
    (legible_of_founded founded factor) (legible_of_founded otherFounded otherFactor) same
  have base : a.unit.base = b.unit.base := by
    change Dimensions.Founded law _ a.unit.dims a.unit.base at founded
    rw [dims] at founded
    exact founded.base_eq otherFounded
  refine ⟨magnitude, dims, base, ?_, ?_⟩
  · intro inBase
    have otherInBase : (b.unit.dims == b.unit.base) = true := by rwa [← dims, ← base]
    exact Measure.factor_eq_of_shown inBase otherInBase shown
  · intro unit
    exact ⟨Quantity.convert_congr magnitude dims base, fun left right leftConverts rightConverts =>
      Quantity.convert_beq_iff finite magnitude base leftConverts rightConverts⟩

/-- An input that is one expression over the usual units, in which no exponent is rounded. -/
structure Asks (session : Session) (input : String) (v : Value) : Prop where
  usual : session.context = .prelude
  reads : ∃ location e type, Program.ofSource input = .ok [.expr location e] ∧
    e.infer Context.prelude.getType? = .ok type ∧ e.eval Context.prelude.getValue? = .ok v ∧
    e.Unrounded Context.prelude.getValue?

theorem checkAll_usual {session : Session} (usual : session.context = .prelude) {e : Expr} {type : Value}
    (location : Location) (inferred : e.infer Context.prelude.getType? = .ok type) :
    Stmt.checkAll [.expr location e] none session.context = ⟨.ok (some type), .prelude⟩ := by
  rw [usual, Stmt.checkAll, Stmt.check, inferred]
  rfl

namespace Asks

variable {session : Session} {input : String} {v : Value}

theorem of_phrase (phrase : Phrase) (usual : session.context = .prelude)
    (kinds : phrase.yield = (Tokens.ofSource input).kinds) (bare : phrase.tree.bare = phrase.tree)
    {type : Value} (inferred : phrase.tree.infer Context.prelude.getType? = .ok type)
    (value : phrase.tree.eval Context.prelude.getValue? = .ok v)
    (unrounded : phrase.tree.Unrounded Context.prelude.getValue?) : session.Asks input v := by
  have yields : (ProgramDerivation.cut .nil (.expr phrase)).yield = (Tokens.ofSource input).kinds := by
    rw [← kinds]
    simp [ProgramDerivation.yield, BodyDerivation.yield, StmtDerivation.yield, ending]
  obtain ⟨program, read, trees⟩ := Program.ofTokens_of_yield yields
  obtain ⟨stmt, rfl, tree⟩ := List.map_eq_singleton_iff.mp trees
  have same : stmt.bare = (Stmt.expr .nowhere phrase.tree).bare :=
    tree.trans (congrArg (Stmt.expr .nowhere) bare.symm)
  cases Stmt.twins_of_bare same with
  | @expr location place e other sides =>
      have bare := sides.trans bare
      rw [← bare, Expr.unrounded_bare] at unrounded
      exact ⟨usual, location, e, type, read, Expr.infer_of_bare bare inferred,
        Expr.eval_of_bare bare value, unrounded⟩

theorem runs (asks : session.Asks input v) :
    session.run 0 input = some (.ok (some v), { session with bindings := .own .prelude }) := by
  obtain ⟨usual, location, e, type, read, inferred, value, -⟩ := asks
  have checks := checkAll_usual usual location inferred
  refine run_eq_ok.mpr ⟨_, read, .prelude, ⟨⟨_, congrArg Step.result checks⟩, ?_⟩, rfl⟩
  rw [Context.checked, checks, Stmt.runAll, Stmt.run, value]
  rfl

theorem declared (asks : session.Asks input v) : Session.declared (session, input) = [] := by
  obtain ⟨usual, location, e, type, read, inferred, -⟩ := asks
  have checks := checkAll_usual usual location inferred
  have accepts : session.Accepts input [.expr location e] := ⟨read, _, congrArg Step.result checks⟩
  rw [Session.declared, accepts.accepted?]
  rfl

theorem makes (asks : session.Asks input v) (member : (session, input) ∈ steps) : Makes steps v := by
  obtain ⟨usual, location, e, type, read, inferred, value, unrounded⟩ := asks
  have checks := checkAll_usual usual location inferred
  have accepts : session.Accepts input [.expr location e] := ⟨read, _, congrArg Step.result checks⟩
  have outer : session.context.checked [.expr location e] = .prelude := congrArg Step.context checks
  refine .evaluated member accepts .first (List.mem_singleton_self e) (Expr.mem_parts_self e) ?_ ?_ ?_
  · rwa [outer]
  · intro place name inside w found
    rw [outer] at found
    exact .usual found
  · rwa [outer]

end Asks

/-- Three kilometres, and three times two of them. -/
def kilometres (factor : Float) : Quantity := ⟨3, .single "km", .single "m", factor⟩

/-- Doubled kilometres are written down first, and then plain ones. -/
def scaledKilometres : List (Session × String) :=
  [(prelude, "3 (2 * km)"), ({ prelude with bindings := .own .prelude }, "3 km")]

theorem scaledKilometres_asks :
    prelude.Asks "3 (2 * km)" (.quantity (kilometres (2 * 1000))) ∧
    Asks { prelude with bindings := .own .prelude } "3 km" (.quantity (kilometres 1000)) := by
  let phrase (d : ExprDerivation .signed) : Phrase :=
    .tighter (.tighter (.tighter (.tighter (.tighter (.tighter (.signed d))))))
  let number (x : Float) : ExprDerivation (.power false) :=
    .primary (.atom (.number x) fun unit => absurd unit Bool.false_ne_true)
  let word (asUnit : Bool) (text : String) : ExprDerivation (.power asUnit) :=
    .primary (.atom (.name text) fun _ => rfl)
  let product : Phrase := .tighter (.tighter (.tighter (.tighter (.tighter
    (.join (.binary .times) rfl (.tighter (.signed (.ascribed (.plain (number 2)))))
      (.signed (.ascribed (.plain (word false "km")))))))))
  let doubled : Phrase := phrase (.ascribed (.ascribe (.plain (number 3)) (.primary (.paren product))))
  let single : Phrase := phrase (.ascribed (.ascribe (.plain (number 3)) (word true "km")))
  constructor
  · exact .of_phrase doubled rfl (by decide +kernel) rfl rfl rfl (by decide +kernel)
  · exact .of_phrase single rfl (by decide +kernel) rfl rfl rfl (by decide +kernel)

theorem scaledKilometres_takes : prelude.Takes scaledKilometres ∧
    (prelude.labels ++ scaledKilometres.flatMap declared).Nodup := by
  obtain ⟨doubled, single⟩ := scaledKilometres_asks
  refine ⟨.next doubled.runs (.last _ _), ?_⟩
  have none : scaledKilometres.flatMap declared = [] := by
    simp [scaledKilometres, doubled.declared, single.declared]
  rw [none]
  decide

theorem scaledKilometres_makes : Makes scaledKilometres (.quantity (kilometres (2 * 1000))) ∧
    Makes scaledKilometres (.quantity (kilometres 1000)) := by
  obtain ⟨doubled, single⟩ := scaledKilometres_asks
  exact ⟨doubled.makes (by simp [scaledKilometres]), single.makes (by simp [scaledKilometres])⟩

/-- Both are printed as `3 km`, and in metres the first is twice the second. No operation is rounded. -/
theorem doubled_kilometres_printed_alike :
    let metre := Measure.fresh "m"
    prelude.Takes scaledKilometres ∧ (prelude.labels ++ scaledKilometres.flatMap declared).Nodup ∧
    (∃ next last, prelude.run 0 "3 (2 * km)" =
        some (.ok (some (.quantity (kilometres (2 * 1000)))), next) ∧
      next.run 0 "3 km" = some (.ok (some (.quantity (kilometres 1000))), last)) ∧
    Makes scaledKilometres (.quantity (kilometres (2 * 1000))) ∧
    Makes scaledKilometres (.quantity (kilometres 1000)) ∧
    Number.Exact (· * ·) 2 1000 (2 * 1000) ∧
    (Value.quantity (kilometres (2 * 1000))).text = "3 km" ∧
    (Value.quantity (kilometres 1000)).text = "3 km" ∧
    (kilometres (2 * 1000)).ConvertsExactly metre ∧ (kilometres 1000).ConvertsExactly metre ∧
    ∃ left right, (kilometres (2 * 1000)).convert metre = some left ∧
      (kilometres 1000).convert metre = some right ∧ (left.magnitude == right.magnitude) = false := by
  obtain ⟨doubled, single⟩ := scaledKilometres_asks
  obtain ⟨takes, distinct⟩ := scaledKilometres_takes
  obtain ⟨makes, otherMakes⟩ := scaledKilometres_makes
  exact ⟨takes, distinct, ⟨_, _, doubled.runs, single.runs⟩, makes, otherMakes, by decide +kernel,
    by decide +kernel, by decide +kernel, by decide +kernel, by decide +kernel, _, _,
    Quantity.convert_of_base (by decide +kernel), Quantity.convert_of_base (by decide +kernel),
    by decide +kernel⟩

/-- The two differ in their factor, and so does what they are converted to. -/
theorem scaledKilometres_convert_of_text :
    let metre := Measure.fresh "m"
    prelude.Takes scaledKilometres ∧ (prelude.labels ++ scaledKilometres.flatMap declared).Nodup ∧
    Makes scaledKilometres (.quantity (kilometres (2 * 1000))) ∧
    Makes scaledKilometres (.quantity (kilometres 1000)) ∧
    (kilometres (2 * 1000)).magnitude.isFinite = true ∧ (kilometres 1000).magnitude.isFinite = true ∧
    (kilometres (2 * 1000)).unit.factor.isFinite = true ∧
    (kilometres 1000).unit.factor.isFinite = true ∧
    (Value.quantity (kilometres (2 * 1000))).text = (Value.quantity (kilometres 1000)).text ∧
    (kilometres (2 * 1000)).unit.base = (kilometres 1000).unit.base ∧
    ∃ left right, (kilometres (2 * 1000)).convert metre = some left ∧
      (kilometres 1000).convert metre = some right ∧
      ((left.magnitude == right.magnitude) = true ↔
        (kilometres (2 * 1000)).ScaledAlike (kilometres 1000) metre ∨
          ((kilometres (2 * 1000)).magnitude == 0) = true) := by
  intro metre
  obtain ⟨takes, distinct⟩ := scaledKilometres_takes
  obtain ⟨makes, otherMakes⟩ := scaledKilometres_makes
  have finite : (kilometres (2 * 1000)).magnitude.isFinite = true := by decide +kernel
  have otherFinite : (kilometres 1000).magnitude.isFinite = true := by decide +kernel
  have factor : (kilometres (2 * 1000)).unit.factor.isFinite = true := by decide +kernel
  have otherFactor : (kilometres 1000).unit.factor.isFinite = true := by decide +kernel
  have same : (Value.quantity (kilometres (2 * 1000))).text = (Value.quantity (kilometres 1000)).text := by
    decide +kernel
  obtain ⟨-, -, base, -, converts⟩ := convert_of_text takes distinct makes otherMakes finite otherFinite
    factor otherFactor same
  have leftConverts : (kilometres (2 * 1000)).convert metre = some ⟨3 * (2 * 1000) / 1, metre⟩ :=
    Quantity.convert_of_base (by decide +kernel)
  have rightConverts : (kilometres 1000).convert metre = some ⟨3 * 1000 / 1, metre⟩ :=
    Quantity.convert_of_base (by decide +kernel)
  exact ⟨takes, distinct, makes, otherMakes, finite, otherFinite, factor, otherFactor, same, base, _, _,
    leftConverts, rightConverts,
    (converts metre).2 _ _ leftConverts rightConverts (by decide +kernel) (by decide +kernel)⟩

end Session

end Quantities
