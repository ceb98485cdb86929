import Quantities.Proofs.Grammar.Program
import Quantities.Proofs.Grounded.Exponents
import Quantities.Proofs.Grounded.Meets

/-!
Sequences of inputs. If no unit is declared twice in them, then there is one law for all that comes
up in them, and so quantities of equal dimensions have equal base dimensions.
-/

namespace Quantities

namespace Context

variable {law : Law} {context : Context}

theorem empty_settled (law : Law) : empty.Settled law :=
  ⟨empty_wellFormed, ⟨empty_checkable, nofun⟩, nofun, List.Subset.refl _⟩

theorem Settled.addUnit (settled : context.Settled law) {label base : String}
    (lawful : law label = Finsupp.single base 1) (factor : Float) :
    let unit := Value.unitConstructor ⟨Dimensions.single label, Dimensions.single base, factor⟩
    ((context.addType label unit).addValue label unit).Settled law := by
  intro unit
  have typed := settled.wellFormed.addType label unit
  have grounded : unit.kind.Grounded law :=
    Dimensions.Grounded.single (lawful ▸ Dimensions.Counts.single base)
  have zeroFree : unit.kind.ZeroFree :=
    ⟨Dimensions.single_zeroFree label, Dimensions.single_zeroFree base⟩
  have types : ((context.addType label unit).addValue label unit).getType? =
      (context.addType label unit).getType? :=
    funext fun other => typed.bounded.getType?_addValue label other unit
  have values : (context.addType label unit).getValue? = context.getValue? :=
    funext fun other => settled.wellFormed.bounded.getValue?_addType label other unit
  refine ⟨typed.addValue label unit, ?_, ?_, ?_⟩
  · exact (settled.grounded.addType zeroFree grounded label).of_types
      (typed.bounded.addValue label unit) types
  · rw [types]
    exact Agree.declare settled.grounded.checkable (values ▸ settled.agree)
      (Value.known_hasKind rfl) label
  · exact List.cons_subset_cons label settled.backed

theorem prelude_settled (metres : law "m" = Finsupp.single "m" 1)
    (seconds : law "s" = Finsupp.single "s" 1) (kilometres : law "km" = Finsupp.single "m" 1)
    (minutes : law "min" = Finsupp.single "s" 1) (hours : law "h" = Finsupp.single "s" 1) :
    prelude.Settled law :=
  (((((empty_settled law).addUnit metres 1).addUnit seconds 1).addUnit kilometres 1000).addUnit
    minutes 60).addUnit hours 3600

end Context

namespace Session

/-- The inputs that a session is given one after the other, each with the session as it is then. The
last one may go on without an end. -/
inductive Takes : Session → List (Session × String) → Prop where
  | nothing (session : Session) : Takes session []
  | last (session : Session) (input : String) : Takes session [(session, input)]
  | next {session following : Session} {input : String} {rounds : Nat} {outcome : Outcome}
      {steps : List (Session × String)} (ran : session.run rounds input = some (outcome, following))
      (rest : Takes following steps) : Takes session ((session, input) :: steps)

/-- The labels of the units that are declared in an input. -/
def unitLabels (input : String) : List String :=
  match Program.ofSource input with
  | .ok program => Stmt.unitNamesAll program
  | .error _ => []

/-- The units that the check of an input declares, with their base dimensions. -/
def units (step : Session × String) : List (String × Dimensions) :=
  match Program.ofSource step.2 with
  | .ok program => Stmt.units program step.1.context
  | .error _ => []

theorem units_sublist (step : Session × String) :
    ((units step).map (·.1)).Sublist (unitLabels step.2) := by
  unfold units unitLabels
  split
  next program read => exact Stmt.units_sublist program _
  next => exact .slnil

/-- The sessions that inputs are given to at first. -/
def Starts (session : Session) : Prop := session = .empty ∨ session = .prelude

/-- The labels of the units that a session has at first. -/
def labels (session : Session) : List String := session.context.scope.types.map (·.1)

theorem Starts.exists_units {start : Session} (starts : start.Starts) :
    ∃ table : List (String × Dimensions), table.map (·.1) = start.labels ∧
      ∀ law : Law, (∀ entry ∈ table, law entry.1 = entry.2.vector) → start.context.Settled law := by
  rcases starts with rfl | rfl
  · exact ⟨[], rfl, fun law _ => Context.empty_settled law⟩
  · refine ⟨[("h", .single "s"), ("min", .single "s"), ("km", .single "m"), ("s", .single "s"),
      ("m", .single "m")], rfl, ?_⟩
    intro law lawful
    have stands (label base : String) (member : (label, Dimensions.single base) ∈ _) :
        law label = Finsupp.single base 1 :=
      (lawful _ member).trans (Dimensions.Counts.single base).vector
    exact Context.prelude_settled (stands _ _ (by simp)) (stands _ _ (by simp))
      (stands _ _ (by simp)) (stands _ _ (by simp)) (stands _ _ (by simp))

theorem Takes.settled {law : Law} {session : Session} {steps : List (Session × String)}
    (takes : session.Takes steps) (settled : session.context.Settled law)
    (whole : ∀ step ∈ steps, step.1.WholeExponents step.2)
    (lawful : ∀ step ∈ steps, step.1.Lawful law step.2) :
    ∀ step ∈ steps, step.1.context.Settled law := by
  induction takes with
  | nothing session => exact nofun
  | last session input =>
      intro step member
      obtain rfl := List.mem_singleton.mp member
      exact settled
  | @next session following input rounds outcome steps ran rest ih =>
      obtain ⟨wholeHere, wholeLater⟩ := List.forall_mem_cons.mp whole
      obtain ⟨lawfulHere, lawfulLater⟩ := List.forall_mem_cons.mp lawful
      have after := settled_after settled wholeHere lawfulHere ran
      exact List.forall_mem_cons.mpr ⟨settled, ih after wholeLater lawfulLater⟩

/-- An operation on two values that succeeds while an input is run. -/
inductive Combines (session : Session) (input : String) : BinaryOp → Value → Value → Prop where
  | binary {program : List Stmt} {found : Stmt} {inner outer : Context} {e left right : Expr}
      {location : Location} {op : BinaryOp} {x y result : Value}
      (accepts : session.Accepts input program)
      (visits : Visits program session.context (session.context.checked program) found inner outer)
      (expression : e ∈ found.expressions) (inside : .binary location op left right ∈ e.parts)
      (leftValue : left.eval outer.getValue? = .ok x)
      (rightValue : right.eval outer.getValue? = .ok y)
      (succeeds : (Expr.binary location op left right).eval outer.getValue? = .ok result) :
      Combines session input op x y

theorem Combines.yields {session : Session} {input : String} {op : BinaryOp} {x y : Value}
    (combines : session.Combines input op x y) :
    session.Yields input x ∧ session.Yields input y ∧
      ∃ result, Value.binary op x y = some result := by
  obtain ⟨accepts, visits, expression, inside, leftValue, rightValue, succeeds⟩ := combines
  refine ⟨?_, ?_, ?_⟩
  · exact .evaluated accepts visits expression
      (Expr.parts_trans inside (by simp [Expr.parts, Expr.mem_parts_self])) leftValue
  · exact .evaluated accepts visits expression
      (Expr.parts_trans inside (by simp [Expr.parts, Expr.mem_parts_self])) rightValue
  · rw [Expr.eval, leftValue, rightValue] at succeeds
    obtain ⟨-, -, succeeds⟩ := Result.bind_eq_ok.mp (show Evaluation.binary _ _ _ op x y = _ from succeeds)
    split at succeeds
    next result found => exact ⟨result, found⟩
    next => cases succeeds

section

variable {start : Session} {steps : List (Session × String)}

theorem flatMap_units_sublist (steps : List (Session × String)) :
    ((steps.flatMap units).map (·.1)).Sublist (steps.flatMap fun step => unitLabels step.2) := by
  rw [List.map_flatMap]
  induction steps with
  | nil => exact .slnil
  | cons step rest ih => exact (units_sublist step).append ih

/-- If no unit is declared twice, nor over one that is there at the start, then all units that come
up follow one law. -/
theorem exists_law (starts : start.Starts) (takes : start.Takes steps)
    (distinct : (start.labels ++ steps.flatMap fun step => unitLabels step.2).Nodup)
    (whole : ∀ step ∈ steps, step.1.WholeExponents step.2) :
    ∃ law, ∀ step ∈ steps, step.1.context.Settled law ∧ step.1.Lawful law step.2 := by
  obtain ⟨table, labels, settles⟩ := starts.exists_units
  -- A table in which no label stands twice is a law.
  have once : ((table ++ steps.flatMap units).map (·.1)).Nodup := by
    rw [List.map_append, labels]
    exact distinct.sublist ((List.Sublist.refl _).append (flatMap_units_sublist steps))
  have lawful : ∀ step ∈ steps,
      step.1.Lawful (Law.of (table ++ steps.flatMap units)) step.2 := by
    intro step member program accepts entry declared
    refine Law.of_eq once (List.mem_append_right _ (List.mem_flatMap.mpr ⟨step, member, ?_⟩))
    rw [units, accepts.read]
    exact declared
  have settled := settles _ fun entry member => Law.of_eq once (List.mem_append_left _ member)
  exact ⟨_, fun step member =>
    ⟨takes.settled settled whole lawful step member, lawful step member⟩⟩

/-- Numbers and units of equal dimensions have equal base dimensions, wherever they come up. So
numbers are never added or compared that differ in base dimensions. -/
theorem base_of_dims (starts : start.Starts) (takes : start.Takes steps)
    (distinct : (start.labels ++ steps.flatMap fun step => unitLabels step.2).Nodup)
    (whole : ∀ step ∈ steps, step.1.WholeExponents step.2) :
    (∀ first ∈ steps, ∀ second ∈ steps, ∀ v w unit other,
      first.1.Yields first.2 v → second.1.Yields second.2 w →
        v.measure? = some unit → w.measure? = some other →
          (unit.dims == other.dims) = true → (unit.base == other.base) = true) ∧
    ∀ step ∈ steps, ∀ op x y unit other, step.1.Combines step.2 op x y → op.isScaling = false →
      x.measure? = some unit → y.measure? = some other → (unit.base == other.base) = true := by
  obtain ⟨law, follows⟩ := exists_law starts takes distinct whole
  have grounded {step : Session × String} (member : step ∈ steps) {v : Value} {unit : Measure}
      (yields : step.1.Yields step.2 v) (found : v.measure? = some unit) :
      unit.dims.Grounded law unit.base := by
    obtain ⟨settled, lawful⟩ := follows step member
    exact Value.grounded_of_measure (yields.grounded settled (whole step member) lawful) found
  constructor
  · intro first firstMember second secondMember v w unit other vYields wYields vFound wFound same
    exact (grounded firstMember vYields vFound).base_beq (grounded secondMember wYields wFound) same
  · intro step member op x y unit other combines adds xFound yFound
    obtain ⟨xYields, yYields, result, found⟩ := combines.yields
    have same := Value.sameDims_of_binary adds xFound yFound found
    exact (grounded member xYields xFound).base_beq (grounded member yYields yFound) same

end

/-- The usual units and miles, which are a unit of their own. -/
def withMiles : Session where
  initial := .prelude
  bindings :=
    let mile := Value.unitConstructor (Measure.fresh "mile")
    .own ((Context.prelude.addType "mile" mile).addValue "mile" mile)

/-- The sum of three miles and two miles. -/
def fiveMiles : Expr :=
  let here := Location.nowhere
  let miles (x : Float) := Expr.ascription here (.number here x) (.name here "mile")
  .binary here .plus (miles 3) (miles 2)

/-- Miles are declared first, and then laps of five miles. -/
def milesAndLaps : List (Session × String) :=
  [(prelude, "unit mile;"), (withMiles, "unit lap = 3 mile + 2 mile;")]

theorem milesAndLaps_read :
    (∃ location, Program.ofSource "unit mile;" = .ok [.unit location "mile" none]) ∧
    ∃ location e, e.bare = fiveMiles ∧
      Program.ofSource "unit lap = 3 mile + 2 mile;" = .ok [.unit location "lap" (some e)] := by
  have kinds : (ProgramDerivation.whole (.cons (.unit "mile" none) .nil)).yield =
      (Tokens.ofSource "unit mile;").kinds := by decide +kernel
  let miles (x : Float) : ExprDerivation (.level [.product]) :=
    .tighter (.signed (.ascribed (.ascribe
      (.plain (.primary (.atom (.number x) fun unit => absurd unit Bool.false_ne_true)))
      (.primary (.atom (.name "mile") fun _ => rfl)))))
  let sum : Phrase :=
    .tighter (.tighter (.tighter (.tighter (.join (.binary .plus) rfl (.tighter (miles 3)) (miles 2)))))
  have lapKinds : (ProgramDerivation.whole (.cons (.unit "lap" (some sum)) .nil)).yield =
      (Tokens.ofSource "unit lap = 3 mile + 2 mile;").kinds := by decide +kernel
  constructor
  · obtain ⟨program, read, trees⟩ := Program.ofTokens_of_yield kinds
    obtain ⟨stmt, rfl, tree⟩ := List.map_eq_singleton_iff.mp trees
    have same : stmt.bare = (Stmt.unit .nowhere "mile" none).bare := tree
    cases Stmt.twins_of_bare same with
    | unit definitions =>
        obtain rfl := Option.map_eq_none_iff.mp definitions
        exact ⟨_, read⟩
  · obtain ⟨program, read, trees⟩ := Program.ofTokens_of_yield lapKinds
    obtain ⟨stmt, rfl, tree⟩ := List.map_eq_singleton_iff.mp trees
    have same : stmt.bare = (Stmt.unit .nowhere "lap" (some fiveMiles)).bare := tree
    cases Stmt.twins_of_bare same with
    | unit definitions =>
        obtain ⟨e, rfl, bare⟩ := Option.map_eq_some_iff.mp definitions
        exact ⟨_, e, bare, read⟩

theorem prelude_run_unit_mile : prelude.run 0 "unit mile;" =
    some (.ok (some (.unitConstructor (Measure.fresh "mile"))), withMiles) := by
  obtain ⟨⟨location, read⟩, -⟩ := milesAndLaps_read
  exact run_eq_ok.mpr ⟨_, read, _, ⟨⟨_, rfl⟩, rfl⟩, rfl⟩

theorem milesAndLaps_fits :
    prelude.Takes milesAndLaps ∧
    (prelude.labels ++ milesAndLaps.flatMap fun step => unitLabels step.2).Nodup ∧
    ∀ step ∈ milesAndLaps, step.1.WholeExponents step.2 := by
  obtain ⟨⟨location, read⟩, place, e, bare, lapRead⟩ := milesAndLaps_read
  refine ⟨?_, ?_, ?_⟩
  · exact .next prelude_run_unit_mile (.last withMiles _)
  · have labels : milesAndLaps.flatMap (fun step => unitLabels step.2) = ["mile", "lap"] := by
      simp [milesAndLaps, unitLabels, read, lapRead, Stmt.unitNamesAll, Stmt.unitNames]
    rw [labels]
    decide
  · simp only [milesAndLaps, List.forall_mem_cons, List.not_mem_nil, IsEmpty.forall_iff, implies_true,
      and_true]
    constructor
    · intro program accepts
      obtain rfl := Except.ok.inj (read.symm.trans accepts.read)
      simp [Stmt.pointsAll, Stmt.points, Stmt.expressions]
    · intro program accepts
      obtain rfl := Except.ok.inj (lapRead.symm.trans accepts.read)
      have whole : fiveMiles.WholeExponents withMiles.context.getType? := by decide +kernel
      rw [← bare, Expr.wholeExponents_bare] at whole
      simpa [Stmt.pointsAll, Stmt.points, Stmt.expressions] using whole

theorem milesAndLaps_combines :
    let miles (x : Float) := Value.quantity ⟨x, Measure.fresh "mile"⟩
    withMiles.Combines "unit lap = 3 mile + 2 mile;" .plus (miles 3) (miles 2) := by
  intro miles
  obtain ⟨-, location, e, bare, read⟩ := milesAndLaps_read
  have inferred : e.infer withMiles.context.getType? = .ok (miles (3 + 2)) :=
    Expr.infer_of_bare bare rfl
  have accepts : withMiles.Accepts "unit lap = 3 mile + 2 mile;"
      [.unit location "lap" (some e)] := ⟨read, _, by
    rw [Stmt.checkAll, Stmt.check, Typing.unitType, inferred]
    rfl⟩
  have evaluated : e.eval withMiles.context.getValue? = .ok (miles (3 + 2)) :=
    Expr.eval_of_bare bare rfl
  obtain ⟨place, left, right, rfl, leftBare, rightBare⟩ := Expr.eq_binary_of_bare bare
  have three : left.eval withMiles.context.getValue? = .ok (miles 3) :=
    Expr.eval_of_bare leftBare rfl
  have two : right.eval withMiles.context.getValue? = .ok (miles 2) :=
    Expr.eval_of_bare rightBare rfl
  -- The run begins with the types of the whole input, and the values are not changed by them.
  have wellFormed : withMiles.context.WellFormed :=
    (Context.prelude_wellFormed.addType "mile" _).addValue "mile" _
  have values := Context.getValue?_of_stack (wellFormed.valueStack_checked
    [.unit location "lap" (some (.binary place .plus left right))])
  rw [← values] at three two evaluated
  exact .binary accepts .first (List.mem_singleton_self _) (Expr.mem_parts_self _) three two evaluated

/-- The sum in the second input is one of numbers whose base dimensions are equal. -/
theorem milesAndLaps_base_of_dims :
    prelude.Starts ∧ prelude.Takes milesAndLaps ∧
    (prelude.labels ++ milesAndLaps.flatMap fun step => unitLabels step.2).Nodup ∧
    (∀ step ∈ milesAndLaps, step.1.WholeExponents step.2) ∧
    ∃ x y unit other, withMiles.Combines "unit lap = 3 mile + 2 mile;" .plus x y ∧
      x.measure? = some unit ∧ y.measure? = some other ∧ (unit.base == other.base) = true := by
  have starts : prelude.Starts := .inr rfl
  obtain ⟨takes, distinct, whole⟩ := milesAndLaps_fits
  have member : (withMiles, "unit lap = 3 mile + 2 mile;") ∈ milesAndLaps := by simp [milesAndLaps]
  have equal := (base_of_dims starts takes distinct whole).2 _ member _ _ _ _ _
    milesAndLaps_combines rfl rfl rfl
  exact ⟨starts, takes, distinct, whole, _, _, _, _, milesAndLaps_combines, rfl, rfl, equal⟩

end Session

end Quantities
