import Quantities.Proofs.Founded.Evaluation
import Quantities.Proofs.Founded.Labels
import Quantities.Proofs.Grounded.Session

/-!
Values that come of the inputs of a session with no exponent rounded on the way. If no unit is declared
twice, then they all follow one law, whatever else the inputs do.
-/

namespace Quantities

namespace Dimensions

open Classical in
/-- The vector of the dimensions, if their exponents are finite. -/
noncomputable def weight (dims : Dimensions) : String →₀ ℚ :=
  if weighed : ∃ vector, dims.Weighs vector then weighed.choose else 0

theorem Weighs.weight {dims : Dimensions} {vector : String →₀ ℚ} (weighs : dims.Weighs vector) :
    dims.weight = vector := by
  have some : ∃ vector, dims.Weighs vector := ⟨vector, weighs⟩
  rw [Dimensions.weight, dif_pos some]
  exact some.choose_spec.vector_eq weighs

/-- What each unit of a table stands for. -/
noncomputable def lawOf (units : List (String × Dimensions)) (label : String) : String →₀ ℚ :=
  ((units.lookup label).map weight).getD 0

theorem lawOf_eq {units : List (String × Dimensions)} (distinct : (units.map (·.1)).Nodup)
    {label : String} {base : Dimensions} (member : (label, base) ∈ units) :
    lawOf units label = base.weight := by
  rw [lawOf, lookup_of_mem distinct member]
  rfl

end Dimensions

/-- A context between inputs, in which the values of names agree with their types. -/
structure Context.Sound (context : Context) : Prop where
  wellFormed : context.WellFormed
  checkable : context.Checkable
  agree : Agree context.getType? context.getValue?

theorem Context.prelude_sound : Context.prelude.Sound := by
  have starts : Session.prelude.Starts := .inr rfl
  obtain ⟨table, labels, settles⟩ := starts.exists_units
  have once : (table.map (·.1)).Nodup := by
    rw [labels]
    decide
  have settled : Context.prelude.Settled (Law.of table) :=
    settles _ fun entry member => Law.of_eq once member
  exact ⟨settled.wellFormed, settled.grounded.checkable, settled.agree⟩

namespace Session

variable {session next : Session} {input : String} {program : List Stmt}

theorem agree_checked (sound : session.context.Sound) (program : List Stmt) :
    Agree session.context.getType? (session.context.checked program).getValue? := by
  rw [Context.getValue?_of_stack (sound.wellFormed.valueStack_checked program)]
  exact sound.agree

theorem sound_after (sound : session.context.Sound) {rounds : Nat} {outcome : Outcome}
    (ran : session.run rounds input = some (outcome, next)) : next.context.Sound := by
  cases outcome with
  | error failure =>
      rw [eq_of_run_error ran]
      exact sound
  | ok result =>
      obtain ⟨program, read, after, runs, rfl⟩ := run_eq_ok.mp ran
      obtain ⟨type, accepted⟩ := runs.accepted
      obtain ⟨-, checked⟩ := Stmt.pointsAll_keep program Context.Checkable
        (fun point _ _ checkable => Stmt.check_checkable checkable point.1) sound.checkable accepted
      have grows := runs.grows sound.wellFormed
      have types : after.getType? = (session.context.checked program).getType? :=
        Context.getType?_of_stack grows.typeStack
      have ends := Stmt.runAll_asChecked program sound.checkable (agree_checked sound program) accepted
        runs.ran .nothing
      exact ⟨grows.wellFormed, ⟨grows.wellFormed.bounded, types ▸ checked.zeroFree⟩, types ▸ ends.agree⟩

theorem Takes.sound {steps : List (Session × String)} (takes : session.Takes steps)
    (sound : session.context.Sound) : ∀ step ∈ steps, step.1.context.Sound := by
  induction takes with
  | nothing session =>
      intro step member
      cases member
  | last session input =>
      intro step member
      obtain rfl := List.mem_singleton.mp member
      exact sound
  | next ran rest ih => exact List.forall_mem_cons.mpr ⟨sound, ih (sound_after sound ran)⟩

/-- The program of an input that the check accepts. -/
def accepted? (step : Session × String) : Option (List Stmt) :=
  match Program.ofSource step.2 with
  | .ok program =>
    match (Stmt.checkAll program none step.1.context).result with
    | .ok _ => some program
    | .error _ => none
  | .error _ => none

theorem Accepts.accepted? (accepts : session.Accepts input program) :
    accepted? (session, input) = some program := by
  obtain ⟨read, type, accepted⟩ := accepts
  rw [Session.accepted?, read]
  simp only [accepted]

/-- The labels of the units that are declared in an input. One that the check refuses declares none. -/
def declared (step : Session × String) : List String := ((accepted? step).map Stmt.unitNamesAll).getD []

/-- The units that are declared in an input, with the base dimensions that the check finds. -/
def declaredUnits (step : Session × String) : List (String × Dimensions) :=
  ((accepted? step).map (Stmt.units · step.1.context)).getD []

theorem declaredUnits_sublist (steps : List (Session × String)) :
    ((steps.flatMap declaredUnits).map (·.1)).Sublist (steps.flatMap declared) := by
  have sublist (step : Session × String) : ((declaredUnits step).map (·.1)).Sublist (declared step) := by
    unfold declaredUnits declared
    cases accepted? step with
    | none => exact .slnil
    | some program => exact Stmt.units_sublist program _
  rw [List.map_flatMap]
  induction steps with
  | nil => exact .slnil
  | cons step rest ih => exact (sublist step).append ih

/-- The values that come of the inputs, as parts of expressions that they evaluate and as units that
they declare, with no exponent rounded on the way: neither in the expression nor in what the names in
it were given. -/
inductive Makes (steps : List (Session × String)) : Value → Prop where
  | usual {name : String} {v : Value} (bound : Context.prelude.getValue? name = some v) : Makes steps v
  | evaluated {step : Session × String} {program : List Stmt} {found : Stmt} {inner outer : Context}
      {e part : Expr} {v : Value} (member : step ∈ steps) (accepts : step.1.Accepts step.2 program)
      (visits : Visits program step.1.context (step.1.context.checked program) found inner outer)
      (expression : e ∈ found.expressions) (inside : part ∈ e.parts)
      (unrounded : part.Unrounded outer.getValue?)
      (names : ∀ location name, .name location name ∈ part.parts →
        ∀ w, outer.getValue? name = some w → Makes steps w)
      (value : part.eval outer.getValue? = .ok v) : Makes steps v
  | declared {step : Session × String} {program : List Stmt} {location : Location} {name : String}
      {definition : Option Expr} {inner outer : Context} {v : Value} (member : step ∈ steps)
      (accepts : step.1.Accepts step.2 program)
      (visits : Visits program step.1.context (step.1.context.checked program)
        (.unit location name definition) inner outer)
      (worth : ∀ e ∈ definition, ∀ w, e.eval outer.getValue? = .ok w → Makes steps w)
      (value : Evaluation.unitValue outer.getValue? name definition = .ok v) : Makes steps v

end Session

namespace Stmt

theorem unitType_eq_ok {types : String → Option Value} {name : String} {definition : Option Expr}
    {type : Value} (accepted : Typing.unitType types name definition = .ok type) :
    ∃ base factor, type = .unitConstructor ⟨.single name, base, factor⟩ := by
  cases definition with
  | none =>
      cases accepted
      exact ⟨_, _, rfl⟩
  | some e =>
      obtain ⟨given, -, accepted⟩ := Result.bind_eq_ok.mp accepted
      split at accepted
      next =>
        cases accepted
        exact ⟨_, _, rfl⟩
      next => split at accepted <;> cases accepted

theorem unitValue_eq_ok {values : String → Option Value} {name : String} {definition : Option Expr}
    {v : Value} (ran : Evaluation.unitValue values name definition = .ok v) :
    (definition = none ∧ v = .unitConstructor (.fresh name)) ∨
      ∃ e w worth, definition = some e ∧ e.eval values = .ok w ∧ w.definedUnit? = some worth ∧
        v = .unitConstructor (.derived name worth) := by
  cases definition with
  | none =>
      cases ran
      exact .inl ⟨rfl, rfl⟩
  | some e =>
      obtain ⟨w, value, ran⟩ := Result.bind_eq_ok.mp ran
      split at ran
      next worth found =>
        cases ran
        exact .inr ⟨e, w, worth, rfl, value, found, rfl⟩
      next => cases ran

end Stmt

namespace Session

/-- The usual units with the base units that they stand for. -/
def usualUnits : List (String × Dimensions) :=
  [("h", .single "s"), ("min", .single "s"), ("km", .single "m"), ("s", .single "s"),
    ("m", .single "m")]

theorem usual_kind {name : String} {v : Value} (bound : Context.prelude.getValue? name = some v) :
    ∃ base, (name, Dimensions.single base) ∈ usualUnits ∧
      v.kind = .unit (.single name) (.single base) := by
  have member : name ∈ ["h", "min", "km", "s", "m"] := Context.mem_values_of_getValue? bound
  simp only [List.mem_cons, List.not_mem_nil, or_false] at member
  rcases member with rfl | rfl | rfl | rfl | rfl
  all_goals
    cases bound
    exact ⟨_, by simp [usualUnits], rfl⟩

theorem usual_spelled : ∀ entry ∈ usualUnits, (TokenKind.name entry.1).Spelled := by
  simp only [usualUnits, List.forall_mem_cons, List.not_mem_nil, IsEmpty.forall_iff, implies_true,
    and_true]
  refine ⟨⟨⟨_, _, rfl, rfl, List.all_eq_true.mp rfl⟩, by decide⟩,
    ⟨⟨_, _, rfl, rfl, List.all_eq_true.mp rfl⟩, by decide⟩,
    ⟨⟨_, _, rfl, rfl, List.all_eq_true.mp rfl⟩, by decide⟩,
    ⟨⟨_, _, rfl, rfl, List.all_eq_true.mp rfl⟩, by decide⟩,
    ⟨⟨_, _, rfl, rfl, List.all_eq_true.mp rfl⟩, by decide⟩⟩

section

variable {law : String → String →₀ ℚ} {session : Session} {input : String} {program : List Stmt}
  {inner outer : Context} {location : Location} {name : String} {definition : Option Expr} {v : Value}

/-- What a unit stands for when it is declared is what the check finds. -/
theorem declared_base (sound : session.context.Sound) (accepts : session.Accepts input program)
    (visits : Visits program session.context (session.context.checked program)
      (.unit location name definition) inner outer)
    (value : Evaluation.unitValue outer.getValue? name definition = .ok v) :
    ∃ base factor, v = .unitConstructor ⟨.single name, base, factor⟩ ∧
      (name, base) ∈ declaredUnits (session, input) := by
  obtain ⟨type, accepted⟩ := accepts.accepted
  obtain ⟨-, agree, given, checks⟩ :=
    visits.agree sound.checkable (agree_checked sound program) accepted
  obtain ⟨unitType, typed⟩ : ∃ unitType,
      Typing.unitType inner.getType? name definition = .ok unitType := by
    cases typed : Typing.unitType inner.getType? name definition with
    | ok unitType => exact ⟨unitType, rfl⟩
    | error fault =>
        rw [Stmt.check, typed] at checks
        cases checks
  have hasKind := Stmt.value_of_comes (Stmt.unit_comes agree location typed) value
  obtain ⟨base, factor, rfl⟩ := Stmt.unitType_eq_ok typed
  obtain ⟨actual, actualFactor, rfl⟩ :
      ∃ actual actualFactor, v = .unitConstructor ⟨.single name, actual, actualFactor⟩ := by
    rcases Stmt.unitValue_eq_ok value with ⟨-, rfl⟩ | ⟨e, w, worth, -, -, -, rfl⟩
    · exact ⟨_, _, rfl⟩
    · exact ⟨_, _, rfl⟩
  have kinds := hasKind.kind_eq
  obtain rfl : actual = base := by
    injection kinds
  refine ⟨_, _, rfl, ?_⟩
  rw [declaredUnits, accepts.accepted?]
  refine List.mem_filterMap.mpr ⟨_, visits.mem_points, ?_⟩
  simp only [Stmt.unitBase?, typed]
  rfl

theorem declared_spelled (accepts : session.Accepts input program)
    (visits : Visits program session.context (session.context.checked program)
      (.unit location name definition) inner outer) : (TokenKind.name name).Spelled := by
  refine Program.spelled_of_unitName accepts.read ?_
  rw [← Stmt.filterMap_pointsAll program session.context]
  exact List.mem_filterMap.mpr ⟨_, visits.mem_points, rfl⟩

end

/-- All that comes of the inputs without rounding follows one law, and its labels are names. -/
theorem exists_founded {steps : List (Session × String)} (takes : prelude.Takes steps)
    (distinct : (prelude.labels ++ steps.flatMap declared).Nodup) :
    ∃ law : String → String →₀ ℚ, ∀ v, Makes steps v →
      v.kind.Founded law {label | (TokenKind.name label).Spelled} := by
  have once : ((usualUnits ++ steps.flatMap declaredUnits).map (·.1)).Nodup := by
    rw [List.map_append]
    exact distinct.sublist ((List.Sublist.refl _).append (declaredUnits_sublist steps))
  refine ⟨Dimensions.lawOf (usualUnits ++ steps.flatMap declaredUnits), ?_⟩
  intro v makes
  induction makes with
  | @usual name v bound =>
      obtain ⟨base, member, kind⟩ := usual_kind bound
      rw [kind]
      refine Dimensions.Founded.single (usual_spelled _ member) ?_
      rw [Dimensions.lawOf_eq once (List.mem_append_left _ member), (Dimensions.Weighs.single base).weight]
      exact .single base
  | evaluated member accepts visits expression inside unrounded names value ih =>
      exact Expr.eval_founded ⟨ih, unrounded⟩ value
  | @declared step program location name definition inner outer v member accepts visits worth value ih =>
      obtain ⟨base, factor, rfl, entry⟩ :=
        declared_base (takes.sound Context.prelude_sound step member) accepts visits value
      have stands := Dimensions.lawOf_eq once
        (List.mem_append_right _ (List.mem_flatMap.mpr ⟨step, member, entry⟩))
      refine Dimensions.Founded.single (declared_spelled accepts visits) ?_
      rw [stands]
      rcases Stmt.unitValue_eq_ok value with ⟨-, same⟩ | ⟨e, w, unit, rfl, evaluated, defined, same⟩
      · cases same
        rw [(Dimensions.Weighs.single name).weight]
        exact .single name
      · cases same
        have founded := ih e rfl w evaluated
        obtain ⟨vector, -, -, weighs⟩ : unit.dims.Founded _ _ unit.base := by
          rcases Value.definedUnit?_kind defined with kind | kind
          all_goals
            rw [kind] at founded
            exact founded
        rw [weighs.weight]
        exact weighs

end Session

end Quantities
