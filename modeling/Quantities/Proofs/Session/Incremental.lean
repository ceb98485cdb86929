import Quantities.Proofs.Alike.Running
import Quantities.Proofs.Grammar.Lines
import Quantities.Proofs.Session.Reachable

/-!
One input after another comes to the same as both in one input, although all of the latter is checked
before any of it is run. What is run does not change types, what is checked does not change values,
and neither can tell which cells its context uses.
-/

namespace Quantities

namespace Stmt

theorem checkAll_append (first rest : List Stmt) (last : Option Value) (context : Context) :
    checkAll (first ++ rest) last context =
      (checkAll first last context).andThen (checkAll rest) := by
  induction first generalizing last context with
  | nil => rfl
  | cons stmt more ih =>
      rw [List.cons_append, checkAll, checkAll]
      unfold Step.andThen
      split
      next given accepted =>
        rw [ih]
        rfl
      next fault refused => simp

theorem runAll_append (rounds : Nat) (first rest : List Stmt) (last : Option Value)
    (context : Context) :
    runAll rounds (first ++ rest) last context =
      Evaluation.andThen (runAll rounds first last context) (runAll rounds rest) := by
  induction first generalizing last context with
  | nil => rw [List.nil_append, runAll, Evaluation.andThen]
  | cons stmt more ih =>
      rw [List.cons_append, runAll, runAll]
      cases stmt.run rounds context with
      | none => rfl
      | some step =>
          obtain ⟨result, after⟩ := step
          cases result with
          | error fault => rfl
          | ok given => exact ih given after

theorem checkAll_last {body : List Stmt} (nonempty : body ≠ []) (last other : Option Value)
    (context : Context) : checkAll body last context = checkAll body other context := by
  cases body with
  | nil => exact absurd rfl nonempty
  | cons first rest => rfl

theorem runAll_last {body : List Stmt} (nonempty : body ≠ []) (rounds : Nat) (last other : Option Value)
    (context : Context) : runAll rounds body last context = runAll rounds body other context := by
  cases body with
  | nil => exact absurd rfl nonempty
  | cons first rest => rw [runAll, runAll]

end Stmt

namespace Context

variable {context middle after whole : Context} {rounds more : Nat} {first rest : List Stmt}
  {given result : Option Value}

/-- A program in two parts is checked part by part and then run part by part. -/
theorem runs_append (nonempty : rest ≠ []) :
    context.Runs rounds (first ++ rest) result after ↔
      (∃ type, (Stmt.checkAll first none context).result = .ok type) ∧
      (∃ type, (Stmt.checkAll rest none (context.checked first)).result = .ok type) ∧
      ∃ given middle,
        Stmt.runAll rounds first none ((context.checked first).checked rest) =
          some ⟨.ok given, middle⟩ ∧
        Stmt.runAll rounds rest none middle = some ⟨.ok result, after⟩ := by
  have together {type : Option Value}
      (accepted : (Stmt.checkAll first none context).result = .ok type) :
      Stmt.checkAll (first ++ rest) none context =
        Stmt.checkAll rest none (context.checked first) := by
    rw [Stmt.checkAll_append, Step.andThen, accepted]
    exact Stmt.checkAll_last nonempty _ _ _
  constructor
  · rintro ⟨⟨type, accepted⟩, ran⟩
    cases firstOk : (Stmt.checkAll first none context).result with
    | error fault =>
        rw [Stmt.checkAll_append, Step.andThen, firstOk] at accepted
        cases accepted
    | ok firstType =>
        rw [together firstOk] at accepted
        rw [checked, together firstOk, Stmt.runAll_append] at ran
        rcases Evaluation.andThen_eq_some ran with
          ⟨given, middle, firstRan, restRan⟩ | ⟨fault, middle, -, failed⟩
        · refine ⟨⟨firstType, rfl⟩, ⟨type, accepted⟩, given, middle, firstRan, ?_⟩
          rw [Stmt.runAll_last nonempty rounds none given]
          exact restRan
        · cases failed
  · rintro ⟨⟨firstType, firstOk⟩, ⟨type, accepted⟩, given, middle, firstRan, restRan⟩
    refine ⟨⟨type, ?_⟩, ?_⟩
    · rw [together firstOk]
      exact accepted
    · rw [checked, together firstOk, Stmt.runAll_append]
      change Evaluation.andThen (Stmt.runAll rounds first none
        ((context.checked first).checked rest)) _ = _
      rw [firstRan, Evaluation.andThen, Stmt.runAll_last nonempty rounds given none]
      exact restRan

/-- Contexts that nothing can tell apart. -/
structure Same (a b : Context) : Prop where
  alike : a.Alike b
  types : a.typeStack = b.typeStack

namespace Same

variable {a b c : Context}

theorem refl (wellFormed : a.WellFormed) : a.Same a := ⟨⟨wellFormed, wellFormed, rfl⟩, rfl⟩

theorem symm (same : a.Same b) : b.Same a :=
  ⟨⟨same.alike.right, same.alike.left, same.alike.sameStack.symm⟩, same.types.symm⟩

theorem trans (first : a.Same b) (second : b.Same c) : a.Same c :=
  ⟨⟨first.alike.left, second.alike.right, first.alike.sameStack.trans second.alike.sameStack⟩,
    first.types.trans second.types⟩

end Same

section

variable {firstAlone restAlone : List Stmt}

theorem Runs.join (wellFormed : context.WellFormed) (nonempty : rest ≠ [])
    (firsts : firstAlone.map Stmt.bare = first.map Stmt.bare)
    (rests : restAlone.map Stmt.bare = rest.map Stmt.bare) {firstRounds restRounds : Nat}
    (fewer : firstRounds ≤ more) (restFewer : restRounds ≤ more)
    (firstRuns : context.Runs firstRounds firstAlone given middle)
    (restRuns : middle.Runs restRounds restAlone result after) :
    ∃ whole, context.Runs more (first ++ rest) result whole ∧ after.Same whole := by
  have firstWellFormed := wellFormed.checked first
  have grows := firstRuns.grows wellFormed
  obtain ⟨type, accepted⟩ := firstRuns.accepted
  obtain ⟨restType, restAccepted⟩ := restRuns.accepted
  obtain ⟨firstOk, firstTypes⟩ :=
    Stmt.checkAll_alike firstAlone firsts wellFormed wellFormed rfl accepted
  -- The first part, once it was run, has left the types as they were when it was checked.
  obtain ⟨restOk, restTypes⟩ := Stmt.checkAll_alike restAlone rests grows.wellFormed
    firstWellFormed (grows.typeStack.trans firstTypes) restAccepted
  have start : (context.checked firstAlone).Alike ((context.checked first).checked rest) := by
    refine ⟨wellFormed.checked firstAlone, firstWellFormed.checked rest, ?_⟩
    rw [wellFormed.valueStack_checked, firstWellFormed.valueStack_checked,
      wellFormed.valueStack_checked]
  obtain ⟨between, firstRan, betweenAlike⟩ :=
    Stmt.runAll_alike firstAlone firsts fewer start firstRuns.ran
  have again : (middle.checked restAlone).Alike between :=
    ⟨grows.wellFormed.checked restAlone, betweenAlike.right,
      (grows.wellFormed.valueStack_checked restAlone).trans betweenAlike.sameStack⟩
  obtain ⟨whole, restRan, alike⟩ := Stmt.runAll_alike restAlone rests restFewer again restRuns.ran
  refine ⟨whole, (runs_append nonempty).mpr ⟨⟨type, firstOk⟩, ⟨restType, restOk⟩, given, between,
    firstRan, restRan⟩, alike, ?_⟩
  have firstGrows := Stmt.runAll_grows first (firstWellFormed.checked rest) firstRan
  have restGrows := Stmt.runAll_grows rest firstGrows.wellFormed restRan
  calc after.typeStack
      = (middle.checked restAlone).typeStack := (restRuns.grows grows.wellFormed).typeStack
    _ = ((context.checked first).checked rest).typeStack := restTypes
    _ = between.typeStack := firstGrows.typeStack.symm
    _ = whole.typeStack := restGrows.typeStack.symm

theorem Runs.split (wellFormed : context.WellFormed) (nonempty : rest ≠ [])
    (firsts : firstAlone.map Stmt.bare = first.map Stmt.bare)
    (rests : restAlone.map Stmt.bare = rest.map Stmt.bare)
    (runs : context.Runs rounds (first ++ rest) result whole) :
    ∃ given middle after, context.Runs rounds firstAlone given middle ∧
      middle.Runs rounds restAlone result after := by
  have firstWellFormed := wellFormed.checked first
  obtain ⟨⟨type, firstOk⟩, ⟨restType, restOk⟩, given, between, firstRan, restRan⟩ :=
    (runs_append nonempty).mp runs
  obtain ⟨accepted, firstTypes⟩ :=
    Stmt.checkAll_alike first firsts.symm wellFormed wellFormed rfl firstOk
  have start : ((context.checked first).checked rest).Alike (context.checked firstAlone) := by
    refine ⟨firstWellFormed.checked rest, wellFormed.checked firstAlone, ?_⟩
    rw [wellFormed.valueStack_checked, firstWellFormed.valueStack_checked,
      wellFormed.valueStack_checked]
  obtain ⟨middle, firstAloneRan, middleAlike⟩ :=
    Stmt.runAll_alike first firsts.symm (Nat.le_refl rounds) start firstRan
  have firstRuns : context.Runs rounds firstAlone given middle := ⟨⟨type, accepted⟩, firstAloneRan⟩
  have grows := firstRuns.grows wellFormed
  obtain ⟨restAccepted, -⟩ := Stmt.checkAll_alike rest rests.symm firstWellFormed
    grows.wellFormed (firstTypes.trans grows.typeStack.symm) restOk
  have again : between.Alike (middle.checked restAlone) :=
    ⟨middleAlike.left, grows.wellFormed.checked restAlone,
      middleAlike.sameStack.trans (grows.wellFormed.valueStack_checked restAlone).symm⟩
  obtain ⟨after, restAloneRan, -⟩ :=
    Stmt.runAll_alike rest rests.symm (Nat.le_refl rounds) again restRan
  exact ⟨given, middle, after, firstRuns, ⟨⟨restType, restAccepted⟩, restAloneRan⟩⟩

end

/-- Contexts that nothing tells apart, and more rounds, do not change how a program ends. -/
theorem Runs.transfer {other : Context} (same : context.Same other)
    (runs : context.Runs rounds first result whole) (fewer : rounds ≤ more) :
    ∃ later, other.Runs more first result later ∧ whole.Same later := by
  have wellFormed := same.alike.left
  have otherWellFormed := same.alike.right
  obtain ⟨type, accepted⟩ := runs.accepted
  obtain ⟨otherAccepted, types⟩ :=
    Stmt.checkAll_alike first rfl wellFormed otherWellFormed same.types accepted
  have start : (context.checked first).Alike (other.checked first) := by
    refine ⟨wellFormed.checked first, otherWellFormed.checked first, ?_⟩
    rw [wellFormed.valueStack_checked, otherWellFormed.valueStack_checked, same.alike.sameStack]
  obtain ⟨later, ran, alike⟩ := Stmt.runAll_alike first rfl fewer start runs.ran
  have laterRuns : other.Runs more first result later := ⟨⟨type, otherAccepted⟩, ran⟩
  refine ⟨later, laterRuns, alike, ?_⟩
  calc whole.typeStack
      = (context.checked first).typeStack := (runs.grows wellFormed).typeStack
    _ = (other.checked first).typeStack := types
    _ = later.typeStack := (laterRuns.grows otherWellFormed).typeStack.symm

theorem Runs.unique (runs : context.Runs rounds first result after)
    (again : context.Runs rounds first result whole) : after = whole := by
  have same := runs.ran.symm.trans again.ran
  cases same
  rfl

end Context

namespace Session

/-- The input succeeds with the result, however many rounds its loops take. -/
def Succeeds (session : Session) (source : String) (result : Option Value) (next : Session) :
    Prop := ∃ rounds, session.run rounds source = some (.ok result, next)

/-- Every name has the same type and the same value in both sessions. -/
def SameBindings (session other : Session) : Prop :=
  ∀ name, session.context.getType? name = other.context.getType? name ∧
    session.context.getValue? name = other.context.getValue? name

variable {session next : Session} {first second source : String} {program rest : List Stmt}
  {result : Option Value}

theorem succeeds_iff (read : Program.ofSource source = .ok program) :
    session.Succeeds source result next ↔ ∃ rounds after,
      session.context.Runs rounds program result after ∧
        next = { session with bindings := .own after } := by
  constructor
  · rintro ⟨rounds, ran⟩
    obtain ⟨other, otherRead, after, runs, ended⟩ := run_eq_ok.mp ran
    rw [read] at otherRead
    cases otherRead
    exact ⟨rounds, after, runs, ended⟩
  · rintro ⟨rounds, after, runs, ended⟩
    exact ⟨rounds, run_eq_ok.mpr ⟨program, read, after, runs, ended⟩⟩

/-- Two inputs, of which the first one is closed, succeed one after the other just if they succeed
as one, with the same result and the same bindings. -/
theorem succeeds_lines_iff (reachable : session.Reachable)
    (read : Program.ofSource first = .ok program) (closed : (Tokens.ofSource first).Closed)
    (restRead : Program.ofSource second = .ok rest) (nonempty : rest ≠ []) :
    ((∃ given middle next, session.Succeeds first given middle ∧
        middle.Succeeds second result next) ↔
      ∃ whole, session.Succeeds (first ++ "\n" ++ second) result whole) ∧
    ∀ given middle next whole, session.Succeeds first given middle →
      middle.Succeeds second result next →
        session.Succeeds (first ++ "\n" ++ second) result whole → next.SameBindings whole := by
  have wellFormed := reachable.wellFormed.now
  obtain ⟨program', rest', together, firsts, rests⟩ := Program.ofSource_lines read closed restRead
  have nonempty' : rest' ≠ [] := by
    rintro rfl
    exact nonempty (List.map_eq_nil_iff.mp rests)
  refine ⟨⟨?_, ?_⟩, ?_⟩
  · rintro ⟨given, middle, next, firstRan, restRan⟩
    obtain ⟨rounds, between, firstRuns, rfl⟩ := (succeeds_iff read).mp firstRan
    obtain ⟨restRounds, after, restRuns, rfl⟩ := (succeeds_iff restRead).mp restRan
    obtain ⟨whole, runs, -⟩ := firstRuns.join wellFormed nonempty' firsts rests
      (Nat.le_max_left rounds restRounds) (Nat.le_max_right rounds restRounds) restRuns
    exact ⟨_, (succeeds_iff together).mpr ⟨_, whole, runs, rfl⟩⟩
  · rintro ⟨next, ran⟩
    obtain ⟨rounds, whole, runs, rfl⟩ := (succeeds_iff together).mp ran
    obtain ⟨given, middle, after, firstRuns, restRuns⟩ :=
      runs.split wellFormed nonempty' firsts rests
    exact ⟨given, _, _, (succeeds_iff read).mpr ⟨rounds, middle, firstRuns, rfl⟩,
      (succeeds_iff restRead).mpr ⟨rounds, after, restRuns, rfl⟩⟩
  · intro given middle next last firstRan restRan ran name
    obtain ⟨rounds, between, firstRuns, rfl⟩ := (succeeds_iff read).mp firstRan
    obtain ⟨restRounds, after, restRuns, rfl⟩ := (succeeds_iff restRead).mp restRan
    obtain ⟨wholeRounds, whole, wholeRuns, rfl⟩ := (succeeds_iff together).mp ran
    -- With enough rounds for all three runs, both ways to run the whole are one.
    obtain ⟨total, wholeFewer, fewer, restFewer⟩ :
        ∃ total, wholeRounds ≤ total ∧ rounds ≤ total ∧ restRounds ≤ total :=
      ⟨max wholeRounds (max rounds restRounds), by omega, by omega, by omega⟩
    obtain ⟨joined, joinedRuns, sameJoined⟩ :=
      firstRuns.join wellFormed nonempty' firsts rests fewer restFewer restRuns
    obtain ⟨later, laterRuns, sameLater⟩ := wholeRuns.transfer (.refl wellFormed) wholeFewer
    obtain rfl := joinedRuns.unique laterRuns
    have types : after.getType? = whole.getType? :=
      Context.getType?_of_stack (sameJoined.types.trans sameLater.types.symm)
    have values : after.getValue? = whole.getValue? :=
      Context.getValue?_of_stack (sameJoined.alike.sameStack.trans sameLater.alike.sameStack.symm)
    exact ⟨congrFun types name, congrFun values name⟩

/-- A declaration of a unit, whose tokens are these, is accepted and makes the unit. -/
theorem unit_succeeds {name : String}
    (kinds : (Tokens.ofSource source).kinds = [.keyword .unit, .name name, .mark .semicolon])
    (session : Session) :
    ∃ stmt, Program.ofSource source = .ok [stmt] ∧
      ∃ next, session.Succeeds source (some (.unitConstructor (Measure.fresh name))) next := by
  obtain ⟨program, read, trees⟩ :=
    Program.ofTokens_of_yield (d := .whole (.cons (.unit name none) .nil)) kinds.symm
  obtain ⟨stmt, rfl, tree⟩ := List.map_eq_singleton_iff.mp trees
  have same : stmt.bare = (Stmt.unit .nowhere name none).bare := tree
  cases Stmt.twins_of_bare same with
  | unit definitions =>
      obtain rfl := Option.map_eq_none_iff.mp definitions
      exact ⟨_, read, _, 0, run_eq_ok.mpr ⟨_, read, _, ⟨⟨_, rfl⟩, rfl⟩, rfl⟩⟩

/-- Two units, each declared by an input of its own. -/
theorem units_succeed_lines : ∃ whole, empty.Succeeds ("unit m;" ++ "\n" ++ "unit s;")
    (some (.unitConstructor (Measure.fresh "s"))) whole := by
  have kinds : (Tokens.ofSource "unit m;").kinds =
      [.keyword .unit, .name "m", .mark .semicolon] := by decide +kernel
  have restKinds : (Tokens.ofSource "unit s;").kinds =
      [.keyword .unit, .name "s", .mark .semicolon] := by decide +kernel
  obtain ⟨stmt, read, middle, ran⟩ := unit_succeeds kinds empty
  obtain ⟨other, restRead, next, restRan⟩ := unit_succeeds restKinds middle
  have closed : (Tokens.ofSource "unit m;").Closed := .inl (by rw [kinds]; rfl)
  exact (succeeds_lines_iff .empty read closed restRead (by simp)).1.mp
    ⟨_, middle, next, ran, restRan⟩

end Session

end Quantities
