import Mathlib.Data.Set.Insert
import Quantities.Proofs.Exact.Expression
import Quantities.Proofs.Soundness.Program
import Quantities.Proofs.Context.Growth

/-!
Cells that stay as they are. The values of names with known types lie in frozen cells and those of
other names do not, so that an assignment either writes what is there already or writes elsewhere.
-/

namespace Quantities

/-- The names with known types are those whose cells are frozen, with the types as values. -/
structure Frozen (cells : Set Nat) (checker evaluator : Context) : Prop where
  bounded : ∀ cell ∈ cells, cell < evaluator.cells.size
  known : ∀ name type, checker.getType? name = some type → type.unwrap.isKnown = true →
    ∃ cell ∈ cells, evaluator.scope.values.lookup name = some cell ∧
      evaluator.cells[cell]? = some type.unwrap
  unknown : ∀ name type cell, checker.getType? name = some type → type.unwrap.isKnown = false →
    evaluator.scope.values.lookup name = some cell → cell ∉ cells

/-- These cells hold what they held before. -/
def Context.Unchanged (cells : Set Nat) (before after : Context) : Prop :=
  ∀ cell ∈ cells, after.cells[cell]? = before.cells[cell]?

/-- How a statement or a program ends that was checked to end in the context `checked`: the frozen
cells are as they were, and there may be more of them. -/
def Stays (cells : Set Nat) (checked evaluator after : Context) : Prop :=
  evaluator.Unchanged cells after ∧ ∃ more, cells ⊆ more ∧ Frozen more checked after

namespace Frozen

variable {cells : Set Nat} {checker evaluator after : Context}

theorem exact (frozen : Frozen cells checker evaluator) :
    Exact checker.getType? evaluator.getValue? := by
  intro name type bound known
  obtain ⟨cell, -, found, held⟩ := frozen.known name type bound known
  simp [Context.getValue?, found, held]

/-- In a context whose values lie apart, the cells of the names with known types can be frozen. -/
theorem of_exact (wellFormed : evaluator.WellFormed)
    (exact : Exact checker.getType? evaluator.getValue?) :
    ∃ cells, Frozen cells checker evaluator := by
  refine ⟨fun cell => ∃ name type, checker.getType? name = some type ∧
    type.unwrap.isKnown = true ∧ evaluator.scope.values.lookup name = some cell, ?_, ?_, ?_⟩
  · rintro cell ⟨name, type, -, -, found⟩
    exact wellFormed.bounded.values _ (Scope.mem_of_lookup found)
  · intro name type bound known
    obtain ⟨cell, found, held⟩ := Option.bind_eq_some_iff.mp (exact name type bound known)
    exact ⟨cell, ⟨name, type, bound, known, found⟩, found, held⟩
  · rintro name type cell bound unknown found ⟨other, otherType, otherBound, known, otherFound⟩
    have same : name = other := congrArg Prod.fst
      (List.inj_on_of_nodup_map wellFormed.distinct (Scope.mem_of_lookup found)
        (Scope.mem_of_lookup otherFound) rfl)
    subst same
    cases Option.some.inj (bound.symm.trans otherBound)
    rw [unknown] at known
    cases known

theorem of_unchanged (frozen : Frozen cells checker evaluator)
    (unchanged : evaluator.Unchanged cells after)
    (sameScope : after.scope.values = evaluator.scope.values) : Frozen cells checker after := by
  refine ⟨?_, ?_, ?_⟩
  · intro cell member
    have inUse := Array.getElem?_eq_getElem (frozen.bounded cell member)
    rw [← unchanged cell member] at inUse
    exact Context.lt_size_of_getElem? inUse
  · intro name type bound known
    obtain ⟨cell, member, found, held⟩ := frozen.known name type bound known
    exact ⟨cell, member, sameScope ▸ found, (unchanged cell member).trans held⟩
  · intro name type cell bound unknown found
    exact frozen.unknown name type cell bound unknown (sameScope ▸ found)

theorem stays_of_unchanged (frozen : Frozen cells checker evaluator)
    (unchanged : evaluator.Unchanged cells after)
    (sameScope : after.scope.values = evaluator.scope.values) :
    Stays cells checker evaluator after :=
  ⟨unchanged, cells, subset_rfl, frozen.of_unchanged unchanged sameScope⟩

theorem refl (frozen : Frozen cells checker evaluator) : Stays cells checker evaluator evaluator :=
  ⟨fun _ _ => rfl, cells, subset_rfl, frozen⟩

theorem leave (frozen : Frozen cells checker evaluator)
    (unchanged : evaluator.Unchanged cells after) :
    Stays cells checker evaluator (after.leave evaluator.mark) := by
  refine frozen.stays_of_unchanged ?_ rfl
  intro cell member
  rw [← unchanged cell member]
  have bound := frozen.bounded cell member
  simp only [Context.leave, Context.mark, Array.take_eq_extract]
  rw [Array.getElem?_extract]
  split
  next => rw [Nat.zero_add]
  next outside => exact (Array.getElem?_eq_none (by omega)).symm

/-- A declaration freezes its cell when its type is known. -/
theorem declare (frozen : Frozen cells checker evaluator) (checkable : checker.Checkable)
    (wellFormed : evaluator.WellFormed) (name : String) {type v : Value}
    (same : type.unwrap.isKnown = true → v = type.unwrap) :
    Stays cells (checker.addType name type) evaluator (evaluator.addValue name v) := by
  have older (cell : Nat) (inUse : cell < evaluator.cells.size) :
      (evaluator.addValue name v).cells[cell]? = evaluator.cells[cell]? :=
    Context.getElem?_push_of_lt inUse v
  have lookup (other : String) : (evaluator.addValue name v).scope.values.lookup other =
      if other = name then some evaluator.cells.size
      else evaluator.scope.values.lookup other := Scope.lookup_cons ..
  refine ⟨fun cell member => older cell (frozen.bounded cell member),
    cells ∪ {cell | type.unwrap.isKnown = true ∧ cell = evaluator.cells.size},
    Set.subset_union_left, ?_, ?_, ?_⟩
  · have size : (evaluator.addValue name v).cells.size = evaluator.cells.size + 1 := by
      simp [Context.addValue]
    rintro cell (member | ⟨-, rfl⟩)
    · exact size ▸ Nat.lt_succ_of_lt (frozen.bounded cell member)
    · exact size ▸ Nat.lt_succ_self _
  · intro other bound found known
    rw [checkable.bounded.getType?_addType] at found
    rw [lookup]
    split at found
    next here =>
      cases found
      refine ⟨evaluator.cells.size, .inr ⟨known, rfl⟩, if_pos here, ?_⟩
      rw [← same known]
      exact Array.getElem?_push_size
    next elsewhere =>
      obtain ⟨cell, member, cellFound, held⟩ := frozen.known other bound found known
      rw [if_neg elsewhere]
      exact ⟨cell, .inl member, cellFound, (older cell (frozen.bounded cell member)).trans held⟩
  · intro other bound cell found unknown cellFound
    rw [checkable.bounded.getType?_addType] at found
    rw [lookup] at cellFound
    split at found
    next here =>
      cases found
      rw [if_pos here] at cellFound
      cases cellFound
      rintro (member | ⟨known, -⟩)
      · exact absurd (frozen.bounded _ member) (Nat.lt_irrefl _)
      · rw [unknown] at known
        cases known
    next elsewhere =>
      rw [if_neg elsewhere] at cellFound
      rintro (member | ⟨-, rfl⟩)
      · exact frozen.unknown other bound cell found unknown cellFound member
      · exact absurd (wellFormed.bounded.values _ (Scope.mem_of_lookup cellFound))
          (Nat.lt_irrefl _)

end Frozen

namespace Stmt

/-- An assignment does not turn the sign of a zero. -/
def KeepsZeros (types : String → Option Value) : Stmt → Prop
  | .assign _ name rhs => ∀ declared type, types name = some declared →
    rhs.infer types = .ok type → type.KeepsZeros declared.unwrap
  | _ => True

section

variable {types values : String → Option Value} {location : Location} {name : String}
  {type v : Value}

theorem var_exact (exact : Exact types values) {declared initial : Option Expr}
    (accepted : Typing.variableType types location declared initial = .ok type)
    (known : type.unwrap.isKnown = true)
    (ran : Evaluation.variableValue values location name declared initial = .ok v) :
    v = type.unwrap := by
  have unknown {constructor : Value} (declares : constructor.instanceType? = some type) :
      type.unwrap.isKnown = false := by
    rcases (Value.instanceType?_eq_some declares).2 with rfl | ⟨unit, rfl⟩ <;> rfl
  cases Typing.variableType_eq_ok accepted with
  | both constructed declares inferred subtype =>
      rw [unknown declares] at known
      cases known
  | declared constructed declares =>
      rw [unknown declares] at known
      cases known
  | @initial initial given inferred =>
      obtain ⟨bare, evaluates⟩ := Expr.infer_exact exact inferred
      have whole : given.isKnown = true ∧ given.abstractType.unwrap = given := by
        cases given with
        | booleanConstructor | unitConstructor unit => exact ⟨rfl, rfl⟩
        | hole name inner => exact absurd bare (Value.unwrap_ne_hole _ _ _)
        | _ => cases known
      rw [Evaluation.variableValue_initial, evaluates whole.1] at ran
      rw [whole.2]
      exact (Except.ok.inj ran).symm

theorem unit_exact (exact : Exact types values) {definition : Option Expr}
    (accepted : Typing.unitType types name definition = .ok type)
    (ran : Evaluation.unitValue values name definition = .ok v) : v = type.unwrap := by
  cases definition with
  | none =>
      cases accepted
      cases ran
      rfl
  | some e =>
      obtain ⟨given, inferred, accepted⟩ := Result.bind_eq_ok.mp accepted
      obtain ⟨-, evaluates⟩ := Expr.infer_exact exact inferred
      split at accepted
      next worth found =>
        cases accepted
        have known : given.isKnown = true := by
          cases given with
          | quantity q | unitConstructor unit => rfl
          | _ => cases found
        simp [Evaluation.unitValue, evaluates known, found, bind, Except.bind, pure,
          Except.pure] at ran
        exact ran.symm
      next => split at accepted <;> cases accepted

theorem constant_exact (exact : Exact types values) {rhs : Expr}
    (accepted : rhs.infer types = .ok type) (known : type.unwrap.isKnown = true)
    (ran : rhs.eval values = .ok v) : v = type.unwrap := by
  obtain ⟨bare, evaluates⟩ := Expr.infer_exact exact accepted
  rw [bare] at known ⊢
  rw [evaluates known] at ran
  exact (Except.ok.inj ran).symm

end

variable {cells : Set Nat} {checker evaluator after : Context} {v : Option Value}

theorem bind_stays (frozen : Frozen cells checker evaluator) (checkable : checker.Checkable)
    (wellFormed : evaluator.WellFormed) {name : String} {typing result : Except Fault Value}
    {type : Option Value}
    (accepted : (Step.bind checker typing (checker.addType name)).result = .ok type)
    (same : ∀ {given found}, typing = .ok given → given.unwrap.isKnown = true →
      result = .ok found → found = given.unwrap)
    (ran : Step.bind evaluator result (evaluator.addValue name) = ⟨.ok v, after⟩) :
    Stays cells (Step.bind checker typing (checker.addType name)).context evaluator after := by
  cases typing with
  | error fault => cases accepted
  | ok given =>
      cases result with
      | error fault => cases ran
      | ok found =>
          cases ran
          exact frozen.declare checkable wellFormed name fun known => same rfl known rfl

theorem assign_stays (frozen : Frozen cells checker evaluator) (checkable : checker.Checkable)
    {location : Location} {name : String} {rhs : Expr} {type : Value}
    (accepted : Typing.assignmentType checker.getType? location name rhs = .ok type)
    (keeps : KeepsZeros checker.getType? (.assign location name rhs))
    (ran : Evaluation.assign location name
      (Evaluation.assignedValue evaluator.getValue? location name rhs) evaluator =
        ⟨.ok v, after⟩) : Stays cells checker evaluator after := by
  obtain ⟨declared, bound, inferred, subtype⟩ := assignmentType_eq_ok accepted
  unfold Evaluation.assign at ran
  split at ran
  next => cases ran
  next written assigned =>
    split at ran
    next context wrote =>
      cases ran
      obtain ⟨cell, found, same⟩ := Option.bind_eq_some_iff.mp wrote
      cases same
      refine frozen.stays_of_unchanged ?_ rfl
      intro other member
      by_cases here : cell = other
      · subst here
        cases known : declared.unwrap.isKnown with
        | false => exact absurd member (frozen.unknown name declared cell bound known found)
        | true =>
            -- What is written is the type, and the type is what the cell holds.
            obtain ⟨bare, evaluates⟩ := Expr.infer_exact frozen.exact inferred
            have whole := Value.eq_of_isSubtypeOf bare
              (Expr.infer_zeroFree checkable.zeroFree inferred) known subtype
              (keeps declared type bound inferred)
            obtain ⟨place, placeMember, placeFound, held⟩ := frozen.known name declared bound known
            cases Option.some.inj (found.symm.trans placeFound)
            have evaluated := evaluates (whole ▸ known)
            have present : evaluator.getValue? name = some declared.unwrap :=
              frozen.exact name declared bound known
            have same : written = declared.unwrap := by
              simp only [Evaluation.assignedValue, present, evaluated, bind, Except.bind] at assigned
              split at assigned
              next => exact (Except.ok.inj assigned).symm.trans whole
              next => cases assigned
            rw [same, held]
            exact Array.getElem?_setIfInBounds_self_of_lt (frozen.bounded cell member)
      · exact Array.getElem?_setIfInBounds_ne here
    next => cases ran

/-- No assignment that a run comes to turns the sign of a zero. -/
def AllKeepZeros (program : List Stmt) (checker evaluator : Context) : Prop :=
  ∀ found inner outer, Visits program checker evaluator found inner outer →
    found.KeepsZeros inner.getType?

theorem AllKeepZeros.within {program body : List Stmt} {start now : Context}
    (keeps : AllKeepZeros program checker evaluator)
    (comes : ∀ {found : Stmt} {inner outer : Context}, Visits body start now found inner outer →
      Visits program checker evaluator found inner outer) : AllKeepZeros body start now :=
  fun found inner outer visits => keeps found inner outer (comes visits)

mutual

theorem run_stays (stmt : Stmt) {cells : Set Nat} {checker evaluator after : Context} {rounds : Nat}
    {type v : Option Value} (frozen : Frozen cells checker evaluator)
    (checkable : checker.Checkable) (wellFormed : evaluator.WellFormed)
    (accepted : (stmt.check checker).result = .ok type)
    (keeps : AllKeepZeros [stmt] checker evaluator)
    (ran : stmt.run rounds evaluator = some ⟨.ok v, after⟩) :
    Stays cells (stmt.check checker).context evaluator after := by
  cases stmt with
  | empty location =>
      cases ran
      exact frozen.refl
  | block location body =>
      rw [check_context]
      obtain ⟨rfl, last, bodyOk⟩ := check_block_eq_ok.mp accepted
      rw [run] at ran
      obtain ⟨-, result, context, bodyRan, rfl⟩ := Step.scoped_eq_ok ran
      exact frozen.leave
        (runAll_stays body frozen checkable wellFormed bodyOk (keeps.within .block) bodyRan).1
  | branch location condition yes no =>
      rw [check_context]
      obtain ⟨rfl, conditionOk, ⟨yesLast, yesOk⟩, noOk⟩ := check_branch_eq_ok.mp accepted
      rw [run_branch] at ran
      split at ran
      next => cases ran
      next holds =>
        obtain ⟨-, result, context, yesRan, rfl⟩ := Step.scoped_eq_ok ran
        exact frozen.leave
          (run_stays yes frozen checkable wellFormed yesOk (keeps.within (.yes holds)) yesRan).1
      next fails =>
        cases no with
        | none =>
            cases ran
            exact frozen.refl
        | some no =>
            obtain ⟨noLast, noOk⟩ := noOk no rfl
            obtain ⟨-, result, context, noRan, rfl⟩ := Step.scoped_eq_ok ran
            exact frozen.leave
              (run_stays no frozen checkable wellFormed noOk (keeps.within (.no fails)) noRan).1
  | loop location condition body =>
      rw [check_context]
      obtain ⟨rfl, conditionOk, last, bodyOk⟩ := check_loop_eq_ok.mp accepted
      rw [run] at ran
      -- Each round starts with the frozen cells of the loop, and what is left to run is the loop.
      obtain ⟨rfl, unchanged, after, -, -⟩ := Evaluation.repeatWhile_ok
        (fun now => evaluator.Unchanged cells now ∧ Frozen cells checker now ∧ now.WellFormed ∧
          AllKeepZeros [.loop location condition body] checker now)
        (fun {before v between} holds goesOn ran => by
          obtain ⟨unchanged, now, nowFormed, nowKeeps⟩ := holds
          obtain ⟨context, bodyRan, rfl⟩ := Step.left_eq_some ran
          have inner := run_stays body now checkable nowFormed bodyOk
            (nowKeeps.within (.round goesOn)) bodyRan
          have grown := run_grows body nowFormed bodyRan
          have left := now.leave inner.1
          exact ⟨fun cell member => (left.1 cell member).trans (unchanged cell member),
            now.of_unchanged left.1 rfl, (grown.leave nowFormed).wellFormed,
            nowKeeps.within (.nextRound goesOn bodyRan)⟩)
        ⟨fun _ _ => rfl, frozen, wellFormed, keeps⟩ ran
      exact ⟨unchanged, cells, subset_rfl, after⟩
  | var location name declared initial =>
      exact bind_stays frozen checkable wellFormed accepted
        (fun typed known found => var_exact frozen.exact typed known found) (Option.some.inj ran)
  | unit location name definition =>
      exact bind_stays frozen checkable wellFormed accepted
        (fun typed _ found => unit_exact frozen.exact typed found) (Option.some.inj ran)
  | assign location name rhs =>
      change (Typing.assignmentType checker.getType? location name rhs).map some = .ok type at accepted
      obtain ⟨given, typed, rfl⟩ := Result.map_eq_ok.mp accepted
      exact assign_stays frozen checkable typed (keeps _ _ _ .first) (Option.some.inj ran)
  | constant location name rhs =>
      exact bind_stays frozen checkable wellFormed accepted
        (fun typed known found => constant_exact frozen.exact typed known found)
        (Option.some.inj ran)
  | expr location e =>
      have ended := congrArg Step.context (Option.some.inj ran)
      cases ended
      exact frozen.refl

theorem runAll_stays (body : List Stmt) {cells : Set Nat} {checker evaluator after : Context}
    {rounds : Nat} {lastType last type v : Option Value} (frozen : Frozen cells checker evaluator)
    (checkable : checker.Checkable) (wellFormed : evaluator.WellFormed)
    (accepted : (checkAll body lastType checker).result = .ok type)
    (keeps : AllKeepZeros body checker evaluator)
    (ran : runAll rounds body last evaluator = some ⟨.ok v, after⟩) :
    Stays cells (checkAll body lastType checker).context evaluator after := by
  cases body with
  | nil =>
      cases ran
      exact frozen.refl
  | cons first rest =>
      obtain ⟨given, firstOk, continues⟩ := checkAll_cons_eq_ok accepted
      rw [continues] at accepted ⊢
      rw [runAll] at ran
      rcases Evaluation.andThen_eq_some ran with
        ⟨result, between, firstRan, restRan⟩ | ⟨fault, between, -, failed⟩
      · have grown := run_grows first wellFormed firstRan
        obtain ⟨unchanged, more, larger, frozenMore⟩ := run_stays first frozen checkable wellFormed
          firstOk (keeps.within Visits.weaken) firstRan
        obtain ⟨restUnchanged, most, largest, frozenMost⟩ := runAll_stays rest frozenMore
          (check_checkable checkable first) grown.wellFormed accepted
          (keeps.within (.later firstRan)) restRan
        exact ⟨fun cell member => (restUnchanged cell (larger member)).trans (unchanged cell member),
          most, larger.trans largest, frozenMost⟩
      · cases failed

end

end Stmt

end Quantities
