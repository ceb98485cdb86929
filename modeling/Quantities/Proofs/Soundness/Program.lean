import Quantities.Proofs.Soundness.Preservation

/-!
Whole programs. What a program that was checked comes to agrees with its types, statement by
statement and however often a statement is run, and if the program fails, then for want of the value
of a variable or over the factor of a unit.
-/

namespace Quantities

/-- A run of the statements comes to a statement, perhaps within others: with the context in which
that statement was checked and the one in which it now runs. The body of a loop is checked once, and
is come to in every round. -/
inductive Visits : List Stmt → Context → Context → Stmt → Context → Context → Prop where
  | first {stmt : Stmt} {rest : List Stmt} {checker evaluator : Context} :
      Visits (stmt :: rest) checker evaluator stmt checker evaluator
  | later {stmt found : Stmt} {rest : List Stmt} {rounds : Nat} {v : Option Value}
      {checker evaluator after inner outer : Context}
      (ran : stmt.run rounds evaluator = some ⟨.ok v, after⟩)
      (visits : Visits rest (stmt.check checker).context after found inner outer) :
      Visits (stmt :: rest) checker evaluator found inner outer
  | block {location : Location} {body rest : List Stmt} {found : Stmt}
      {checker evaluator inner outer : Context}
      (visits : Visits body checker evaluator found inner outer) :
      Visits (.block location body :: rest) checker evaluator found inner outer
  | yes {location : Location} {condition : Expr} {yes found : Stmt} {no : Option Stmt}
      {rest : List Stmt} {checker evaluator inner outer : Context}
      (holds : Evaluation.condition evaluator.getValue? condition = .ok true)
      (visits : Visits [yes] checker evaluator found inner outer) :
      Visits (.branch location condition yes no :: rest) checker evaluator found inner outer
  | no {location : Location} {condition : Expr} {yes no found : Stmt} {rest : List Stmt}
      {checker evaluator inner outer : Context}
      (fails : Evaluation.condition evaluator.getValue? condition = .ok false)
      (visits : Visits [no] checker evaluator found inner outer) :
      Visits (.branch location condition yes (some no) :: rest) checker evaluator found inner outer
  | round {location : Location} {condition : Expr} {body found : Stmt} {rest : List Stmt}
      {checker evaluator inner outer : Context}
      (holds : Evaluation.condition evaluator.getValue? condition = .ok true)
      (visits : Visits [body] checker evaluator found inner outer) :
      Visits (.loop location condition body :: rest) checker evaluator found inner outer
  | nextRound {location : Location} {condition : Expr} {body found : Stmt} {rest : List Stmt}
      {rounds : Nat} {v : Option Value} {checker evaluator after inner outer : Context}
      (holds : Evaluation.condition evaluator.getValue? condition = .ok true)
      (ran : body.run rounds evaluator = some ⟨.ok v, after⟩)
      (visits : Visits [.loop location condition body] checker (after.leave evaluator.mark)
        found inner outer) :
      Visits (.loop location condition body :: rest) checker evaluator found inner outer

/-- What every accepted statement keeps, and every round of a loop, holds wherever a run comes. -/
theorem Visits.keep {program : List Stmt} {checker evaluator inner outer : Context} {found : Stmt}
    (visits : Visits program checker evaluator found inner outer)
    (invariant : Context → Context → Prop)
    (runs : ∀ {stmt : Stmt} {types values after : Context} {given v : Option Value} {rounds : Nat},
      Visits program checker evaluator stmt types values → (stmt.check types).result = .ok given →
        invariant types values → stmt.run rounds values = some ⟨.ok v, after⟩ →
          invariant (stmt.check types).context after)
    (repeats : ∀ {location : Location} {condition : Expr} {body : Stmt}
      {types values after : Context} {given v : Option Value} {rounds : Nat},
      Visits program checker evaluator (.loop location condition body) types values →
        Evaluation.condition values.getValue? condition = .ok true →
          (body.check types).result = .ok given → invariant types values →
            body.run rounds values = some ⟨.ok v, after⟩ →
              invariant types (after.leave values.mark))
    (holds : invariant checker evaluator) {last type : Option Value}
    (accepted : (Stmt.checkAll program last checker).result = .ok type) :
    (∃ given, (found.check inner).result = .ok given) ∧ invariant inner outer := by
  induction visits generalizing last type with
  | first =>
      obtain ⟨given, firstOk, -⟩ := Stmt.checkAll_cons_eq_ok accepted
      exact ⟨⟨given, firstOk⟩, holds⟩
  | later ran visits ih =>
      obtain ⟨given, firstOk, continues⟩ := Stmt.checkAll_cons_eq_ok accepted
      exact ih (fun reached => runs (.later ran reached)) (fun reached => repeats (.later ran reached))
        (runs .first firstOk holds ran) (continues ▸ accepted)
  | block visits ih =>
      obtain ⟨given, firstOk, -⟩ := Stmt.checkAll_cons_eq_ok accepted
      obtain ⟨-, bodyLast, bodyOk⟩ := Stmt.check_block_eq_ok.mp firstOk
      exact ih (fun reached => runs (.block reached)) (fun reached => repeats (.block reached)) holds
        bodyOk
  | yes goesOn visits ih =>
      obtain ⟨given, firstOk, -⟩ := Stmt.checkAll_cons_eq_ok accepted
      obtain ⟨-, -, ⟨yesLast, yesOk⟩, -⟩ := Stmt.check_branch_eq_ok.mp firstOk
      exact ih (fun reached => runs (.yes goesOn reached))
        (fun reached => repeats (.yes goesOn reached)) holds (Stmt.checkAll_singleton_eq_ok yesOk)
  | no fails visits ih =>
      obtain ⟨given, firstOk, -⟩ := Stmt.checkAll_cons_eq_ok accepted
      obtain ⟨-, -, -, noOk⟩ := Stmt.check_branch_eq_ok.mp firstOk
      obtain ⟨noLast, noOk⟩ := noOk _ rfl
      exact ih (fun reached => runs (.no fails reached))
        (fun reached => repeats (.no fails reached)) holds (Stmt.checkAll_singleton_eq_ok noOk)
  | round goesOn visits ih =>
      obtain ⟨given, firstOk, -⟩ := Stmt.checkAll_cons_eq_ok accepted
      obtain ⟨-, -, bodyLast, bodyOk⟩ := Stmt.check_loop_eq_ok.mp firstOk
      exact ih (fun reached => runs (.round goesOn reached))
        (fun reached => repeats (.round goesOn reached)) holds (Stmt.checkAll_singleton_eq_ok bodyOk)
  | nextRound goesOn ran visits ih =>
      obtain ⟨given, firstOk, -⟩ := Stmt.checkAll_cons_eq_ok accepted
      obtain ⟨-, -, bodyLast, bodyOk⟩ := Stmt.check_loop_eq_ok.mp firstOk
      exact ih (fun reached => runs (.nextRound goesOn ran reached))
        (fun reached => repeats (.nextRound goesOn ran reached))
        (repeats .first goesOn bodyOk holds ran) (Stmt.checkAll_singleton_eq_ok firstOk)

theorem Visits.agree {program : List Stmt} {checker evaluator inner outer : Context} {found : Stmt}
    (visits : Visits program checker evaluator found inner outer) {last type : Option Value}
    (checkable : checker.Checkable) (agree : Agree checker.getType? evaluator.getValue?)
    (accepted : (Stmt.checkAll program last checker).result = .ok type) :
    inner.Checkable ∧ Agree inner.getType? outer.getValue? ∧
      ∃ given, (found.check inner).result = .ok given := by
  obtain ⟨foundOk, innerCheckable, outerAgree⟩ := visits.keep
    (fun types values => types.Checkable ∧ Agree types.getType? values.getValue?)
    (fun {stmt} _ _ _ _ _ _ _ stmtOk holds ran =>
      ⟨Stmt.check_checkable holds.1 stmt,
        (Stmt.run_asChecked stmt holds.1 holds.2 stmtOk ran).agree⟩)
    (fun _ _ bodyOk holds ran =>
      ⟨holds.1, (holds.2.leave (Stmt.run_asChecked _ holds.1 holds.2 bodyOk ran).kept).1⟩)
    ⟨checkable, agree⟩ accepted
  exact ⟨innerCheckable, outerAgree, foundOk⟩

theorem Visits.weaken {stmt found : Stmt} {rest : List Stmt}
    {checker evaluator inner outer : Context}
    (visits : Visits [stmt] checker evaluator found inner outer) :
    Visits (stmt :: rest) checker evaluator found inner outer := by
  cases visits with
  | first => exact .first
  | later ran visits => cases visits
  | block visits => exact .block visits
  | yes holds visits => exact .yes holds visits
  | no fails visits => exact .no fails visits
  | round holds visits => exact .round holds visits
  | nextRound holds ran visits => exact .nextRound holds ran visits

namespace Stmt

/-- The program comes to a statement that fails at once, for one of the reasons there are. -/
def FailsWithin (program : List Stmt) (checker evaluator : Context) (fault : Fault) : Prop :=
  ∃ found inner outer, Visits program checker evaluator found inner outer ∧
    (∀ rounds, found.run rounds outer = some ⟨.error fault, outer⟩) ∧
    found.Blames outer.getValue? fault

theorem FailsWithin.imp {body program : List Stmt} {start checker now evaluator : Context}
    {fault : Fault} (failed : FailsWithin body start now fault)
    (comes : ∀ {found : Stmt} {inner outer : Context}, Visits body start now found inner outer →
      Visits program checker evaluator found inner outer) :
    FailsWithin program checker evaluator fault := by
  obtain ⟨found, inner, outer, visits, failsAtOnce⟩ := failed
  exact ⟨found, inner, outer, comes visits, failsAtOnce⟩

theorem failsWithin_of_comes {stmt : Stmt} {checker evaluator : Context} {kind : Kind}
    {result : Except Fault Value} {fault : Fault}
    (comes : stmt.Comes evaluator.getValue? kind result) (failed : result = .error fault)
    (ran : ∀ rounds, stmt.run rounds evaluator = some ⟨.error fault, evaluator⟩) :
    FailsWithin [stmt] checker evaluator fault := by
  rcases comes with ⟨v, found, -⟩ | ⟨other, found, blames⟩
  · rw [found] at failed
    cases failed
  · rw [found] at failed
    cases failed
    exact ⟨stmt, checker, evaluator, .first, ran, blames⟩

theorem bind_failsWithin {stmt : Stmt} {name : String} {checker evaluator after : Context}
    {typing result : Except Fault Value} {type : Option Value} {fault : Fault}
    (accepted : (Step.bind checker typing (checker.addType name)).result = .ok type)
    (comes : ∀ given, typing = .ok given → stmt.Comes evaluator.getValue? given.kind result)
    (runs : ∀ rounds, stmt.run rounds evaluator =
      some (Step.bind evaluator result (evaluator.addValue name)))
    (ran : Step.bind evaluator result (evaluator.addValue name) = ⟨.error fault, after⟩) :
    FailsWithin [stmt] checker evaluator fault := by
  cases typing with
  | error fault => cases accepted
  | ok given =>
      cases result with
      | ok found => cases ran
      | error other =>
          cases ran
          exact failsWithin_of_comes (comes given rfl) rfl runs

theorem condition_failsWithin (stmt : Stmt) {condition : Expr} {checker evaluator : Context}
    {fault : Fault} (agree : Agree checker.getType? evaluator.getValue?)
    (member : condition ∈ stmt.expressions) (needs : stmt.needs? = some condition)
    (accepted : Typing.condition checker.getType? condition = .ok ())
    (failed : Evaluation.condition evaluator.getValue? condition = .error fault)
    (ran : ∀ rounds, stmt.run rounds evaluator = some ⟨.error fault, evaluator⟩) :
    FailsWithin [stmt] checker evaluator fault := by
  rcases condition_comes agree member needs accepted with ⟨truth, found⟩ | ⟨other, found, blames⟩
  · rw [found] at failed
    cases failed
  · rw [found] at failed
    cases failed
    exact ⟨stmt, checker, evaluator, .first, ran, blames⟩

mutual

theorem run_failsWithin (stmt : Stmt) {checker evaluator after : Context} {rounds : Nat}
    {type : Option Value} {fault : Fault} (checkable : checker.Checkable)
    (agree : Agree checker.getType? evaluator.getValue?)
    (accepted : (stmt.check checker).result = .ok type)
    (ran : stmt.run rounds evaluator = some ⟨.error fault, after⟩) :
    FailsWithin [stmt] checker evaluator fault := by
  cases stmt with
  | empty location => cases ran
  | block location body =>
      obtain ⟨-, last, bodyOk⟩ := check_block_eq_ok.mp accepted
      rw [run] at ran
      obtain ⟨inner, bodyRan⟩ := Step.scoped_eq_error ran
      exact (runAll_failsWithin body checkable agree bodyOk bodyRan).imp .block
  | branch location condition yes no =>
      obtain ⟨-, conditionOk, ⟨yesLast, yesOk⟩, noOk⟩ := check_branch_eq_ok.mp accepted
      rw [run_branch] at ran
      split at ran
      next other failed =>
        cases ran
        refine condition_failsWithin _ agree (List.mem_singleton_self _) rfl conditionOk failed ?_
        intro rounds
        rw [run_branch, failed]
      next holds =>
        obtain ⟨inner, yesRan⟩ := Step.scoped_eq_error ran
        exact (run_failsWithin yes checkable agree yesOk yesRan).imp (.yes holds)
      next fails =>
        cases no with
        | none => cases ran
        | some no =>
            obtain ⟨noLast, noOk⟩ := noOk no rfl
            obtain ⟨inner, noRan⟩ := Step.scoped_eq_error ran
            exact (run_failsWithin no checkable agree noOk noRan).imp (.no fails)
  | loop location condition body =>
      obtain ⟨-, conditionOk, last, bodyOk⟩ := check_loop_eq_ok.mp accepted
      rw [run] at ran
      -- What a later round comes to, the loop comes to.
      obtain ⟨start, ⟨startAgree, comesBack⟩, failed⟩ := Evaluation.repeatWhile_error
        (fun now => Agree checker.getType? now.getValue? ∧
          ∀ found inner outer, Visits [loop location condition body] checker now found inner outer →
            Visits [loop location condition body] checker evaluator found inner outer)
        (fun {before v between} holds goesOn ran => by
          obtain ⟨now, comesBack⟩ := holds
          obtain ⟨inner, bodyRan, rfl⟩ := Step.left_eq_some ran
          have bodyEnds := run_asChecked body checkable now bodyOk bodyRan
          refine ⟨(now.leave bodyEnds.kept).1, fun found inner outer visits => ?_⟩
          exact comesBack found inner outer (.nextRound goesOn bodyRan visits))
        ⟨agree, fun _ _ _ visits => visits⟩ ran
      rcases failed with ⟨failed, rfl⟩ | ⟨goesOn, bodyFailed⟩
      · have fails := condition_failsWithin (loop location condition body) startAgree
          (List.mem_singleton_self _) rfl conditionOk failed (fun rounds => by
            rw [run, Evaluation.repeatWhile_of_error failed])
        exact fails.imp (comesBack _ _ _)
      · obtain ⟨inner, bodyRan, -⟩ := Step.left_eq_some bodyFailed
        exact (run_failsWithin body checkable startAgree bodyOk bodyRan).imp fun visits =>
          comesBack _ _ _ (.round goesOn visits)
  | var location name declared initial =>
      exact bind_failsWithin accepted (fun _ typed => var_comes agree checkable.zeroFree typed)
        (fun _ => rfl) (Option.some.inj ran)
  | unit location name definition =>
      exact bind_failsWithin accepted (fun _ typed => unit_comes agree location typed)
        (fun _ => rfl) (Option.some.inj ran)
  | assign location name rhs =>
      change (Typing.assignmentType checker.getType? location name rhs).map some = .ok type at accepted
      obtain ⟨given, typed, rfl⟩ := Result.map_eq_ok.mp accepted
      have comes := assign_comes agree checkable.zeroFree typed
      have ended : Evaluation.assign location name
          (Evaluation.assignedValue evaluator.getValue? location name rhs) evaluator =
          ⟨.error fault, after⟩ := Option.some.inj ran
      cases result : Evaluation.assignedValue evaluator.getValue? location name rhs with
      | ok found =>
          -- A name that has a type has a cell as well, and so the value can be written.
          obtain ⟨declared, bound, -⟩ := assignmentType_eq_ok typed
          obtain ⟨present, presentFound, -⟩ := agree name declared bound
          obtain ⟨cell, cellBound, -⟩ := Option.bind_eq_some_iff.mp presentFound
          rw [result] at ended
          simp [Evaluation.assign, Context.setValue?, cellBound] at ended
      | error other =>
          rw [result] at ended
          cases ended
          refine failsWithin_of_comes comes result fun rounds => ?_
          rw [run, result]
          rfl
  | constant location name rhs =>
      exact bind_failsWithin accepted
        (fun _ typed => comes_of_expression agree (constant location name rhs)
          (List.mem_singleton_self rhs) typed)
        (fun _ => rfl) (Option.some.inj ran)
  | expr location e =>
      change (e.infer checker.getType?).map some = .ok type at accepted
      obtain ⟨given, typed, rfl⟩ := Result.map_eq_ok.mp accepted
      have comes := comes_of_expression agree (expr location e)
        (List.mem_singleton_self e) typed
      have ended : Step.yield evaluator (e.eval evaluator.getValue?) = ⟨.error fault, after⟩ :=
        Option.some.inj ran
      cases result : e.eval evaluator.getValue? with
      | ok found =>
          rw [result] at ended
          cases ended
      | error other =>
          rw [result] at ended
          cases ended
          refine failsWithin_of_comes comes result fun rounds => ?_
          rw [run, result]
          rfl

theorem runAll_failsWithin (body : List Stmt) {checker evaluator after : Context} {rounds : Nat}
    {lastType last type : Option Value} {fault : Fault} (checkable : checker.Checkable)
    (agree : Agree checker.getType? evaluator.getValue?)
    (accepted : (checkAll body lastType checker).result = .ok type)
    (ran : runAll rounds body last evaluator = some ⟨.error fault, after⟩) :
    FailsWithin body checker evaluator fault := by
  cases body with
  | nil => cases ran
  | cons first rest =>
      obtain ⟨given, firstOk, continues⟩ := checkAll_cons_eq_ok accepted
      rw [continues] at accepted
      rw [runAll] at ran
      rcases Evaluation.andThen_eq_some ran with
        ⟨result, between, firstRan, restRan⟩ | ⟨other, between, firstFailed, same⟩
      · have firstEnds := run_asChecked first checkable agree firstOk firstRan
        have restFails := runAll_failsWithin rest (check_checkable checkable first) firstEnds.agree
          accepted restRan
        exact restFails.imp (.later firstRan)
      · cases same
        exact (run_failsWithin first checkable agree firstOk firstFailed).imp Visits.weaken

end

end Stmt

/-- What the check of a program says of its runs. -/
structure RunsAsChecked (program : List Stmt) (checker evaluator : Context) (type : Option Value) :
    Prop where
  /-- Wherever a run comes to a statement, at any depth and in any round of a loop, the values agree
  with the types there, and they do so again when the statement has run, with the value that its
  type says. -/
  visited : ∀ found inner outer, Visits program checker evaluator found inner outer →
    Agree inner.getType? outer.getValue? ∧
      ∃ given, (found.check inner).result = .ok given ∧
        ∀ rounds v after, found.run rounds outer = some ⟨.ok v, after⟩ →
          Matches v given ∧ Agree (found.check inner).context.getType? after.getValue?
  /-- The program fails at a statement that has a reason to. -/
  failed : ∀ rounds fault after,
    Stmt.runAll rounds program none evaluator = some ⟨.error fault, after⟩ →
      Stmt.FailsWithin program checker evaluator fault
  /-- A program that does not fail has the value that its type says, and its values agree with the
  types at its end. -/
  ended : ∀ rounds v after, Stmt.runAll rounds program none evaluator = some ⟨.ok v, after⟩ →
    Matches v type ∧ Agree (Stmt.checkAll program none checker).context.getType? after.getValue?

/-- From values that agree with the types, every program that is accepted runs as it was checked. -/
theorem runsAsChecked_of_accepted {program : List Stmt} {checker evaluator : Context}
    {type : Option Value} (checkable : checker.Checkable)
    (agree : Agree checker.getType? evaluator.getValue?)
    (accepted : (Stmt.checkAll program none checker).result = .ok type) :
    RunsAsChecked program checker evaluator type where
  visited := by
    intro found inner outer visits
    obtain ⟨innerCheckable, outerAgree, given, foundOk⟩ := visits.agree checkable agree accepted
    refine ⟨outerAgree, given, foundOk, ?_⟩
    intro rounds v after ran
    have ends := Stmt.run_asChecked found innerCheckable outerAgree foundOk ran
    exact ⟨ends.fits, ends.agree⟩
  failed := by
    intro rounds fault after ran
    exact Stmt.runAll_failsWithin program checkable agree accepted ran
  ended := by
    intro rounds v after ran
    have ends := Stmt.runAll_asChecked program checkable agree accepted ran .nothing
    exact ⟨ends.fits, ends.agree⟩

/-- A distance that grows from one kilometre to three, beside a variable that never has a value. -/
def journey : List Stmt :=
  let here := Location.nowhere
  let kilometres (x : Float) := Expr.ascription here (.number here x) (.name here "km")
  [.unit here "m" none,
    .unit here "km" (some (.ascription here (.number here 1000) (.name here "m"))),
    .var here "distance" none (some (kilometres 1)),
    .loop here (.binary here .less (.name here "distance") (kilometres 3))
      (.block here
        [.var here "rest" (some (.name here "m")) none,
          .assign here "distance" (.binary here .plus (.name here "distance") (kilometres 1))])]

theorem journey_runsAsChecked :
    Context.empty.Checkable ∧ Agree Context.empty.getType? Context.empty.getValue? ∧
      (Stmt.checkAll journey none .empty).result = .ok none ∧
      RunsAsChecked journey .empty .empty none := by
  have agree : Agree Context.empty.getType? Context.empty.getValue? := by
    intro name type found
    cases found
  have accepted : (Stmt.checkAll journey none .empty).result = .ok none := rfl
  exact ⟨Context.empty_checkable, agree, accepted,
    runsAsChecked_of_accepted Context.empty_checkable agree accepted⟩

end Quantities
