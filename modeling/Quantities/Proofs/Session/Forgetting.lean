import Quantities.Proofs.Grounded.Session
import Quantities.Proofs.Session.Same

/-!
What it takes to forget a name. The values of a name lie on one another, the one that was declared
last on top, and to forget the name takes that one away. So the name is left without a value if it
was declared only once, and with an older value if it was declared again. Its type becomes a hole in
both cases, and no other name is touched.
-/

namespace Quantities

namespace Scope

theorem lookup_uncover_of_ne {bindings : List (String × Nat)} {name other : String}
    (differ : other ≠ name) : (uncover name bindings).lookup other = bindings.lookup other := by
  induction bindings with
  | nil => rfl
  | cons first rest ih =>
      obtain ⟨own, cell⟩ := first
      rw [uncover, List.eraseP_cons, lookup_cons]
      cases same : own == name with
      | true =>
          rw [if_neg (beq_iff_eq.mp same ▸ differ)]
          rfl
      | false =>
          rw [cond_false, lookup_cons]
          exact congrArg (fun found => if other = own then some cell else found) ih

theorem names_uncover (name : String) (bindings : List (String × Nat)) :
    (uncover name bindings).map (·.1) = (bindings.map (·.1)).erase name := by
  rw [uncover, List.erase_eq_eraseP', List.eraseP_map]
  rfl

end Scope

namespace Context

variable {context : Context}

/-- How many values of a name lie on one another. -/
def depth (context : Context) (name : String) : Nat := (context.scope.values.map (·.1)).count name

theorem Bounded.getValue?_eq_none_iff (bounded : context.Bounded) (name : String) :
    context.getValue? name = none ↔ context.depth name = 0 := by
  rw [depth, List.count_eq_zero]
  constructor
  · intro unbound member
    obtain ⟨binding, bindingMember, rfl⟩ := List.mem_map.mp member
    cases found : context.scope.values.lookup binding.1 with
    | none =>
        have absent := List.lookup_eq_none_iff.mp found binding bindingMember
        simp at absent
    | some cell =>
        have bound := bounded.values _ (Scope.mem_of_lookup found)
        simp [getValue?, found, bound] at unbound
  · intro absent
    cases found : context.getValue? name with
    | none => rfl
    | some v => exact absurd (mem_values_of_getValue? found) absent

/-- The context in which the value of a name is forgotten. -/
def forget (context : Context) (name : String) (type : Value) : Context :=
  ((context.deleteValue name).deleteType name).addType name (.hole name type.abstractType)

theorem WellFormed.forget (wellFormed : context.WellFormed) (name : String) (type : Value) :
    (context.forget name type).WellFormed :=
  ((wellFormed.deleteValue name).deleteType name).addType name _

theorem depth_forget (context : Context) (name other : String) (type : Value) :
    (context.forget name type).depth other =
      if other = name then context.depth other - 1 else context.depth other := by
  have names : (context.forget name type).scope.values.map (·.1) =
      (context.scope.values.map (·.1)).erase name := Scope.names_uncover name context.scope.values
  rw [depth, names, depth]
  split
  next same =>
    rw [same]
    exact List.count_erase_self
  next differ => exact List.count_erase_of_ne differ

theorem WellFormed.getType?_forget (wellFormed : context.WellFormed) (name other : String)
    (type : Value) :
    (context.forget name type).getType? other =
      if other = name then some (.hole name type.abstractType) else context.getType? other := by
  have deleted := ((wellFormed.deleteValue name).deleteType name).bounded
  rw [Context.forget, deleted.getType?_addType]
  split
  next => rfl
  next differ =>
    exact congrArg (fun found => found.bind fun cell => context.cells[cell]?)
      (Scope.lookup_uncover_of_ne differ)

theorem WellFormed.getValue?_forget_of_ne (wellFormed : context.WellFormed) {name other : String}
    (differ : other ≠ name) (type : Value) :
    (context.forget name type).getValue? other = context.getValue? other := by
  have deleted := ((wellFormed.deleteValue name).deleteType name).bounded
  rw [Context.forget, deleted.getValue?_addType]
  exact congrArg (fun found => found.bind fun cell => context.cells[cell]?)
    (Scope.lookup_uncover_of_ne differ)

end Context

namespace Stmt

theorem runAll_depth {body : List Stmt} {rounds : Nat} {before after : Context}
    {last v : Option Value} (ran : runAll rounds body last before = some ⟨.ok v, after⟩)
    (name : String) :
    after.depth name = before.depth name + (body.filterMap declaredName?).count name := by
  induction body generalizing before last with
  | nil =>
      cases ran
      rfl
  | cons first rest ih =>
      rw [runAll] at ran
      rcases Evaluation.andThen_eq_some ran with
        ⟨result, between, firstRan, restRan⟩ | ⟨fault, between, -, failed⟩
      · have names := run_names first firstRan
        rw [ih restRan, Context.depth, names, List.count_append, Context.depth]
        cases own : first.declaredName? with
        | none => simp [own]
        | some declared =>
            rw [List.filterMap_cons_some own, List.count_cons, Option.toList_some,
              List.count_singleton]
            omega
      · cases failed

end Stmt

namespace Session

variable {session next : Session} {name : String} {count : Nat}

theorem forget?_eq_some :
    session.forget? name = some next ↔ ∃ type, session.context.getType? name = some type ∧
      next = session.update (·.forget name type) := by
  rw [forget?, Option.bind_eq_bind, Option.bind_eq_some_iff]
  exact exists_congr fun type => and_congr_right fun _ => by
    rw [Option.pure_def, Option.some.injEq, eq_comm]
    rfl

/-- A session that comes about, and how often a name has been declared in it and not been forgotten
again. The units at the start count as declared, and a reset returns to them. -/
inductive Declared (name : String) : Session → Nat → Prop where
  | start {session : Session} (starts : session.Starts) :
      Declared name session (session.labels.count name)
  | run {session next : Session} {count rounds : Nat} {source : String} {program : List Stmt}
      {result : Option Value} (earlier : Declared name session count)
      (read : Program.ofSource source = .ok program)
      (ran : session.run rounds source = some (.ok result, next)) :
      Declared name next (count + (program.filterMap Stmt.declaredName?).count name)
  | failed {session next : Session} {count rounds : Nat} {source : String} {failure : Failure}
      (earlier : Declared name session count)
      (ran : session.run rounds source = some (.error failure, next)) : Declared name next count
  | forget {session next : Session} {count : Nat} (earlier : Declared name session count)
      (forgot : session.forget? name = some next) : Declared name next (count - 1)
  | forgetOther {session next : Session} {count : Nat} {other : String}
      (earlier : Declared name session count) (differ : name ≠ other)
      (forgot : session.forget? other = some next) : Declared name next count
  | reset {session : Session} {count : Nat} (earlier : Declared name session count) :
      Declared name session.reset ((ofContext session.initial).labels.count name)

theorem initial_scope_update (session : Session) (change : Context → Context) :
    (session.update change).initial.scope = session.initial.scope := by
  obtain ⟨initial, bindings⟩ := session
  cases bindings <;> rfl

/-- The units at the start have their values under the names of their types. -/
theorem Reachable.depth_initial (reached : session.Reachable) (name : String) :
    session.initial.depth name = (ofContext session.initial).labels.count name := by
  suffices names : session.initial.scope.values.map (·.1) = session.initial.scope.types.map (·.1) from
    congrArg (List.count name) names
  induction reached with
  | empty | prelude => rfl
  | @run session next rounds source outcome reached ran ih =>
      cases outcome with
      | error failure => rwa [eq_of_run_error ran]
      | ok result =>
          obtain ⟨program, -, after, -, rfl⟩ := run_eq_ok.mp ran
          exact ih
  | forget reached forgot ih =>
      obtain ⟨type, -, rfl⟩ := forget?_eq_some.mp forgot
      rwa [initial_scope_update]
  | reset reached ih => exact ih

theorem Reachable.exists_declared (reached : session.Reachable) (name : String) :
    ∃ count, Declared name session count := by
  induction reached with
  | empty => exact ⟨_, .start (.inl rfl)⟩
  | prelude => exact ⟨_, .start (.inr rfl)⟩
  | @run session next rounds source outcome reached ran ih =>
      obtain ⟨count, declared⟩ := ih
      cases outcome with
      | error failure => exact ⟨count, .failed declared ran⟩
      | ok result =>
          obtain ⟨program, read, -⟩ := run_eq_ok.mp ran
          exact ⟨_, .run declared read ran⟩
  | @forget session next other reached forgot ih =>
      obtain ⟨count, declared⟩ := ih
      by_cases same : name = other
      · subst same
        exact ⟨_, .forget declared forgot⟩
      · exact ⟨_, .forgetOther declared same forgot⟩
  | reset reached ih =>
      obtain ⟨count, declared⟩ := ih
      exact ⟨_, .reset declared⟩

namespace Declared

theorem reachable (declared : Declared name session count) : session.Reachable := by
  induction declared with
  | start starts => rcases starts with rfl | rfl <;> constructor
  | run earlier read ran ih => exact .run ih ran
  | failed earlier ran ih => exact .run ih ran
  | forget earlier forgot ih => exact .forget ih forgot
  | forgetOther earlier differ forgot ih => exact .forget ih forgot
  | reset earlier ih => exact .reset ih

/-- Each declaration lays a value on the older ones, and to forget the name takes one away. -/
theorem depth_eq (declared : Declared name session count) : session.context.depth name = count := by
  induction declared with
  | start starts =>
      have earlier : Declared name _ _ := .start starts
      have reached := earlier.reachable
      rcases starts with rfl | rfl <;> exact reached.depth_initial name
  | @run session next count rounds source program result earlier read ran ih =>
      obtain ⟨again, sameRead, after, runs, rfl⟩ := run_eq_ok.mp ran
      obtain rfl := Except.ok.inj (read.symm.trans sameRead)
      -- The check binds types only, and so the run begins at the depth that was there before.
      have checked : (session.context.checked program).depth name = session.context.depth name := by
        have stack := earlier.reachable.wellFormed.now.valueStack_checked program
        have names := congrArg (List.map Prod.fst) stack
        simp only [Context.valueStack, Stack.read, List.map_map] at names
        exact congrArg (List.count name) names
      rw [← ih, ← checked]
      exact Stmt.runAll_depth runs.ran name
  | failed earlier ran ih => rwa [eq_of_run_error ran]
  | @forget session next count earlier forgot ih =>
      obtain ⟨type, -, rfl⟩ := forget?_eq_some.mp forgot
      rw [context_update, Context.depth_forget, if_pos rfl, ih]
  | @forgetOther session next count other earlier differ forgot ih =>
      obtain ⟨type, -, rfl⟩ := forget?_eq_some.mp forgot
      rw [context_update, Context.depth_forget, if_neg differ, ih]
  | reset earlier ih => exact earlier.reachable.depth_initial name

end Declared

theorem run_unset {type : Value} {location place : Location} {source : String}
    (typed : session.context.getType? name = some type)
    (unset : session.context.getValue? name = none)
    (read : Program.ofSource source = .ok [.expr place (.name location name)]) (rounds : Nat) :
    session.run rounds source =
      some (.error (.running ⟨location, .nameNotDefined name⟩), session) := by
  have inferred : (Expr.name location name).infer session.context.getType? = .ok type.unwrap := by
    rw [Expr.infer, typed]
  have failed : (Expr.name location name).eval session.context.getValue? =
      refuse location (.nameNotDefined name) := by
    rw [Expr.eval, unset]
  simp [run, read, runProgram, Stmt.checkAll, Stmt.check, Stmt.runAll, Stmt.run, Step.yield,
    Step.andThen, Evaluation.andThen, inferred, failed, refuse, Except.map]

/-- To forget a name leaves it without a value exactly if it was declared no more than once. Then
its name is not defined when it is run. Its type is open in any case, and the other names keep what
they had. -/
theorem forget_iff_declared_once (declared : Declared name session count)
    (forgot : session.forget? name = some next) :
    (next.context.getValue? name = none ↔ count ≤ 1) ∧
    (count ≤ 1 → ∀ (rounds : Nat) (source : String) (location place : Location),
      Program.ofSource source = .ok [.expr place (.name location name)] →
        next.run rounds source =
          some (.error (.running ⟨location, .nameNotDefined name⟩), next)) ∧
    (∃ type, session.context.getType? name = some type ∧
      next.context.getType? name = some (.hole name type.abstractType)) ∧
    ∀ other ≠ name, next.context.getType? other = session.context.getType? other ∧
      next.context.getValue? other = session.context.getValue? other := by
  have wellFormed := declared.reachable.wellFormed.now
  obtain ⟨type, typed, rfl⟩ := forget?_eq_some.mp forgot
  have bounded := (wellFormed.forget name type).bounded
  have left : (session.context.forget name type).getValue? name = none ↔ count ≤ 1 := by
    rw [bounded.getValue?_eq_none_iff, Context.depth_forget, if_pos rfl, declared.depth_eq]
    omega
  have hole : (session.context.forget name type).getType? name =
      some (.hole name type.abstractType) := by
    rw [wellFormed.getType?_forget, if_pos rfl]
  simp only [context_update]
  refine ⟨left, ?_, ⟨type, typed, hole⟩, ?_⟩
  · intro once rounds source location place read
    let change (context : Context) : Context := context.forget name type
    have context : (session.update change).context = change session.context :=
      context_update session change
    have typed : (session.update change).context.getType? name =
        some (.hole name type.abstractType) := by rwa [context]
    have unset : (session.update change).context.getValue? name = none := by
      rw [context]
      exact left.mpr once
    exact run_unset typed unset read rounds
  · intro other differ
    refine ⟨?_, wellFormed.getValue?_forget_of_ne differ type⟩
    rw [wellFormed.getType?_forget, if_neg differ]

/-- A mile is declared once and forgotten. -/
theorem mile_forgotten : Declared "mile" withMiles 1 ∧ ∃ next, withMiles.forget? "mile" = some next ∧
    (next.context.getValue? "mile" = none ↔ 1 ≤ 1) ∧
    (1 ≤ 1 → ∀ (rounds : Nat) (source : String) (location place : Location),
      Program.ofSource source = .ok [.expr place (.name location "mile")] →
        next.run rounds source =
          some (.error (.running ⟨location, .nameNotDefined "mile"⟩), next)) ∧
    (∃ type, withMiles.context.getType? "mile" = some type ∧
      next.context.getType? "mile" = some (.hole "mile" type.abstractType)) ∧
    ∀ other ≠ "mile", next.context.getType? other = withMiles.context.getType? other ∧
      next.context.getValue? other = withMiles.context.getValue? other := by
  obtain ⟨⟨location, read⟩, -⟩ := milesAndLaps_read
  have declared : Declared "mile" withMiles 1 :=
    .run (.start (.inr rfl)) read prelude_run_unit_mile
  exact ⟨declared, _, rfl, forget_iff_declared_once declared rfl⟩

/-- A name that was declared twice has its first value again, which is not even of its type. -/
theorem redeclared_not_forgotten : ∃ session next,
    empty.run 0 "let x = 1; let x = true;" = some (.ok (some (.boolean true)), session) ∧
    session.forget? "x" = some next ∧
    next.context.getType? "x" = some (.hole "x" .booleanType) ∧
    next.context.getValue? "x" = some (.ofNumber 1) := by
  let atom (a : Atom) : Phrase := .tighter (.tighter (.tighter (.tighter (.tighter (.tighter
    (.signed (.ascribed (.plain (.primary (.atom a fun unit => absurd unit Bool.false_ne_true))))))))))
  have kinds : (ProgramDerivation.whole
      (.cons (.constant "x" (atom (.number 1))) (.cons (.constant "x" (atom (.truth true))) .nil))).yield =
      (Tokens.ofSource "let x = 1; let x = true;").kinds := by decide +kernel
  obtain ⟨program, read, trees⟩ := Program.ofTokens_of_yield kinds
  obtain ⟨first, rest, rfl, firstTree, trees⟩ := List.map_eq_cons_iff.mp trees
  obtain ⟨second, rfl, secondTree⟩ := List.map_eq_singleton_iff.mp trees
  have constant {stmt : Stmt} (rhs : Expr) (same : stmt.bare = (Stmt.constant .nowhere "x" rhs).bare) :
      ∃ location e, stmt = .constant location "x" e ∧ e.bare = rhs.bare := by
    cases Stmt.twins_of_bare same with
    | constant sides => exact ⟨_, _, rfl, sides⟩
  obtain ⟨location, one, rfl, oneBare⟩ := constant (.number .nowhere 1) firstTree
  obtain ⟨place, yes, rfl, yesBare⟩ := constant (.bool .nowhere true) secondTree
  cases one with
  | number oneLocation x =>
      cases oneBare
      cases yes with
      | bool yesLocation truth =>
          cases yesBare
          exact ⟨_, _, run_eq_ok.mpr ⟨_, read, _, ⟨⟨_, rfl⟩, rfl⟩, rfl⟩, rfl, rfl, rfl⟩
      | _ => cases yesBare
  | _ => cases oneBare

end Session

end Quantities
