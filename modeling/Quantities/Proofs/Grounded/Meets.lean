import Quantities.Proofs.Grounded.Law
import Quantities.Proofs.Session.Reachable
import Quantities.Proofs.Soundness.Backed

/-!
One input of a session. All contexts, types and values that come up while it is checked and run are
grounded in a law, if the exponents in it are small whole numbers and its units follow the law.
-/

namespace Quantities

namespace Context

variable {law : Law} {checker evaluator : Context}

theorem mem_values_of_getValue? {name : String} {v : Value}
    (found : evaluator.getValue? name = some v) : name ∈ evaluator.scope.values.map (·.1) := by
  obtain ⟨cell, bound, -⟩ := Option.bind_eq_some_iff.mp found
  exact List.mem_map_of_mem (Scope.mem_of_lookup bound)

theorem Bounded.exists_getType? (bounded : checker.Bounded) {name : String}
    (member : name ∈ checker.scope.types.map (·.1)) : ∃ type, checker.getType? name = some type := by
  cases found : checker.scope.types.lookup name with
  | none =>
      obtain ⟨binding, bindingMember, rfl⟩ := List.mem_map.mp member
      have absent := List.lookup_eq_none_iff.mp found binding bindingMember
      simp at absent
  | some cell =>
      have bound := bounded.types _ (Scope.mem_of_lookup found)
      exact ⟨checker.cells[cell], by simp [getType?, found, bound]⟩

/-- The values of names are of the kinds of their types, and so they are grounded too. -/
theorem Grounded.value (grounded : checker.Grounded law)
    (agree : Agree checker.getType? evaluator.getValue?) (backed : Backed checker evaluator)
    {name : String} {v : Value} (found : evaluator.getValue? name = some v) :
    v.kind.Grounded law := by
  obtain ⟨type, bound⟩ :=
    grounded.checkable.bounded.exists_getType? (backed (mem_values_of_getValue? found))
  obtain ⟨other, otherFound, hasKind⟩ := agree name type bound
  obtain rfl := Option.some.inj (found.symm.trans otherFound)
  rw [hasKind.kind_eq]
  exact grounded.names name type bound

theorem Grounded.of_types {after : Context} (grounded : checker.Grounded law)
    (bounded : after.Bounded) (types : after.getType? = checker.getType?) : after.Grounded law := by
  refine ⟨⟨bounded, ?_⟩, ?_⟩
  · rw [types]
    exact grounded.checkable.zeroFree
  · rw [types]
    exact grounded.names

/-- A context between inputs: the names with values have types, with which the values agree, and the
types are grounded. -/
structure Settled (law : Law) (context : Context) : Prop where
  wellFormed : context.WellFormed
  grounded : context.Grounded law
  agree : Agree context.getType? context.getValue?
  backed : Backed context context

end Context

namespace Stmt

theorem infer_of_accepted {stmt : Stmt} {context : Context} (accepted : stmt.Accepted context)
    {e : Expr} (member : e ∈ stmt.expressions) : ∃ type, e.infer context.getType? = .ok type := by
  obtain ⟨type, accepted⟩ := accepted
  have bound {result : Except Fault Value} {add : Value → Context}
      (accepted : (Step.bind context result add).result = .ok type) :
      ∃ given, result = .ok given := by
    cases result with
    | error fault => cases accepted
    | ok given => exact ⟨given, rfl⟩
  have condition {e : Expr} (accepted : Typing.condition context.getType? e = .ok ()) :
      ∃ type, e.infer context.getType? = .ok type := by
    obtain ⟨type, inferred, -⟩ := Result.bind_eq_ok.mp accepted
    exact ⟨type, inferred⟩
  cases stmt with
  | empty location | block location body => cases member
  | branch location test yes no =>
      obtain rfl := List.mem_singleton.mp member
      exact condition (check_branch_eq_ok.mp accepted).2.1
  | loop location test body =>
      obtain rfl := List.mem_singleton.mp member
      exact condition (check_loop_eq_ok.mp accepted).2.1
  | var location name declared initial =>
      obtain ⟨given, accepted⟩ := bound accepted
      cases Typing.variableType_eq_ok accepted with
      | both constructed declares inferred subtype =>
          rcases List.mem_append.mp member with first | second
          · obtain rfl := List.mem_singleton.mp first
            exact ⟨_, constructed⟩
          · obtain rfl := List.mem_singleton.mp second
            exact ⟨_, inferred⟩
      | declared constructed declares =>
          obtain rfl := List.mem_singleton.mp member
          exact ⟨_, constructed⟩
      | initial inferred =>
          obtain rfl := List.mem_singleton.mp member
          exact ⟨_, inferred⟩
  | unit location name definition =>
      obtain ⟨given, accepted⟩ := bound accepted
      cases definition with
      | none => cases member
      | some definition =>
          obtain rfl := List.mem_singleton.mp member
          obtain ⟨type, inferred, -⟩ := Result.bind_eq_ok.mp accepted
          exact ⟨type, inferred⟩
  | assign location name rhs =>
      obtain rfl := List.mem_singleton.mp member
      obtain ⟨given, assigned, -⟩ := Result.map_eq_ok.mp accepted
      obtain ⟨declared, -, inferred, -⟩ := assignmentType_eq_ok assigned
      exact ⟨given, inferred⟩
  | constant location name rhs =>
      obtain rfl := List.mem_singleton.mp member
      exact bound accepted
  | expr location rhs =>
      obtain rfl := List.mem_singleton.mp member
      obtain ⟨given, inferred, -⟩ := Result.map_eq_ok.mp accepted
      exact ⟨given, inferred⟩

end Stmt

theorem Expr.parts_trans {e middle part : Expr} (inside : middle ∈ e.parts)
    (deeper : part ∈ middle.parts) : part ∈ e.parts := by
  induction e with
  | number | bool | typeWord | name =>
      obtain rfl := List.mem_singleton.mp inside
      exact deeper
  | paren location inner ih | sign location op inner ih | power location inner exponent ih =>
      rcases List.mem_cons.mp inside with rfl | within
      · exact deeper
      · exact List.mem_cons_of_mem _ (ih within)
  | binary location op left right leftIh rightIh | logical location op left right leftIh rightIh
  | ascription location left right leftIh rightIh
  | conversion location left right leftIh rightIh =>
      rcases List.mem_cons.mp inside with rfl | within
      · exact deeper
      · refine List.mem_cons_of_mem _ ?_
        rcases List.mem_append.mp within with inLeft | inRight
        · exact List.mem_append_left _ (leftIh inLeft)
        · exact List.mem_append_right _ (rightIh inRight)

namespace Session

/-- The input is read as this program, and the check accepts it. -/
structure Accepts (session : Session) (input : String) (program : List Stmt) : Prop where
  read : Program.ofSource input = .ok program
  accepted : ∃ type, (Stmt.checkAll program none session.context).result = .ok type

/-- The contexts that come up when an input is given to a session: where it is checked, where it runs,
and where a statement of it ends. -/
inductive Meets (session : Session) (input : String) : Context → Prop where
  | start : Meets session input session.context
  | checks {program : List Stmt} {point : Stmt × Context} (accepts : session.Accepts input program)
      (member : point ∈ Stmt.pointsAll program session.context) : Meets session input point.2
  | runs {program : List Stmt} {found : Stmt} {inner outer : Context}
      (accepts : session.Accepts input program)
      (visits : Visits program session.context (session.context.checked program) found inner outer) :
      Meets session input outer
  | ends {program : List Stmt} {found : Stmt} {inner outer after : Context} {rounds : Nat}
      {v : Option Value} (accepts : session.Accepts input program)
      (visits : Visits program session.context (session.context.checked program) found inner outer)
      (ran : found.run rounds outer = some ⟨.ok v, after⟩) : Meets session input after

/-- The types and values that come up: those that are bound in these contexts, and those of
expressions and of their parts. -/
inductive Yields (session : Session) (input : String) : Value → Prop where
  | type {context : Context} {name : String} {type : Value} (meets : session.Meets input context)
      (bound : context.getType? name = some type) : Yields session input type
  | value {context : Context} {name : String} {v : Value} (meets : session.Meets input context)
      (bound : context.getValue? name = some v) : Yields session input v
  | inferred {program : List Stmt} {point : Stmt × Context} {e part : Expr} {type : Value}
      (accepts : session.Accepts input program)
      (member : point ∈ Stmt.pointsAll program session.context)
      (expression : e ∈ point.1.expressions) (inside : part ∈ e.parts)
      (inferred : part.infer point.2.getType? = .ok type) : Yields session input type
  | evaluated {program : List Stmt} {found : Stmt} {inner outer : Context} {e part : Expr} {v : Value}
      (accepts : session.Accepts input program)
      (visits : Visits program session.context (session.context.checked program) found inner outer)
      (expression : e ∈ found.expressions) (inside : part ∈ e.parts)
      (evaluated : part.eval outer.getValue? = .ok v) : Yields session input v

/-- All exponents that the check of an input comes upon are small whole numbers. -/
def WholeExponents (session : Session) (input : String) : Prop :=
  ∀ program, session.Accepts input program →
    ∀ point ∈ Stmt.pointsAll program session.context,
      ∀ e ∈ point.1.expressions, e.WholeExponents point.2.getType?

/-- The units that are declared in an input stand for their base dimensions. -/
def Lawful (law : Law) (session : Session) (input : String) : Prop :=
  ∀ program, session.Accepts input program →
    ∀ entry ∈ Stmt.units program session.context, law entry.1 = entry.2.vector

section

variable {law : Law} {session : Session} {input : String} {program : List Stmt}

theorem fits (whole : session.WholeExponents input) (lawful : session.Lawful law input)
    (accepts : session.Accepts input program) :
    ∀ point ∈ Stmt.pointsAll program session.context, Stmt.Fits law point := by
  intro point member
  refine ⟨whole program accepts point member, ?_⟩
  intro label base found
  exact lawful program accepts (label, base) (List.mem_filterMap.mpr ⟨point, member, found⟩)

theorem points_grounded (settled : session.context.Settled law)
    (whole : session.WholeExponents input) (lawful : session.Lawful law input)
    (accepts : session.Accepts input program) :
    (∀ point ∈ Stmt.pointsAll program session.context,
      point.1.Accepted point.2 ∧ point.2.Grounded law) ∧
      (session.context.checked program).Grounded law := by
  obtain ⟨type, accepted⟩ := accepts.accepted
  refine Stmt.pointsAll_keep program (Context.Grounded law) ?_ settled.grounded accepted
  intro point member _ grounded
  exact point.1.check_grounded grounded (fits whole lawful accepts point member)

theorem getValue?_of_point (wellFormed : session.context.WellFormed)
    (accepts : session.Accepts input program) {point : Stmt × Context}
    (member : point ∈ Stmt.pointsAll program session.context) :
    point.2.getValue? = session.context.getValue? := by
  obtain ⟨type, accepted⟩ := accepts.accepted
  have kept := Stmt.pointsAll_keep program
    (fun context => context.WellFormed ∧ context.valueStack = session.context.valueStack)
    (fun point _ _ holds => ⟨Stmt.check_wellFormed holds.1 point.1,
      (Stmt.check_valueStack holds.1 point.1).trans holds.2⟩) ⟨wellFormed, rfl⟩ accepted
  exact Context.getValue?_of_stack (kept.1 point member).2.2

theorem begins (settled : session.context.Settled law) (program : List Stmt) :
    Agree session.context.getType? (session.context.checked program).getValue? ∧
      Backed session.context (session.context.checked program) := by
  have kept := settled.wellFormed.valueStack_checked program
  constructor
  · rw [Context.getValue?_of_stack kept]
    exact settled.agree
  · have names (context : Context) :
        context.valueStack.map (·.1) = context.scope.values.map (·.1) := by
      simp [Context.valueStack, Stack.read]
    rw [Backed, ← names, kept, names]
    exact settled.backed

/-- What is known where a run comes to a statement. -/
structure Reached (law : Law) (found : Stmt) (inner outer : Context) : Prop where
  accepted : found.Accepted inner
  fits : Stmt.Fits law (found, inner)
  innerTypes : inner.Grounded law
  outerTypes : outer.Grounded law
  agree : Agree inner.getType? outer.getValue?
  backed : Backed inner outer
  wellFormed : outer.WellFormed

theorem reached (settled : session.context.Settled law) (whole : session.WholeExponents input)
    (lawful : session.Lawful law input) (accepts : session.Accepts input program)
    {found : Stmt} {inner outer : Context}
    (visits : Visits program session.context (session.context.checked program) found inner outer) :
    Reached law found inner outer := by
  obtain ⟨points, checked⟩ := points_grounded settled whole lawful accepts
  obtain ⟨type, accepted⟩ := accepts.accepted
  obtain ⟨agree, backed⟩ := begins settled program
  obtain ⟨foundAccepted, innerGrounded⟩ := points _ visits.mem_points
  have grows := visits.grows (settled.wellFormed.checked program)
  exact ⟨foundAccepted, fits whole lawful accepts _ visits.mem_points, innerGrounded,
    checked.of_types grows.wellFormed.bounded (Context.getType?_of_stack grows.typeStack),
    (visits.agree settled.grounded.checkable agree accepted).2.1, visits.backed backed accepted,
    grows.wellFormed⟩

theorem Yields.grounded {v : Value} (yields : session.Yields input v)
    (settled : session.context.Settled law) (whole : session.WholeExponents input)
    (lawful : session.Lawful law input) : v.kind.Grounded law := by
  cases yields with
  | @type context name type meets bound =>
      cases meets with
      | start => exact settled.grounded.names _ _ bound
      | checks accepts member =>
          exact ((points_grounded settled whole lawful accepts).1 _ member).2.names _ _ bound
      | runs accepts visits =>
          exact (reached settled whole lawful accepts visits).outerTypes.names _ _ bound
      | ends accepts visits ran =>
          have here := reached settled whole lawful accepts visits
          have grows := Stmt.run_grows _ here.wellFormed ran
          have types := Context.getType?_of_stack grows.typeStack
          exact here.outerTypes.names _ _ (types ▸ bound)
  | @value context name v meets bound =>
      cases meets with
      | start => exact settled.grounded.value settled.agree settled.backed bound
      | checks accepts member =>
          rw [getValue?_of_point settled.wellFormed accepts member] at bound
          exact settled.grounded.value settled.agree settled.backed bound
      | runs accepts visits =>
          have here := reached settled whole lawful accepts visits
          exact here.innerTypes.value here.agree here.backed bound
      | @ends program found inner outer after rounds last accepts visits ran =>
          have here := reached settled whole lawful accepts visits
          obtain ⟨type, accepted⟩ := here.accepted
          have ends := Stmt.run_asChecked found here.innerTypes.checkable here.agree accepted ran
          have after := found.check_grounded here.innerTypes here.fits
          exact after.value ends.agree (Stmt.run_backed found here.backed here.accepted ran) bound
  | @inferred program point e part type accepts member expression inside inferred =>
      have grounded := ((points_grounded settled whole lawful accepts).1 _ member).2
      have parts := whole program accepts point member e expression
      exact Expr.infer_grounded grounded.names
        (parts.of_parts fun _ deeper => Expr.parts_trans inside deeper) inferred
  | @evaluated program found inner outer e part v accepts visits expression inside evaluated =>
      have here := reached settled whole lawful accepts visits
      obtain ⟨type, inferred⟩ := Stmt.infer_of_accepted here.accepted expression
      obtain ⟨partType, partInferred⟩ := Expr.infer_of_part inferred inside
      have parts := whole program accepts _ visits.mem_points e expression
      have grounded := Expr.infer_grounded here.innerTypes.names
        (parts.of_parts fun _ deeper => Expr.parts_trans inside deeper) partInferred
      rcases Expr.comes_of_infer here.agree partInferred with ⟨other, found, hasKind⟩ | ⟨_, failed, _⟩
      · rw [found] at evaluated
        cases evaluated
        rwa [hasKind.kind_eq]
      · rw [failed] at evaluated
        cases evaluated

/-- After an input that succeeds the session has a context that is settled again. -/
theorem settled_after (settled : session.context.Settled law) (whole : session.WholeExponents input)
    (lawful : session.Lawful law input) {rounds : Nat} {outcome : Outcome} {next : Session}
    (ran : session.run rounds input = some (outcome, next)) : next.context.Settled law := by
  cases outcome with
  | error failure =>
      rw [eq_of_run_error ran]
      exact settled
  | ok result =>
      obtain ⟨program, read, after, runs, rfl⟩ := run_eq_ok.mp ran
      have accepts : session.Accepts input program := ⟨read, runs.accepted⟩
      obtain ⟨-, checked⟩ := points_grounded settled whole lawful accepts
      obtain ⟨type, accepted⟩ := accepts.accepted
      obtain ⟨agree, backed⟩ := begins settled program
      have grows := runs.grows settled.wellFormed
      have types := Context.getType?_of_stack grows.typeStack
      have ends := Stmt.runAll_asChecked program settled.grounded.checkable agree accepted runs.ran
        .nothing
      have names := Stmt.runAll_backed backed accepted runs.ran
      refine ⟨grows.wellFormed, checked.of_types grows.wellFormed.bounded types, ?_, ?_⟩
      · exact (congrArg (Agree · after.getValue?) types).mpr ends.agree
      · change Backed after after
        rw [Backed, grows.types]
        exact names

end

end Session

end Quantities
