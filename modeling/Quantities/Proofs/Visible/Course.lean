import Quantities.Proofs.Store.Arising
import Quantities.Proofs.Visible.Checking
import Quantities.Proofs.Visible.Running

/-!
Only what is visible matters. In contexts that show the same values, statements have the same
results, go the same rounds and leave contexts that again show the same values, and the same is true
of types and of the results of checking.
-/

namespace Quantities

/-- The loop begins a round, and then the loops inside it theirs, as often as it goes round. -/
def Evaluation.turns {α : Type} (location : Location) (condition : Context → Except Fault Bool)
    (body : Context → Option (Step α)) (inside : Context → List Location) :
    Nat → Context → List Location
  | rounds, context =>
    match condition context with
    | .ok true =>
      match rounds with
      | 0 => []
      | rounds + 1 =>
        location :: inside context ++
          match body context with
          | some ⟨.ok _, between⟩ => turns location condition body inside rounds between
          | _ => []
    | _ => []

namespace Stmt

mutual

/-- The loops that begin a round while a statement runs, one round after another. -/
def turns (rounds : Nat) : Stmt → Context → List Location
  | block _ body, context => turnsAll rounds body context
  | branch _ condition yes no, context =>
    match Evaluation.condition context.getValue? condition with
    | .error _ => []
    | .ok true => turns rounds yes context
    | .ok false =>
      match no with
      | none => []
      | some no => turns rounds no context
  | loop location condition body, context =>
    Evaluation.turns location (fun context => Evaluation.condition context.getValue? condition)
      (fun context => (run rounds body context).map (·.leave context.mark)) (turns rounds body) rounds
      context
  | empty .., _ | var .., _ | unit .., _ | assign .., _ | constant .., _ | expr .., _ => []

def turnsAll (rounds : Nat) : List Stmt → Context → List Location
  | [], _ => []
  | first :: rest, context =>
    turns rounds first context ++
      match run rounds first context with
      | some ⟨.ok _, between⟩ => turnsAll rounds rest between
      | _ => []

end

theorem turns_branch (rounds : Nat) (location : Location) (condition : Expr) (yes : Stmt)
    (no : Option Stmt) (context : Context) :
    turns rounds (branch location condition yes no) context =
      match Evaluation.condition context.getValue? condition with
      | .error _ => []
      | .ok true => turns rounds yes context
      | .ok false =>
        match no with
        | none => []
        | some no => turns rounds no context :=
  turns.eq_def rounds (branch location condition yes no) context

end Stmt

section

variable {height otherHeight : Nat} {a b : Context}

theorem Evaluation.turns_parallel {α : Type} (location : Location)
    {condition : Context → Except Fault Bool} {body : Context → Option (Step α)}
    {inside : Context → List Location}
    (conditions : ∀ {a b : Context}, a.Parallel height otherHeight b → condition a = condition b)
    (bodies : ∀ {a b : Context}, a.Parallel height otherHeight b →
      Option.Rel (Step.Parallel height otherHeight) (body a) (body b))
    (insides : ∀ {a b : Context}, a.Parallel height otherHeight b → inside a = inside b)
    (rounds : Nat) (parallel : a.Parallel height otherHeight b) :
    turns location condition body inside rounds a =
      turns location condition body inside rounds b := by
  induction rounds generalizing a b with
  | zero => rw [turns, turns, conditions parallel]
  | succ rounds ih =>
      rw [turns, turns, conditions parallel]
      split
      next =>
        obtain ⟨ran, otherRan⟩ | ⟨result, within, otherWithin, ran, otherRan, inner⟩ :=
          Step.parallel_cases (bodies parallel)
        · rw [insides parallel, ran, otherRan]
        · rw [insides parallel, ran, otherRan]
          cases result with
          | error fault => rfl
          | ok result =>
              simp only
              rw [ih inner]
      next => rfl

namespace Stmt

mutual

theorem turns_parallel (stmt : Stmt) (rounds : Nat) {a b : Context}
    (parallel : a.Parallel height otherHeight b) : stmt.turns rounds a = stmt.turns rounds b := by
  have values := parallel.getValue?
  cases stmt with
  | empty | var | unit | assign | constant | expr => rw [turns, turns]
  | block location body =>
      rw [turns, turns]
      exact turnsAll_parallel body rounds parallel
  | branch location condition yes no =>
      rw [turns_branch, turns_branch, values]
      split
      next => rfl
      next => exact turns_parallel yes rounds parallel
      next =>
        cases no with
        | none => rfl
        | some no => exact turns_parallel no rounds parallel
  | loop location condition body =>
      rw [turns, turns]
      refine Evaluation.turns_parallel location ?_ ?_ ?_ rounds parallel
      · intro a b parallel
        rw [parallel.getValue?]
      · intro a b parallel
        exact Step.leave_parallel parallel (run_parallel body rounds parallel)
          (fun step => run_grows body parallel.left) (fun step => run_grows body parallel.right)
      · exact fun parallel => turns_parallel body rounds parallel

theorem turnsAll_parallel (body : List Stmt) (rounds : Nat) {a b : Context}
    (parallel : a.Parallel height otherHeight b) :
    turnsAll rounds body a = turnsAll rounds body b := by
  cases body with
  | nil => rw [turnsAll, turnsAll]
  | cons first rest =>
      rw [turnsAll, turnsAll, turns_parallel first rounds parallel]
      obtain ⟨ran, otherRan⟩ | ⟨result, within, otherWithin, ran, otherRan, inner⟩ :=
        Step.parallel_cases (run_parallel first rounds parallel)
      · rw [ran, otherRan]
      · rw [ran, otherRan]
        cases result with
        | error fault => rfl
        | ok result =>
            simp only
            rw [turnsAll_parallel rest rounds inner]

end

end Stmt

end

/-- What comes of statements one after another, each of which starts from where the one before left
off, even if that one failed. -/
structure Course where
  results : List (Except Fault (Option Value))
  turns : List Location
  context : Context

namespace Course

/-- What comes of running. There is no answer when a loop takes more rounds than allowed. -/
def run? (rounds : Nat) : List Stmt → Context → Option Course
  | [], context => some ⟨[], [], context⟩
  | first :: rest, context => do
    let step ← first.run rounds context
    let course ← run? rounds rest step.context
    return ⟨step.result :: course.results, first.turns rounds context ++ course.turns, course.context⟩

/-- What comes of checking, in which nothing goes round. -/
def check : List Stmt → Context → Course
  | [], context => ⟨[], [], context⟩
  | first :: rest, context =>
    let course := check rest (first.check context).context
    ⟨(first.check context).result :: course.results, [], course.context⟩

/-- The same results after the same rounds, in contexts that show the same. -/
structure Same (shows : Context → String → Option Value) (course other : Course) : Prop where
  results : course.results = other.results
  turns : course.turns = other.turns
  shown : ∀ name, shows course.context name = shows other.context name

variable {a b : Context}

theorem run_same {height otherHeight : Nat} (rounds : Nat) (body : List Stmt)
    (parallel : a.Parallel height otherHeight b) :
    Option.Rel (Same Context.getValue?) (run? rounds body a) (run? rounds body b) := by
  induction body generalizing a b with
  | nil => exact .some ⟨rfl, rfl, congrFun parallel.getValue?⟩
  | cons first rest ih =>
      have turns := first.turns_parallel rounds parallel
      have ran := first.run_parallel rounds parallel
      rw [run?, run?, turns]
      generalize first.run rounds a = answer at ran
      generalize first.run rounds b = other at ran
      cases ran with
      | none => exact .none
      | @some step other both =>
          have later := ih both.context
          simp only [Option.bind_eq_bind, Option.bind_some]
          generalize run? rounds rest step.context = course at later
          generalize run? rounds rest other.context = otherCourse at later
          cases later with
          | none => exact .none
          | some same =>
              refine .some ⟨?_, ?_, same.shown⟩
              · rw [both.result, same.results]
              · rw [same.turns]

theorem check_same (body : List Stmt) (left : a.Bounded) (right : b.Bounded)
    (shown : a.getType? = b.getType?) : Same Context.getType? (check body a) (check body b) := by
  induction body generalizing a b with
  | nil => exact ⟨rfl, rfl, congrFun shown⟩
  | cons first rest ih =>
      have result := first.check_result left right shown
      have after : (first.check a).context.getType? = (first.check b).context.getType? := by
        rw [first.check_context, first.check_context, result]
        exact left.getType?_declare right shown _ _
      have later := ih (first.check_bounded left) (first.check_bounded right) after
      exact ⟨by rw [check, check, result, later.results], rfl, later.shown⟩

/-- In contexts that a user can come to, running depends on the values that show and on nothing else,
and checking on the types that show. -/
theorem same_of_shown (arises : a.Arises) (otherArises : b.Arises) :
    ((∀ name, a.getValue? name = b.getValue? name) → ∀ rounds body,
      Option.Rel (Same Context.getValue?) (run? rounds body a) (run? rounds body b)) ∧
    ((∀ name, a.getType? name = b.getType? name) → ∀ body,
      Same Context.getType? (check body a) (check body b)) := by
  have left := arises.wellFormed
  have right := otherArises.wellFormed
  constructor
  · intro shown rounds body
    exact run_same rounds body (left.parallel right (funext shown))
  · intro shown body
    exact check_same body left.bounded right.bounded (funext shown)

/-- A truth is assigned to until it holds, and then a name is missing. -/
def untilTrue : List Stmt :=
  [.loop .nowhere (.sign .nowhere .not (.name .nowhere "x"))
    (.block .nowhere [.assign .nowhere "x" (.bool .nowhere true)]),
    .expr .nowhere (.name .nowhere "y")]

/-- The switch with another truth hidden under it and with a name that has been deleted. -/
def coveredSwitch : Context :=
  ((((Context.empty.addValue "y" .booleanConstructor).deleteValue "y").addValue "x"
    (.boolean true)).addType "x" .booleanType).addValue "x" (.boolean false)

theorem coveredSwitch_arises : coveredSwitch.Arises :=
  ⟨[.create, .add .value 0 "y" .booleanConstructor, .delete .value 1 "y",
    .add .value 2 "x" (.boolean true), .add .type 3 "x" .booleanType,
    .add .value 4 "x" (.boolean false)], _, _, _, 0, rfl, rfl,
    ⟨5, _, rfl, rfl, rfl⟩, ⟨5, _, rfl, rfl, rfl⟩⟩

theorem coveredSwitch_shown (name : String) :
    Context.switch.getValue? name = coveredSwitch.getValue? name ∧
      Context.switch.getType? name = coveredSwitch.getType? name := by
  by_cases bound : name = "x"
  · subst bound
    exact ⟨rfl, rfl⟩
  · constructor <;>
      simp [Context.getValue?, Context.getType?, coveredSwitch, Context.switch, Context.addValue,
        Context.addType, Context.deleteValue, Context.empty, Scope.empty, Scope.uncover,
        Scope.lookup_cons, bound]

theorem untilTrue_same :
    (run? 1 untilTrue .switch).map (·.turns) = some [.nowhere] ∧
      Option.Rel (Same Context.getValue?) (run? 1 untilTrue .switch)
        (run? 1 untilTrue coveredSwitch) ∧
      Same Context.getType? (check untilTrue .switch) (check untilTrue coveredSwitch) := by
  obtain ⟨running, checking⟩ := same_of_shown Context.switch_arises coveredSwitch_arises
  exact ⟨rfl, running (fun name => (coveredSwitch_shown name).1) 1 untilTrue,
    checking (fun name => (coveredSwitch_shown name).2) untilTrue⟩

end Course

end Quantities
