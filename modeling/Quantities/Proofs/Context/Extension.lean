import Quantities.Proofs.Context.Bounded
import Quantities.Proofs.Context.Checking
import Quantities.Proofs.Context.Running

/-!
What statements leave of a context, however they end. New bindings have new cells and lie on the
bindings from before, and of the cells from before those alone change that are assigned to.
-/

namespace Quantities

namespace Scope

theorem lookup_append (newer older : List (String × Nat)) (name : String) :
    (newer ++ older).lookup name = (newer.lookup name).or (older.lookup name) := by
  induction newer with
  | nil => rfl
  | cons first rest ih =>
      obtain ⟨other, cell⟩ := first
      rw [List.cons_append, lookup_cons, lookup_cons, ih]
      split <;> rfl

end Scope

namespace Context

/-- The bindings from before lie under new ones, each with a new cell of its own. Of the cells from
before none has changed that was not written. -/
structure Extends (before after : Context) (newTypes newValues : List (String × Nat))
    (written : Nat → Prop) : Prop where
  types : after.scope.types = newTypes ++ before.scope.types
  values : after.scope.values = newValues ++ before.scope.values
  size : after.cells.size = before.cells.size + newTypes.length + newValues.length
  fresh : ∀ binding ∈ newTypes ++ newValues,
    before.cells.size ≤ binding.2 ∧ binding.2 < after.cells.size
  distinct : ((newTypes ++ newValues).map (·.2)).Nodup
  kept : ∀ cell < before.cells.size, ¬ written cell → after.cells[cell]? = before.cells[cell]?

namespace Extends

variable {before middle after : Context} {newTypes newValues : List (String × Nat)}
  {written : Nat → Prop}

theorem refl (context : Context) (written : Nat → Prop) :
    context.Extends context [] [] written :=
  ⟨rfl, rfl, rfl, nofun, .nil, fun _ _ _ => rfl⟩

theorem addType (context : Context) (name : String) (type : Value) (written : Nat → Prop) :
    context.Extends (context.addType name type) [(name, context.cells.size)] [] written := by
  refine ⟨rfl, rfl, by simp [Context.addType], ?_, by simp, ?_⟩
  · intro binding member
    obtain rfl := List.mem_singleton.mp member
    simp [Context.addType]
  · exact fun cell old _ => getElem?_push_of_lt old type

theorem addValue (context : Context) (name : String) (v : Value) (written : Nat → Prop) :
    context.Extends (context.addValue name v) [] [(name, context.cells.size)] written := by
  refine ⟨rfl, rfl, by simp [Context.addValue], ?_, by simp, ?_⟩
  · intro binding member
    obtain rfl := List.mem_singleton.mp member
    simp [Context.addValue]
  · exact fun cell old _ => getElem?_push_of_lt old v

theorem setValue? {name : String} {v : Value}
    (set : before.setValue? name v = some after)
    (hit : ∀ cell, before.scope.values.lookup name = some cell → written cell) :
    before.Extends after [] [] written := by
  obtain ⟨cell, found, rest⟩ := Option.bind_eq_some_iff.mp set
  cases rest
  refine ⟨rfl, rfl, by simp, nofun, .nil, ?_⟩
  intro other _ missed
  apply Array.getElem?_setIfInBounds_ne
  rintro rfl
  exact missed (hit cell found)

theorem mono (extension : before.Extends after newTypes newValues written) {more : Nat → Prop}
    (within : ∀ cell < before.cells.size, written cell → more cell) :
    before.Extends after newTypes newValues more :=
  { extension with
    kept := fun cell old missed => extension.kept cell old fun hit => missed (within cell old hit) }

theorem le_size (extension : before.Extends after newTypes newValues written) :
    before.cells.size ≤ after.cells.size := by
  rw [extension.size]
  omega

theorem trans {later : List (String × Nat)}
    (first : before.Extends middle [] newValues written)
    (second : middle.Extends after [] later written) :
    before.Extends after [] (later ++ newValues) written := by
  have grown := first.le_size
  refine ⟨second.types.trans first.types, ?_, ?_, ?_, ?_, ?_⟩
  · rw [second.values, first.values, List.append_assoc]
  · rw [second.size, first.size, List.length_append]
    simp only [List.length_nil]
    omega
  · intro binding member
    rw [List.nil_append] at member
    rcases List.mem_append.mp member with newer | older
    · obtain ⟨low, high⟩ := second.fresh binding newer
      exact ⟨Nat.le_trans grown low, high⟩
    · obtain ⟨low, high⟩ := first.fresh binding older
      exact ⟨low, Nat.lt_of_lt_of_le high second.le_size⟩
  · rw [List.nil_append, List.map_append]
    refine List.nodup_append.mpr ⟨second.distinct, first.distinct, ?_⟩
    intro cell newer other older same
    obtain ⟨binding, member, rfl⟩ := List.mem_map.mp newer
    obtain ⟨under, underMember, rfl⟩ := List.mem_map.mp older
    have low := (second.fresh binding member).1
    have high := (first.fresh under underMember).2
    omega
  · intro cell old missed
    rw [second.kept cell (Nat.lt_of_lt_of_le old grown) missed]
    exact first.kept cell old missed

/-- A nested scope takes its bindings and its cells along when it is left. -/
theorem leave (extension : before.Extends after newTypes newValues written) :
    before.Extends (after.leave before.mark) [] [] written := by
  have grown := extension.le_size
  refine ⟨rfl, rfl, ?_, nofun, .nil, ?_⟩
  · simp only [Context.leave, mark, Array.take_eq_extract, Array.size_extract, List.length_nil]
    omega
  · intro cell old missed
    rw [← extension.kept cell old missed]
    simp only [Context.leave, mark, Array.take_eq_extract]
    rw [Array.getElem?_extract, if_pos (by omega), Nat.zero_add]

theorem lookup_of_lt (extension : before.Extends after newTypes newValues written) {name : String}
    {cell : Nat} (found : after.scope.values.lookup name = some cell)
    (old : cell < before.cells.size) : before.scope.values.lookup name = some cell := by
  rw [extension.values, Scope.lookup_append] at found
  cases newer : newValues.lookup name with
  | none =>
      rw [newer] at found
      exact found
  | some other =>
      rw [newer] at found
      cases found
      have member := List.mem_append_right newTypes (Scope.mem_of_lookup newer)
      exact absurd old (Nat.not_lt.mpr (extension.fresh _ member).1)

end Extends

end Context

namespace Stmt

/-- An assignment that is executed while the statements run leads to the cell. -/
inductive Assigns : List Stmt → Context → Nat → Prop where
  | assign {location : Location} {name : String} {rhs : Expr} {rest : List Stmt} {context : Context}
      {v : Value} {cell : Nat}
      (evaluated : Evaluation.assignedValue context.getValue? location name rhs = .ok v)
      (found : context.scope.values.lookup name = some cell) :
      Assigns (assign location name rhs :: rest) context cell
  | block {location : Location} {body rest : List Stmt} {context : Context} {cell : Nat}
      (inner : Assigns body context cell) : Assigns (block location body :: rest) context cell
  | yes {location : Location} {condition : Expr} {yes : Stmt} {no : Option Stmt} {rest : List Stmt}
      {context : Context} {cell : Nat}
      (holds : Evaluation.condition context.getValue? condition = .ok true)
      (inner : Assigns [yes] context cell) :
      Assigns (branch location condition yes no :: rest) context cell
  | no {location : Location} {condition : Expr} {yes no : Stmt} {rest : List Stmt}
      {context : Context} {cell : Nat}
      (fails : Evaluation.condition context.getValue? condition = .ok false)
      (inner : Assigns [no] context cell) :
      Assigns (branch location condition yes (some no) :: rest) context cell
  | round {location : Location} {condition : Expr} {body : Stmt} {rest : List Stmt}
      {context : Context} {cell : Nat}
      (holds : Evaluation.condition context.getValue? condition = .ok true)
      (inner : Assigns [body] context cell) :
      Assigns (loop location condition body :: rest) context cell
  | nextRound {location : Location} {condition : Expr} {body : Stmt} {rest : List Stmt}
      {rounds : Nat} {v : Option Value} {context between : Context} {cell : Nat}
      (holds : Evaluation.condition context.getValue? condition = .ok true)
      (ran : body.run rounds context = some ⟨.ok v, between⟩)
      (inner : Assigns [loop location condition body] (between.leave context.mark) cell) :
      Assigns (loop location condition body :: rest) context cell
  | later {first : Stmt} {rest : List Stmt} {rounds : Nat} {v : Option Value}
      {context between : Context} {cell : Nat}
      (ran : first.run rounds context = some ⟨.ok v, between⟩) (inner : Assigns rest between cell) :
      Assigns (first :: rest) context cell

/-- The binding that a statement leaves behind: one to a new cell, if it is a declaration that
succeeds. -/
def bindings (stmt : Stmt) (before : Context) (result : Except Fault (Option Value)) :
    List (String × Nat) :=
  match stmt.declaredName?, result with
  | some name, .ok _ => [(name, before.cells.size)]
  | _, _ => []

end Stmt

section

variable {before after : Context} {written : Nat → Prop}

/-- A declaration that fails binds nothing, and one that succeeds has a binding to a new cell. -/
theorem Step.bind_bindings {stmt : Stmt} {name : String} (declares : stmt.declaredName? = some name)
    {add : Value → Context} (outcome : Context → List (String × Nat) → Prop)
    (fails : outcome before []) (binds : ∀ v, outcome (add v) [(name, before.cells.size)])
    (result : Except Fault Value) :
    outcome (bind before result add).context
      (stmt.bindings before (bind before result add).result) := by
  cases result with
  | error fault =>
      simp only [bind, Stmt.bindings, declares]
      exact fails
  | ok v =>
      simp only [bind, Stmt.bindings, declares]
      exact binds v

theorem Step.bind_extends {stmt : Stmt} {name : String} (declares : stmt.declaredName? = some name)
    (result : Except Fault Value) (written : Nat → Prop) :
    before.Extends (bind before result (before.addValue name)).context []
      (stmt.bindings before (bind before result (before.addValue name)).result) written :=
  bind_bindings declares (fun after newValues => before.Extends after [] newValues written)
    (.refl before written) (fun v => .addValue before name v written) result

theorem Step.bind_type_extends {stmt : Stmt} {name : String}
    (declares : stmt.declaredName? = some name) (result : Except Fault Value)
    (written : Nat → Prop) :
    before.Extends (bind before result (before.addType name)).context
      (stmt.bindings before (bind before result (before.addType name)).result) [] written :=
  bind_bindings declares (fun after newTypes => before.Extends after newTypes [] written)
    (.refl before written) (fun type => .addType before name type written) result

theorem Evaluation.assign_extends {location : Location} {name : String}
    {result : Except Fault Value}
    (hit : ∀ v cell, result = .ok v → before.scope.values.lookup name = some cell → written cell) :
    before.Extends (assign location name result before).context [] [] written := by
  unfold assign
  split
  next => exact .refl before written
  next v =>
    split
    next after set => exact .setValue? set fun cell found => hit v cell rfl found
    next => exact .refl before written

namespace Stmt

theorem Assigns.weaken {stmt : Stmt} {rest : List Stmt} {context : Context} {cell : Nat}
    (assigns : Assigns [stmt] context cell) : Assigns (stmt :: rest) context cell := by
  cases assigns with
  | assign evaluated found => exact .assign evaluated found
  | block inner => exact .block inner
  | yes holds inner => exact .yes holds inner
  | no fails inner => exact .no fails inner
  | round holds inner => exact .round holds inner
  | nextRound holds ran inner => exact .nextRound holds ran inner
  | later ran inner => cases inner

/-- A loop leaves a context as its rounds do, each of which is a nested scope. -/
theorem loop_extends {rounds : Nat} {location : Location} {condition : Expr} {body : Stmt}
    (round : ∀ {before : Context} {step : Step (Option Value)}, body.run rounds before = some step →
      ∃ newValues, before.Extends step.context [] newValues (Assigns [body] before))
    {step : Step (Option Value)} (ran : (loop location condition body).run rounds before = some step) :
    before.Extends step.context [] [] (Assigns [loop location condition body] before) := by
  rw [run] at ran
  let whole := [loop location condition body]
  -- What a later round assigns to is assigned to by the whole loop.
  let invariant : Context → Prop := fun now =>
    before.Extends now [] [] (Assigns whole before) ∧
      ∀ cell, Assigns whole now cell → Assigns whole before cell
  have start : invariant before := ⟨.refl before _, fun _ assigns => assigns⟩
  have left {now : Context} {inner : Step (Option Value)} (holds : invariant now)
      (goesOn : Evaluation.condition now.getValue? condition = .ok true)
      (bodyRan : body.run rounds now = some inner) :
      before.Extends (inner.context.leave now.mark) [] [] (Assigns whole before) := by
    obtain ⟨newValues, extension⟩ := round bodyRan
    exact holds.1.trans (extension.mono fun cell _ inside => holds.2 cell (.round goesOn inside)).leave
  have next {now between : Context} {v : Option Value} (holds : invariant now)
      (goesOn : Evaluation.condition now.getValue? condition = .ok true)
      (ended : (body.run rounds now).map (·.leave now.mark) = some ⟨.ok v, between⟩) :
      invariant between := by
    obtain ⟨inner, bodyRan, rfl⟩ := Step.left_eq_some ended
    exact ⟨left holds goesOn bodyRan,
      fun cell later => holds.2 cell (.nextRound goesOn bodyRan later)⟩
  obtain ⟨result, after⟩ := step
  cases result with
  | ok v => exact (Evaluation.repeatWhile_ok invariant next start ran).2.1
  | error fault =>
      obtain ⟨now, holds, ⟨-, rfl⟩ | ⟨goesOn, failed⟩⟩ :=
        Evaluation.repeatWhile_error invariant next start ran
      · exact holds.1
      · obtain ⟨inner, bodyRan, rfl⟩ := Step.left_eq_some failed
        exact left holds goesOn bodyRan

mutual

theorem run_extends (stmt : Stmt) {rounds : Nat} {before : Context} {step : Step (Option Value)}
    (ran : stmt.run rounds before = some step) :
    before.Extends step.context [] (stmt.bindings before step.result) (Assigns [stmt] before) := by
  cases stmt with
  | empty location =>
      cases ran
      exact .refl before _
  | block location body =>
      rw [run] at ran
      obtain ⟨inner, bodyRan, rfl⟩ := Option.map_eq_some_iff.mp ran
      obtain ⟨newValues, extension⟩ := runAll_extends body bodyRan
      exact (extension.mono fun _ _ => .block).leave
  | branch location condition yes no =>
      change before.Extends step.context [] [] _
      rw [run_branch] at ran
      split at ran
      next =>
        cases ran
        exact .refl before _
      next holds =>
        obtain ⟨inner, yesRan, rfl⟩ := Option.map_eq_some_iff.mp ran
        exact ((run_extends yes yesRan).mono fun _ _ => .yes holds).leave
      next fails =>
        cases no with
        | none =>
            cases ran
            exact .refl before _
        | some no =>
            obtain ⟨inner, noRan, rfl⟩ := Option.map_eq_some_iff.mp ran
            exact ((run_extends no noRan).mono fun _ _ => .no fails).leave
  | loop location condition body =>
      exact loop_extends (fun bodyRan => ⟨_, run_extends body bodyRan⟩) ran
  | var location name declared initial =>
      cases ran
      exact Step.bind_extends rfl _ _
  | unit location name definition =>
      cases ran
      exact Step.bind_extends rfl _ _
  | assign location name rhs =>
      cases ran
      exact Evaluation.assign_extends fun v cell evaluated found => .assign evaluated found
  | constant location name rhs =>
      cases ran
      exact Step.bind_extends rfl _ _
  | expr location e =>
      cases ran
      exact .refl before _

theorem runAll_extends (body : List Stmt) {rounds : Nat} {before : Context} {last : Option Value}
    {step : Step (Option Value)} (ran : runAll rounds body last before = some step) :
    ∃ newValues, before.Extends step.context [] newValues (Assigns body before) := by
  cases body with
  | nil =>
      cases ran
      exact ⟨[], .refl before _⟩
  | cons first rest =>
      rw [runAll] at ran
      rcases Evaluation.andThen_eq_some ran with
        ⟨result, between, firstRan, restRan⟩ | ⟨fault, between, firstRan, rfl⟩
      · obtain ⟨newValues, extension⟩ := runAll_extends rest restRan
        have firstExtension : before.Extends between [] _ (Assigns (first :: rest) before) :=
          (run_extends first firstRan).mono fun _ _ => Assigns.weaken
        exact ⟨_, firstExtension.trans (extension.mono fun _ _ => .later firstRan)⟩
      · exact ⟨_, (run_extends first firstRan).mono fun _ _ => Assigns.weaken⟩

end

/-- A cell from before that is assigned to is the one that a name leads to before. -/
theorem Assigns.visible {body : List Stmt} {before : Context} {cell : Nat}
    (assigns : Assigns body before cell) (old : cell < before.cells.size) :
    ∃ name, before.scope.values.lookup name = some cell := by
  induction assigns with
  | assign evaluated found => exact ⟨_, found⟩
  | block inner ih | yes holds inner ih | no fails inner ih | round holds inner ih => exact ih old
  | nextRound holds ran inner ih =>
      exact ih (Nat.lt_of_lt_of_le old (run_extends _ ran).leave.le_size)
  | later ran inner ih =>
      have extension := run_extends _ ran
      obtain ⟨name, found⟩ := ih (Nat.lt_of_lt_of_le old extension.le_size)
      exact ⟨name, extension.lookup_of_lt found old⟩

theorem check_extends (stmt : Stmt) (before : Context) :
    before.Extends (stmt.check before).context (stmt.bindings before (stmt.check before).result) []
      fun _ => False := by
  have context := check_context stmt before
  cases stmt with
  | var location name declared initial => exact Step.bind_type_extends rfl _ _
  | unit location name definition => exact Step.bind_type_extends rfl _ _
  | constant location name rhs => exact Step.bind_type_extends rfl _ _
  | empty | block | branch | loop | assign | expr =>
      rw [context]
      exact .refl before _

end Stmt

end

end Quantities
