import Quantities.Proofs.Context.Extension
import Quantities.Proofs.Store.Arising

/-!
The discipline of scopes. A declaration that succeeds leaves one binding behind, and every other
statement none, however deep inside it goes wrong. No statement touches a type.
-/

namespace Quantities

variable {context other : Context}

/-- A cell that holds the value of a name holds no type, in no context with the same cells. -/
theorem Context.Shares.type_ne_of_lookup (shares : context.Shares other) {name : String} {cell : Nat}
    (found : context.scope.values.lookup name = some cell) :
    ∀ type ∈ other.scope.types, type.2 ≠ cell :=
  fun type member => shares.apart type member _ (Scope.mem_of_lookup found)

/-- The bindings from before are there again, under that of a declaration that succeeds. Checking
changes no cell from before. Running changes those alone that an assignment leads to on the way, each
of which holds the value of a name and not a type. -/
theorem Stmt.keeps_discipline (stmt : Stmt) (before : Context) :
    before.Extends (stmt.check before).context
      (stmt.bindings before (stmt.check before).result) [] (fun _ => False) ∧
    ∀ {rounds : Nat} {step : Step (Option Value)}, stmt.run rounds before = some step →
      before.Extends step.context [] (stmt.bindings before step.result) (Assigns [stmt] before) ∧
      ∀ cell < before.cells.size, Assigns [stmt] before cell →
        (∃ name, before.scope.values.lookup name = some cell) ∧
        ∀ other, before.Shares other → ∀ type ∈ other.scope.types, type.2 ≠ cell := by
  refine ⟨check_extends stmt before, fun ran => ⟨run_extends stmt ran, ?_⟩⟩
  intro cell old assigns
  obtain ⟨name, found⟩ := assigns.visible old
  exact ⟨⟨name, found⟩, fun other shares => shares.type_ne_of_lookup found⟩

/-- A block that binds a name, assigns to one from before and then goes wrong. -/
def Stmt.interrupted : Stmt :=
  .block .nowhere [.var .nowhere "y" none (some (.bool .nowhere true)),
    .assign .nowhere "x" (.bool .nowhere true), .expr .nowhere (.name .nowhere "z")]

theorem Stmt.interrupted_keeps_discipline :
    ∃ fault after, interrupted.run 0 .switch = some ⟨.error fault, after⟩ ∧
      Context.switch.Extends after [] [] (Assigns [interrupted] .switch) ∧
      after.cells.toList = [.boolean true, .booleanType] ∧
      Assigns [interrupted] .switch 0 ∧ ∀ type ∈ Context.switch.scope.types, type.2 ≠ 0 := by
  have ran : interrupted.run 0 .switch = some _ := rfl
  have declared :
      (Stmt.var .nowhere "y" none (some (.bool .nowhere true))).run 0 .switch = some _ := rfl
  have assigns : Assigns [interrupted] .switch 0 := .block (.later declared (.assign rfl rfl))
  obtain ⟨extension, visible⟩ := (keeps_discipline interrupted .switch).2 ran
  obtain ⟨-, typeless⟩ := visible 0 (by decide) assigns
  exact ⟨_, _, ran, extension, rfl, assigns, typeless _ Context.switch_arises⟩

end Quantities
