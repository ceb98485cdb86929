import Quantities.Evaluation.Statement
import Quantities.Proofs.Placeless.Expression
import Quantities.Typing.Statement

/-! The parts of statements: what they come to does not depend on locations either. -/

namespace Quantities

open Result

theorem instanceType_placeless (location place : Location) (v : Value) :
    (instanceType location v).toOption = (instanceType place v).toOption := by
  unfold instanceType
  split <;> rfl

section

variable {e other : Expr} {e? other? initial? otherInitial? : Option Expr}

theorem bare_of_map_eq (same : e?.map Expr.bare = other?.map Expr.bare) :
    e? = none ∧ other? = none ∨
      ∃ e other, e? = some e ∧ other? = some other ∧ e.bare = other.bare := by
  cases e? with
  | none =>
      cases other? with
      | none => exact .inl ⟨rfl, rfl⟩
      | some other => cases same
  | some e =>
      cases other? with
      | none => cases same
      | some other => exact .inr ⟨e, other, rfl, rfl, Option.some.inj same⟩

namespace Typing

theorem condition_of_bare (same : e.bare = other.bare) (types : String → Option Value) :
    (condition types e).toOption = (condition types other).toOption := by
  apply toOption_bind (Expr.infer_eq_of_bare same types)
  intro type
  split <;> rfl

theorem optional_of_bare (same : e?.map Expr.bare = other?.map Expr.bare)
    (types : String → Option Value) :
    (optional types e?).toOption = (optional types other?).toOption := by
  obtain ⟨rfl, rfl⟩ | ⟨e, other, rfl, rfl, bare⟩ := bare_of_map_eq same
  · rfl
  · rw [optional, optional, toOption_map, toOption_map, Expr.infer_eq_of_bare bare types]

theorem declaredType_of_bare (same : e?.map Expr.bare = other?.map Expr.bare)
    (types : String → Option Value) :
    (declaredType types e?).toOption = (declaredType types other?).toOption := by
  obtain ⟨rfl, rfl⟩ | ⟨e, other, rfl, rfl, bare⟩ := bare_of_map_eq same
  · rfl
  · apply toOption_bind (Expr.infer_eq_of_bare bare types)
    intro constructor
    exact toOption_bind (instanceType_placeless _ _ constructor) fun type => rfl

theorem variableType_of_bare (location place : Location)
    (same : e?.map Expr.bare = other?.map Expr.bare)
    (sameInitial : initial?.map Expr.bare = otherInitial?.map Expr.bare)
    (types : String → Option Value) :
    (variableType types location e? initial?).toOption =
      (variableType types place other? otherInitial?).toOption := by
  apply toOption_bind (declaredType_of_bare same types)
  intro declared
  apply toOption_bind (optional_of_bare sameInitial types)
  intro initial
  split
  next => split <;> rfl
  next => rfl
  next => rfl
  next => rfl

theorem unitType_of_bare (name : String) (same : e?.map Expr.bare = other?.map Expr.bare)
    (types : String → Option Value) :
    (unitType types name e?).toOption = (unitType types name other?).toOption := by
  obtain ⟨rfl, rfl⟩ | ⟨e, other, rfl, rfl, bare⟩ := bare_of_map_eq same
  · rfl
  · apply toOption_bind (Expr.infer_eq_of_bare bare types)
    intro v
    split
    next => rfl
    next => split <;> rfl

theorem assignmentType_of_bare (location place : Location) (name : String)
    (same : e.bare = other.bare) (types : String → Option Value) :
    (assignmentType types location name e).toOption =
      (assignmentType types place name other).toOption := by
  unfold assignmentType
  split
  next => rfl
  next =>
    apply toOption_bind (Expr.infer_eq_of_bare same types)
    intro type
    split <;> rfl

end Typing

namespace Evaluation

theorem condition_of_bare (same : e.bare = other.bare) (values : String → Option Value) :
    (condition values e).toOption = (condition values other).toOption :=
  toOption_bind (Expr.eval_eq_of_bare same values) fun v => truth_placeless _ _ v

theorem optional_of_bare (same : e?.map Expr.bare = other?.map Expr.bare)
    (values : String → Option Value) :
    (optional values e?).toOption = (optional values other?).toOption := by
  obtain ⟨rfl, rfl⟩ | ⟨e, other, rfl, rfl, bare⟩ := bare_of_map_eq same
  · rfl
  · rw [optional, optional, toOption_map, toOption_map, Expr.eval_eq_of_bare bare values]

theorem declaredType_of_bare (same : e?.map Expr.bare = other?.map Expr.bare)
    (values : String → Option Value) :
    (declaredType values e?).toOption = (declaredType values other?).toOption := by
  obtain ⟨rfl, rfl⟩ | ⟨e, other, rfl, rfl, bare⟩ := bare_of_map_eq same
  · rfl
  · apply toOption_bind (Expr.eval_eq_of_bare bare values)
    intro constructor
    exact toOption_bind (instanceType_placeless _ _ constructor) fun type => rfl

theorem variableValue_of_bare (location place : Location) (name : String)
    (same : e?.map Expr.bare = other?.map Expr.bare)
    (sameInitial : initial?.map Expr.bare = otherInitial?.map Expr.bare)
    (values : String → Option Value) :
    (variableValue values location name e? initial?).toOption =
      (variableValue values place name other? otherInitial?).toOption := by
  apply toOption_bind (declaredType_of_bare same values)
  intro declared
  apply toOption_bind (optional_of_bare sameInitial values)
  intro initial
  split
  next => split <;> rfl
  next => rfl
  next => rfl
  next => rfl

theorem unitValue_of_bare (name : String) (same : e?.map Expr.bare = other?.map Expr.bare)
    (values : String → Option Value) :
    (unitValue values name e?).toOption = (unitValue values name other?).toOption := by
  obtain ⟨rfl, rfl⟩ | ⟨e, other, rfl, rfl, bare⟩ := bare_of_map_eq same
  · rfl
  · apply toOption_bind (Expr.eval_eq_of_bare bare values)
    intro v
    split <;> rfl

theorem assignedValue_of_bare (location place : Location) (name : String)
    (same : e.bare = other.bare) (values : String → Option Value) :
    (assignedValue values location name e).toOption =
      (assignedValue values place name other).toOption := by
  unfold assignedValue
  split
  next => rfl
  next =>
    apply toOption_bind (Expr.eval_eq_of_bare same values)
    intro v
    split <;> rfl

end Evaluation

end

end Quantities
