import Quantities.Proofs.Kind.Grounded
import Quantities.Proofs.Placeless.Expression

/-!
Whether exponents are small whole numbers can be computed, and it does not depend on locations.
-/

namespace Quantities

namespace Number

theorem exists_whole_iff {x : Float} :
    (∃ value, Whole x value) ↔ ∃ r ∈ rational? x, r.den = 1 ∧ |r.num| < 2 ^ 53 := by
  constructor
  · rintro ⟨value, rational, small⟩
    exact ⟨value, rational, rfl, small⟩
  · rintro ⟨r, rational, whole, small⟩
    exact ⟨r.num, by rw [Rat.coe_int_num_of_den_eq_one whole]; exact rational, small⟩

instance (x : Float) : Decidable (∃ value, Whole x value) := decidable_of_iff _ exists_whole_iff.symm

end Number

instance (dims : Dimensions) : Decidable dims.Small :=
  inferInstanceAs (Decidable (∀ entry ∈ dims.entries, ∃ count, Number.Whole entry.2 count))

namespace Kind

instance (kind : Kind) : Decidable kind.Small :=
  match kind with
  | .number dims base | .unit dims base => inferInstanceAs (Decidable (dims.Small ∧ base.Small))
  | .boolean | .booleanConstructor => inferInstanceAs (Decidable True)

instance (n : Float) (kind : Kind) : Decidable (kind.WholePower n) :=
  match kind with
  | .number dims _ | .unit dims _ =>
    inferInstanceAs (Decidable (dims.isScalar = true ∨ ∃ count, Number.Whole n count))
  | .boolean | .booleanConstructor => inferInstanceAs (Decidable True)

end Kind

namespace Result

variable {α : Type} {holds : α → Prop}

theorem forall_eq_ok_iff {result : Except Fault α} :
    (∀ v, result = .ok v → holds v) ↔ ∀ v ∈ result.toOption, holds v := by
  simp [toOption_eq_some]

instance [DecidablePred holds] (result : Except Fault α) :
    Decidable (∀ v, result = .ok v → holds v) := decidable_of_iff _ forall_eq_ok_iff.symm

end Result

namespace Expr

variable {types : String → Option Value}

instance (e : Expr) : Decidable (e.WholeAt types) :=
  @instDecidableAnd _ _ inferInstance <|
    match e with
    | .power _ base n =>
      inferInstanceAs (Decidable (∀ type, base.infer types = .ok type → type.kind.WholePower n))
    | .number .. | .bool .. | .typeWord .. | .name .. | .paren .. | .sign .. | .binary ..
    | .logical .. | .ascription .. | .conversion .. => inferInstanceAs (Decidable True)

instance (e : Expr) : Decidable (e.WholeExponents types) :=
  inferInstanceAs (Decidable (∀ part ∈ e.parts, part.WholeAt types))

theorem parts_bare (e : Expr) : e.bare.parts = e.parts.map bare := by
  induction e with
  | number | bool | typeWord | name => rfl
  | paren location inner ih | sign location op inner ih | power location inner exponent ih =>
      exact congrArg (List.cons _) ih
  | binary location op left right leftIh rightIh | logical location op left right leftIh rightIh
  | ascription location left right leftIh rightIh
  | conversion location left right leftIh rightIh =>
      refine congrArg (List.cons _) ?_
      rw [List.map_append, ← leftIh, ← rightIh]

theorem eq_binary_of_bare {e left right : Expr} {location : Location} {op : BinaryOp}
    (same : e.bare = .binary location op left right) : ∃ place lhs rhs,
      e = .binary place op lhs rhs ∧ lhs.bare = left ∧ rhs.bare = right := by
  cases e with
  | binary place other lhs rhs =>
      simp only [bare, binary.injEq] at same
      obtain ⟨-, rfl, leftBare, rightBare⟩ := same
      exact ⟨place, lhs, rhs, rfl, leftBare, rightBare⟩
  | _ => cases same

theorem forall_infer_bare (e : Expr) {holds : Value → Prop} :
    (∀ type, e.bare.infer types = .ok type → holds type) ↔
      ∀ type, e.infer types = .ok type → holds type := by
  rw [Result.forall_eq_ok_iff, infer_bare, ← Result.forall_eq_ok_iff]

theorem wholeAt_bare (e : Expr) : e.bare.WholeAt types ↔ e.WholeAt types := by
  refine and_congr e.forall_infer_bare ?_
  cases e with
  | power location base exponent => exact base.forall_infer_bare
  | _ => exact Iff.rfl

theorem wholeExponents_bare (e : Expr) : e.bare.WholeExponents types ↔ e.WholeExponents types := by
  unfold WholeExponents
  rw [parts_bare, List.forall_mem_map]
  exact forall₂_congr fun part _ => part.wholeAt_bare

/-- The square of a length has whole exponents, and the root of one does not. -/
example : (power .nowhere (.name .nowhere "km") 2).WholeExponents Context.prelude.getType? ∧
    ¬ (power .nowhere (.name .nowhere "km") 0.5).WholeExponents Context.prelude.getType? := by
  decide +kernel

end Expr

end Quantities
