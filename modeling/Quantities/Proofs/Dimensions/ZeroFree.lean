import Mathlib
import Quantities.Dimensions

/-!
No dimension vector stores a zero. All operations keep it so, and vectors without zeros that
compare equal are the same vector.
-/

namespace Quantities

namespace Dimensions

/-- A label that is stored has an exponent other than zero. -/
def ZeroFree (dims : Dimensions) : Prop := ∀ entry ∈ dims.entries, (entry.2 == 0) = false

theorem scalar_zeroFree : scalar.ZeroFree := by
  intro entry member
  simp [scalar] at member

theorem mem_insert {label : String} {exponent : Float} {entries : List (String × Float)}
    {entry : String × Float} (member : entry ∈ insert label exponent entries) :
    entry = (label, exponent) ∨ entry ∈ entries := by
  induction entries with
  | nil => simpa [insert] using member
  | cons first rest ih =>
      obtain ⟨other, old⟩ := first
      rw [insert] at member
      split at member
      · rcases List.mem_cons.mp member with same | later
        · exact .inl same
        · exact .inr (List.mem_cons_of_mem _ later)
      · split at member
        · exact List.mem_cons.mp member
        · rcases List.mem_cons.mp member with same | later
          · exact .inr (by simp [same])
          · exact (ih later).imp_right (List.mem_cons_of_mem _)

theorem ZeroFree.set {dims : Dimensions} (zeroFree : dims.ZeroFree) (label : String)
    (exponent : Float) : (dims.set label exponent).ZeroFree := by
  intro entry member
  unfold Dimensions.set at member
  split at member
  · exact zeroFree entry ((List.mem_filter.mp member).1)
  · rename_i nonzero
    rcases mem_insert member with rfl | old
    · simpa using nonzero
    · exact zeroFree entry old

theorem single_zeroFree (label : String) : (single label).ZeroFree := scalar_zeroFree.set label 1

theorem ZeroFree.foldl_add {dims : Dimensions} (zeroFree : dims.ZeroFree)
    (entries : List (String × Float)) (exponent : String × Float → Float) :
    (entries.foldl (fun sum entry => sum.add entry.1 (exponent entry)) dims).ZeroFree := by
  induction entries generalizing dims with
  | nil => exact zeroFree
  | cons first rest ih => exact ih (zeroFree.set first.1 _)

theorem power_zeroFree (dims : Dimensions) (n : Float) : (dims.power n).ZeroFree :=
  scalar_zeroFree.foldl_add _ (·.2)

theorem ZeroFree.times {left : Dimensions} (zeroFree : left.ZeroFree) (right : Dimensions) :
    (left.times right).ZeroFree := zeroFree.foldl_add _ _

theorem ZeroFree.divide {left : Dimensions} (zeroFree : left.ZeroFree) (right : Dimensions) :
    (left.divide right).ZeroFree := zeroFree.foldl_add _ _

/-- Numbers that compare equal are the same number, apart from the two zeros. -/
theorem exponent_eq_of_beq {x y : Float} (same : (x == y) = true) (nonzero : (x == 0) = false) :
    x = y := by
  obtain ⟨-, -, equal | ⟨zero, -⟩ | ⟨zero, -⟩⟩ := Float.beq_iff_ne_nan_and_eq.mp same
  · exact equal
  · subst zero
    exact absurd nonzero (by decide)
  · subst zero
    exact absurd nonzero (by decide)

theorem ZeroFree.eq_of_beq {left right : Dimensions} (zeroFree : left.ZeroFree)
    (same : (left == right) = true) : left = right := by
  obtain ⟨entries⟩ := left
  obtain ⟨others⟩ := right
  change (entries == others) = true at same
  induction entries generalizing others with
  | nil =>
      cases others with
      | nil => rfl
      | cons other rest => simp at same
  | cons entry rest ih =>
      cases others with
      | nil => simp at same
      | cons other more =>
          simp only [List.cons_beq_cons, Bool.and_eq_true] at same
          obtain ⟨first, later⟩ := same
          have parts : (entry.1 == other.1) = true ∧ (entry.2 == other.2) = true := by
            simpa [BEq.beq] using first
          have exponents := exponent_eq_of_beq parts.2 (zeroFree entry (by simp))
          have entries : entry = other := Prod.ext (by simpa using parts.1) exponents
          have tails := ih (fun next member => zeroFree next (List.mem_cons_of_mem _ member)) more later
          simpa [entries] using tails

end Dimensions

end Quantities
