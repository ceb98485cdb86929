import Quantities.Proofs.Dimensions.Vector
import Quantities.Proofs.Number.Neutral

/-!
Dimension vectors with one entry more. A finite exponent behind all others comes out as it was, and so
a vector is put together again from its entries in their order.
-/

namespace Quantities.Dimensions

variable {dims : Dimensions} {label : String} {exponent : Float}

theorem insert_last {entries : List (String × Float)} (after : ∀ entry ∈ entries, entry.1 < label)
    (exponent : Float) : insert label exponent entries = entries ++ [(label, exponent)] := by
  induction entries with
  | nil => rfl
  | cons first rest ih =>
      obtain ⟨other, old⟩ := first
      have less : other < label := after _ List.mem_cons_self
      rw [insert, if_neg less.ne', if_neg less.not_gt,
        ih fun entry member => after entry (List.mem_cons_of_mem _ member)]
      rfl

theorem add_last (finite : exponent.isFinite = true) (nonzero : (exponent == 0) = false)
    (after : ∀ entry ∈ dims.entries, entry.1 < label) :
    dims.add label (1 * exponent) = ⟨dims.entries ++ [(label, exponent)]⟩ := by
  have absent : dims.entries.lookup label = none := by
    rw [List.lookup_eq_none_iff]
    intro entry member
    simpa using (after entry member).ne'
  have sum : dims.get label + 1 * exponent = exponent := by
    rw [get, absent, Option.getD_none, Number.one_mul_of_finite finite,
      Number.zero_add_of_nonzero finite nonzero]
  rw [add, sum, set, nonzero, if_neg Bool.false_ne_true, insert_last after]

theorem single_eq (label : String) : single label = ⟨[(label, 1)]⟩ := by
  have nonzero : ((1 : Float) == 0) = false := by decide
  rw [single, set, nonzero, if_neg Bool.false_ne_true]
  rfl

theorem power_single (finite : exponent.isFinite = true) (nonzero : (exponent == 0) = false) :
    (single label).power exponent = ⟨[(label, exponent)]⟩ := by
  rw [single_eq]
  exact add_last finite nonzero nofun

theorem times_last (finite : exponent.isFinite = true) (nonzero : (exponent == 0) = false)
    (after : ∀ entry ∈ dims.entries, entry.1 < label) :
    dims.times ⟨[(label, exponent)]⟩ = ⟨dims.entries ++ [(label, exponent)]⟩ :=
  add_last finite nonzero after

end Quantities.Dimensions
