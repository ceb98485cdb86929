import Quantities.Proofs.Dimensions.Vector
import Quantities.Proofs.Quantity.Conversion

/-!
Dimensions with finite exponents as vectors of rationals. Where no exponent is rounded, the operations
on dimensions are those on the vectors, and the dimensions are determined by their vector.
-/

namespace Quantities

namespace Number

variable {op : ℚ → ℚ → ℚ} {x y result : Float} {r s : ℚ}

theorem Exact.rational (exact : Exact op x y result) (left : rational? x = some r)
    (right : rational? y = some s) : rational? result = some (op r s) := by
  obtain ⟨p, q, isP, isQ, value⟩ := exact
  rw [Option.some.inj (left.symm.trans isP), Option.some.inj (right.symm.trans isQ)]
  exact value

theorem isFinite_of_rational (value : rational? x = some r) : x.isFinite = true := by
  change x.toModel.unpack.isFinite = true
  unfold rational? unpackedRational? at value
  split at value <;> simp_all [Float.Model.UnpackedFloat.isFinite]

end Number

namespace Dimensions

/-- The exponents are those of the vector. -/
structure Weighs (dims : Dimensions) (vector : String →₀ ℚ) : Prop where
  ordered : Ordered dims.entries
  zeroFree : dims.ZeroFree
  exact : ∀ label, Number.rational? (dims.get label) = some (vector label)

/-- No exponent is rounded when the others are added, each taken `sign` times. -/
def CombinesExactly (sign : Float) (left right : Dimensions) : Prop :=
  ∀ entry ∈ right.entries, Number.Exact (· * ·) sign entry.2 (sign * entry.2) ∧
    Number.Exact (· + ·) (left.get entry.1) (sign * entry.2) (left.get entry.1 + sign * entry.2)

/-- No exponent is rounded when all are multiplied. -/
def PowersExactly (dims : Dimensions) (n : Float) : Prop :=
  ∀ entry ∈ dims.entries, Number.Exact (· * ·) entry.2 n (entry.2 * n)

instance (sign : Float) (left right : Dimensions) : Decidable (left.CombinesExactly sign right) :=
  inferInstanceAs (Decidable (∀ entry ∈ right.entries, _ ∧ _))

instance (dims : Dimensions) (n : Float) : Decidable (dims.PowersExactly n) :=
  inferInstanceAs (Decidable (∀ entry ∈ dims.entries, _))

theorem rational?_kept (exponent : Float) :
    Number.rational? (kept exponent) = Number.rational? exponent := by
  unfold kept
  split
  next zero =>
    rw [Number.rational?_eq_zero.mpr zero]
    exact Number.rational?_zero
  next => rfl

namespace Weighs

variable {dims left right : Dimensions} {vector u v : String →₀ ℚ}

theorem lookup_eq (weighs : dims.Weighs vector) (label : String) :
    dims.entries.lookup label = if vector label = 0 then none else some (dims.get label) := by
  have exact := weighs.exact label
  rw [weighs.zeroFree.lookup_eq]
  by_cases zero : vector label = 0
  · rw [zero] at exact
    rw [if_pos zero, if_pos (Number.rational?_eq_zero.mp exact)]
  · rw [if_neg zero, if_neg fun none =>
      zero (Option.some.inj (exact.symm.trans (Number.rational?_eq_zero.mpr none)))]

theorem entry (weighs : dims.Weighs vector) {label : String} {exponent : Float}
    (member : (label, exponent) ∈ dims.entries) :
    vector label ≠ 0 ∧ Number.rational? exponent = some (vector label) := by
  have found := lookup_of_mem weighs.ordered.distinct member
  rw [weighs.lookup_eq] at found
  obtain ⟨nonzero, ⟨⟩⟩ := Option.ite_none_left_eq_some.mp found
  exact ⟨nonzero, weighs.exact label⟩

theorem member (weighs : dims.Weighs vector) {label : String} (nonzero : vector label ≠ 0) :
    (label, dims.get label) ∈ dims.entries :=
  mem_of_lookup ((weighs.lookup_eq label).trans (if_neg nonzero))

theorem unique (leftWeighs : left.Weighs vector) (rightWeighs : right.Weighs vector) :
    left = right := by
  refine eq_of_lookup leftWeighs.ordered rightWeighs.ordered fun label => ?_
  rw [leftWeighs.lookup_eq, rightWeighs.lookup_eq]
  split
  next => rfl
  next nonzero => rw [Number.eq_of_rational nonzero (leftWeighs.exact label) (rightWeighs.exact label)]

theorem vector_eq (first : dims.Weighs u) (second : dims.Weighs v) : u = v := by
  ext label
  exact Option.some.inj ((first.exact label).symm.trans (second.exact label))

theorem scalar : Dimensions.scalar.Weighs 0 :=
  ⟨.nil, scalar_zeroFree, fun _ => Number.rational?_zero⟩

theorem single (label : String) : (Dimensions.single label).Weighs (Finsupp.single label 1) := by
  refine ⟨Ordered.set .nil label 1, single_zeroFree label, ?_⟩
  intro other
  rw [Dimensions.single, get_set, Finsupp.single_apply]
  by_cases same : other = label
  · rw [if_pos same, if_pos same.symm, rational?_kept, Number.whole_one.rational, Int.cast_one]
  · rw [if_neg same, if_neg (Ne.symm same)]
    exact scalar.exact other

theorem combine {sign : Float} {s : ℚ} (signed : Number.rational? sign = some s)
    (leftWeighs : left.Weighs u) (rightWeighs : right.Weighs v)
    (exact : left.CombinesExactly sign right) :
    (Dimensions.combine sign left right).Weighs (u + s • v) := by
  refine ⟨leftWeighs.ordered.foldl_add _ _, leftWeighs.zeroFree.foldl_add _ _, ?_⟩
  intro label
  have sum : (u + s • v) label = u label + s * v label := by simp
  rw [Dimensions.combine, get_foldl_add rightWeighs.ordered, rightWeighs.lookup_eq, sum]
  by_cases zero : v label = 0
  · rw [if_pos zero, zero, mul_zero, add_zero]
    exact leftWeighs.exact label
  · obtain ⟨product, total⟩ := exact _ (rightWeighs.member zero)
    rw [if_neg zero, rational?_kept]
    exact total.rational (leftWeighs.exact label) (product.rational signed (rightWeighs.exact label))

theorem times (leftWeighs : left.Weighs u) (rightWeighs : right.Weighs v)
    (exact : left.CombinesExactly 1 right) : (left.times right).Weighs (u + v) := by
  have weighs := combine Number.whole_one.rational leftWeighs rightWeighs exact
  rwa [Int.cast_one, one_smul] at weighs

theorem divide (leftWeighs : left.Weighs u) (rightWeighs : right.Weighs v)
    (exact : left.CombinesExactly (-1) right) : (left.divide right).Weighs (u - v) := by
  have weighs := combine Number.whole_neg_one.rational leftWeighs rightWeighs exact
  rwa [Int.cast_neg, Int.cast_one, neg_one_smul, ← sub_eq_add_neg] at weighs

/-- The power of a plain number has no exponents to multiply, and then `n` may be anything. -/
theorem power {n : Float} (weighs : dims.Weighs vector) (exact : dims.PowersExactly n) :
    (dims.power n).Weighs ((Number.rational? n).getD 0 • vector) := by
  refine ⟨Ordered.foldl_add .nil _ _, power_zeroFree _ _, ?_⟩
  intro label
  have scaled : ((Number.rational? n).getD 0 • vector) label =
      vector label * (Number.rational? n).getD 0 := by simp [mul_comm]
  rw [Dimensions.power, ofList, List.foldl_map,
    get_foldl_add weighs.ordered Dimensions.scalar (· * n), weighs.lookup_eq, scaled]
  by_cases zero : vector label = 0
  · rw [if_pos zero, zero, zero_mul]
    exact scalar.exact label
  · obtain ⟨r, s, isR, isS, product⟩ := exact _ (weighs.member zero)
    obtain rfl := Option.some.inj ((weighs.exact label).symm.trans isR)
    have nothing : Dimensions.scalar.get label = 0 := rfl
    rw [if_neg zero, rational?_kept, nothing, Number.rational?_zero_add, product, isS]
    rfl

end Weighs

end Dimensions

end Quantities
