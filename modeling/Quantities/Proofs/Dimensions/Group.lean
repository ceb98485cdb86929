import Quantities.Proofs.Dimensions.Canonical
import Quantities.Proofs.Dimensions.Weight
import Quantities.Proofs.Number.Representable

/-!
Dimension vectors with whole exponents as the free abelian group over the labels. As long as no exponent
gets over `2 ^ 53` the operations are those of the group, and so its laws hold of them to the last bit.
-/

namespace Quantities

namespace Number

/-- The whole number that a number stands for, rounded down if it is none. -/
def integer (x : Float) : ℤ := ⌊(rational? x).getD 0⌋

/-- A whole number of at most `2 ^ 53`. -/
structure Integral (x : Float) : Prop where
  rational : rational? x = some ↑(integer x)
  small : |integer x| ≤ 2 ^ 53

instance (x : Float) : Decidable (Integral x) :=
  decidable_of_iff (rational? x = some ↑(integer x) ∧ |integer x| ≤ 2 ^ 53)
    ⟨fun ⟨rational, small⟩ => ⟨rational, small⟩, fun ⟨rational, small⟩ => ⟨rational, small⟩⟩

variable {x y : Float}

theorem integer_of_rational {n : ℤ} (stands : rational? x = some ↑n) : integer x = n := by
  rw [integer, stands, Option.getD_some, Int.floor_intCast]

theorem Integral.of_rational {n : ℤ} (stands : rational? x = some ↑n) (small : |n| ≤ 2 ^ 53) :
    Integral x := by
  have same := integer_of_rational stands
  exact ⟨same ▸ stands, same ▸ small⟩

/-- Whole numbers are added exactly if the sum is not too big. -/
theorem Integral.add (left : Integral x) (right : Integral y)
    (small : |integer x + integer y| ≤ 2 ^ 53) : Exact (· + ·) x y (x + y) := by
  have representable := exists_rational small
  rw [Int.cast_add] at representable
  exact ⟨_, _, left.rational, right.rational, rational?_add left.rational right.rational representable⟩

theorem Integral.mul (left : Integral x) (right : Integral y)
    (small : |integer x * integer y| ≤ 2 ^ 53) : Exact (· * ·) x y (x * y) := by
  have representable := exists_rational small
  rw [Int.cast_mul] at representable
  exact ⟨_, _, left.rational, right.rational, rational?_mul left.rational right.rational representable⟩

end Number

namespace Dimensions

/-- What a row of entries adds up to. -/
noncomputable def tally (entries : List (String × Float)) : String →₀ ℤ :=
  (entries.map fun entry => Finsupp.single entry.1 (Number.integer entry.2)).sum

/-- No component is so big that it would be rounded. -/
def Fits (vector : String →₀ ℤ) : Prop := ∀ label, |vector label| ≤ 2 ^ 53

/-- No sum is too big when the entries are added from left to right. -/
def SumsFit (entries : List (String × Float)) : Prop :=
  ∀ front, front <+: entries → Fits (tally front)

/-- All exponents are whole numbers of at most `2 ^ 53`. -/
structure Integral (dims : Dimensions) : Prop where
  canonical : dims.Canonical
  integral : ∀ entry ∈ dims.entries, Number.Integral entry.2

instance (dims : Dimensions) : Decidable dims.Integral :=
  decidable_of_iff (dims.Canonical ∧ ∀ entry ∈ dims.entries, Number.Integral entry.2)
    ⟨fun ⟨canonical, integral⟩ => ⟨canonical, integral⟩,
      fun ⟨canonical, integral⟩ => ⟨canonical, integral⟩⟩

/-- The element of the free abelian group. -/
noncomputable def element (dims : Dimensions) : String →₀ ℤ := tally dims.entries

/-- The whole numbers of a vector as rationals. -/
noncomputable def rationals : (String →₀ ℤ) →+ (String →₀ ℚ) :=
  Finsupp.mapRange.addMonoidHom (Int.castAddHom ℚ)

/-- The dimensions have the exponents of the vector. -/
structure Holds (dims : Dimensions) (vector : String →₀ ℤ) : Prop where
  weighs : dims.Weighs (rationals vector)
  fits : Fits vector

theorem tally_cons (entry : String × Float) (entries : List (String × Float)) :
    tally (entry :: entries) =
      Finsupp.single entry.1 (Number.integer entry.2) + tally entries := by
  rw [tally, List.map_cons, List.sum_cons, tally]

theorem tally_of_perm {entries others : List (String × Float)} (reordered : others.Perm entries) :
    tally others = tally entries := (reordered.map _).sum_eq

theorem tally_apply {entries : List (String × Float)} (ordered : Ordered entries) (label : String) :
    tally entries label = ((entries.lookup label).map Number.integer).getD 0 := by
  induction entries with
  | nil => rfl
  | cons first rest ih =>
      obtain ⟨least, restOrdered⟩ := List.pairwise_cons.mp ordered
      obtain ⟨next, exponent⟩ := first
      rw [tally_cons, Finsupp.add_apply, ih restOrdered, lookup_cons, Finsupp.single_apply]
      by_cases same : label = next
      · subst same
        simp [lookup_of_least least]
      · simp [same, Ne.symm same]

theorem abs_tally_le {entries : List (String × Float)} (bound : ℤ)
    (small : ∀ entry ∈ entries, |Number.integer entry.2| ≤ bound) (label : String) :
    |tally entries label| ≤ entries.length * bound := by
  induction entries with
  | nil => simp [tally]
  | cons first rest ih =>
      have least := small first List.mem_cons_self
      have later := ih fun entry member => small entry (List.mem_cons_of_mem _ member)
      have part : |Finsupp.single first.1 (Number.integer first.2) label| ≤ bound := by
        rw [Finsupp.single_apply]
        split
        · exact least
        · rw [abs_zero]
          exact (abs_nonneg _).trans least
      rw [tally_cons, Finsupp.add_apply, List.length_cons]
      push_cast
      linarith [abs_add_le (Finsupp.single first.1 (Number.integer first.2) label) (tally rest label)]

/-- Few entries with small exponents have sums that fit. -/
theorem sumsFit_of_small {entries : List (String × Float)} {bound : ℤ}
    (small : ∀ entry ∈ entries, |Number.integer entry.2| ≤ bound)
    (few : entries.length * bound ≤ 2 ^ 53) : SumsFit entries := by
  intro front start label
  have parts := abs_tally_le bound (fun entry member => small entry (start.subset member)) label
  cases front with
  | nil => simp [tally]
  | cons first rest =>
      have nonneg : 0 ≤ bound :=
        (abs_nonneg _).trans (small first (start.subset List.mem_cons_self))
      have fewer : ((first :: rest).length : ℤ) ≤ entries.length := by
        exact_mod_cast start.length_le
      exact parts.trans ((mul_le_mul_of_nonneg_right fewer nonneg).trans few)

theorem rationals_apply (vector : String →₀ ℤ) (label : String) :
    rationals vector label = (vector label : ℚ) := rfl

theorem rationals_single (label : String) (n : ℤ) :
    rationals (Finsupp.single label n) = Finsupp.single label (n : ℚ) := by
  ext other
  rw [rationals_apply, Finsupp.single_apply, Finsupp.single_apply]
  split <;> simp

theorem Integral.holds {dims : Dimensions} (integral : dims.Integral) :
    dims.Holds dims.element := by
  obtain ⟨⟨ordered, zeroFree⟩, integral⟩ := integral
  have found (label : String) : Number.rational? (dims.get label) = some ↑(dims.element label) ∧
      |dims.element label| ≤ 2 ^ 53 := by
    rw [element, tally_apply ordered, get]
    cases stored : dims.entries.lookup label with
    | none => exact ⟨Number.rational?_zero, by simp⟩
    | some exponent =>
        have whole := integral _ (mem_of_lookup stored)
        exact ⟨whole.rational, whole.small⟩
  exact ⟨⟨ordered, zeroFree, fun label => (found label).1⟩, fun label => (found label).2⟩

namespace Holds

variable {dims left right : Dimensions} {vector u v : String →₀ ℤ}

theorem unique (leftHolds : left.Holds u) (rightHolds : right.Holds v) (same : u = v) :
    left = right := by
  subst same
  exact leftHolds.weighs.unique rightHolds.weighs

theorem integral_get (holds : dims.Holds vector) (label : String) :
    Number.Integral (dims.get label) :=
  .of_rational (holds.weighs.exact label) (holds.fits label)

theorem integer_get (holds : dims.Holds vector) (label : String) :
    Number.integer (dims.get label) = vector label :=
  Number.integer_of_rational (holds.weighs.exact label)

theorem scalar : Dimensions.scalar.Holds 0 := by
  refine ⟨?_, fun label => by simp⟩
  rw [map_zero]
  exact .scalar

theorem single (label : String) : (Dimensions.single label).Holds (Finsupp.single label 1) := by
  refine ⟨?_, fun other => ?_⟩
  · rw [rationals_single, Int.cast_one]
    exact .single label
  · rw [Finsupp.single_apply]
    split <;> norm_num

theorem integral_of_mem (holds : dims.Holds vector) {entry : String × Float}
    (member : entry ∈ dims.entries) :
    Number.Integral entry.2 ∧ Number.integer entry.2 = vector entry.1 := by
  obtain ⟨-, stands⟩ := holds.weighs.entry member
  exact ⟨.of_rational stands (holds.fits entry.1), Number.integer_of_rational stands⟩

theorem combine {sign : Float} {s : ℤ} (signed : Number.rational? sign = some ↑s) (unit : |s| = 1)
    (leftHolds : left.Holds u) (rightHolds : right.Holds v) (fits : Fits (u + s • v)) :
    (Dimensions.combine sign left right).Holds (u + s • v) := by
  have signIntegral : Number.Integral sign := .of_rational signed (by rw [unit]; norm_num)
  have exact : left.CombinesExactly sign right := by
    intro entry member
    obtain ⟨integral, value⟩ := rightHolds.integral_of_mem member
    have small : |s * v entry.1| ≤ 2 ^ 53 := by
      rw [abs_mul, unit, one_mul]
      exact rightHolds.fits entry.1
    have product := signIntegral.mul integral (by rwa [Number.integer_of_rational signed, value])
    have scaled : Number.rational? (sign * entry.2) = some ↑(s * v entry.1) := by
      rw [product.rational signed integral.rational, value, Int.cast_mul]
    refine ⟨product, (leftHolds.integral_get entry.1).add (.of_rational scaled small) ?_⟩
    rw [leftHolds.integer_get, Number.integer_of_rational scaled]
    exact fits entry.1
  have weighs := leftHolds.weighs.combine signed rightHolds.weighs exact
  refine ⟨?_, fits⟩
  rwa [map_add, map_zsmul, ← Int.cast_smul_eq_zsmul ℚ]

theorem times (leftHolds : left.Holds u) (rightHolds : right.Holds v) (fits : Fits (u + v)) :
    (left.times right).Holds (u + v) := by
  rw [← one_zsmul v] at fits ⊢
  exact leftHolds.combine Number.whole_one.rational (by norm_num) rightHolds fits

theorem divide (leftHolds : left.Holds u) (rightHolds : right.Holds v) (fits : Fits (u - v)) :
    (left.divide right).Holds (u - v) := by
  rw [sub_eq_add_neg, ← neg_one_zsmul] at fits ⊢
  exact leftHolds.combine Number.whole_neg_one.rational (by norm_num) rightHolds fits

theorem power {n : Float} (holds : dims.Holds vector) (integral : Number.Integral n)
    (fits : Fits (Number.integer n • vector)) :
    (dims.power n).Holds (Number.integer n • vector) := by
  have exact : dims.PowersExactly n := by
    intro entry member
    obtain ⟨whole, value⟩ := holds.integral_of_mem member
    refine whole.mul integral ?_
    rw [value, mul_comm]
    exact fits entry.1
  have weighs := holds.weighs.power exact
  rw [integral.rational, Option.getD_some] at weighs
  refine ⟨?_, fits⟩
  rwa [map_zsmul, ← Int.cast_smul_eq_zsmul ℚ]

theorem add {label : String} {exponent : Float} (holds : dims.Holds vector)
    (integral : Number.Integral exponent)
    (fits : Fits (vector + Finsupp.single label (Number.integer exponent))) :
    (dims.add label exponent).Holds (vector + Finsupp.single label (Number.integer exponent)) := by
  refine ⟨⟨holds.weighs.ordered.set _ _, holds.weighs.zeroFree.set _ _, fun other => ?_⟩, fits⟩
  rw [Dimensions.add, get_set, rationals_apply, Finsupp.add_apply, Finsupp.single_apply]
  by_cases same : other = label
  · subst same
    have small := fits other
    rw [Finsupp.add_apply, Finsupp.single_eq_same, ← holds.integer_get] at small
    have sum := (holds.integral_get other).add integral small
    rw [if_pos rfl, if_pos rfl, rational?_kept, sum.rational (holds.weighs.exact other) integral.rational]
    push_cast
    rfl
  · rw [if_neg same, if_neg (Ne.symm same), add_zero]
    exact holds.weighs.exact other

theorem power_single {exponent : Float} (label : String) (integral : Number.Integral exponent) :
    ((Dimensions.single label).power exponent).Holds
      (Finsupp.single label (Number.integer exponent)) := by
  have multiple : Number.integer exponent • Finsupp.single label (1 : ℤ) =
      Finsupp.single label (Number.integer exponent) := by
    rw [Finsupp.smul_single, smul_eq_mul, mul_one]
  rw [← multiple]
  refine (single label).power integral ?_
  rw [multiple]
  intro other
  rw [Finsupp.single_apply]
  split
  · exact integral.small
  · norm_num

/-- A row of entries is added up by steps that each hold what is tallied so far. -/
theorem foldl {entries : List (String × Float)}
    {step : Dimensions → String × Float → Dimensions}
    (steps : ∀ {sum : Dimensions} {vector : String →₀ ℤ}, ∀ entry ∈ entries, sum.Holds vector →
      Fits (vector + Finsupp.single entry.1 (Number.integer entry.2)) →
        (step sum entry).Holds (vector + Finsupp.single entry.1 (Number.integer entry.2)))
    (holds : dims.Holds vector) (fits : ∀ front, front <+: entries → Fits (vector + tally front)) :
    (entries.foldl step dims).Holds (vector + tally entries) := by
  induction entries generalizing dims vector with
  | nil => exact (add_zero vector).symm ▸ holds
  | cons first rest ih =>
      have next := fits [first] (List.prefix_append [first] rest)
      rw [tally_cons, show tally [] = 0 from rfl, add_zero] at next
      rw [List.foldl_cons, tally_cons, ← add_assoc]
      refine ih (fun entry member => steps entry (List.mem_cons_of_mem _ member))
        (steps first List.mem_cons_self holds next) fun front start => ?_
      rw [add_assoc, ← tally_cons]
      exact fits (first :: front) (List.cons_prefix_cons.mpr ⟨rfl, start⟩)

end Holds

variable {entries : List (String × Float)}

theorem holds_ofList (integral : ∀ entry ∈ entries, Number.Integral entry.2)
    (fits : SumsFit entries) : (ofList entries).Holds (tally entries) := by
  rw [← zero_add (tally entries)]
  refine Holds.scalar.foldl (fun entry member holds => holds.add (integral entry member)) ?_
  intro front start
  rw [zero_add]
  exact fits front start

/-- The product of the powers of single units that a row of entries stands for. -/
def product (entries : List (String × Float)) : Dimensions :=
  entries.foldl (fun product entry => product.times ((single entry.1).power entry.2)) scalar

theorem holds_product (integral : ∀ entry ∈ entries, Number.Integral entry.2)
    (fits : SumsFit entries) : (product entries).Holds (tally entries) := by
  rw [← zero_add (tally entries)]
  refine Holds.scalar.foldl (fun entry member holds =>
    holds.times (.power_single entry.1 (integral entry member))) ?_
  intro front start
  rw [zero_add]
  exact fits front start

end Dimensions

end Quantities
