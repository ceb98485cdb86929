import Quantities.Context
import Quantities.Evaluation
import Quantities.Proofs.Number.Whole

/-!
Sums and comparisons beside conversion. They take the magnitudes as they are and ask for equal
dimensions only, whatever the factors of the two units. So they respect conversion just when the
factors are the same.
-/

namespace Quantities

open Float.Model

instance pairsPartialEquiv {α β : Type} [BEq α] [BEq β] [PartialEquivBEq α] [PartialEquivBEq β] :
    PartialEquivBEq (α × β) where
  symm same :=
    let ⟨first, second⟩ := Bool.and_eq_true_iff.mp same
    Bool.and_eq_true_iff.mpr ⟨BEq.symm first, BEq.symm second⟩
  trans same next :=
    let ⟨first, second⟩ := Bool.and_eq_true_iff.mp same
    let ⟨nextFirst, nextSecond⟩ := Bool.and_eq_true_iff.mp next
    Bool.and_eq_true_iff.mpr ⟨BEq.trans first nextFirst, BEq.trans second nextSecond⟩

instance listsPartialEquiv {α : Type} [BEq α] [PartialEquivBEq α] : PartialEquivBEq (List α) where
  symm {left right} same := by
    induction left generalizing right with
    | nil => cases right <;> simp_all
    | cons first rest ih =>
        cases right with
        | nil => cases same
        | cons other others =>
            simp only [List.cons_beq_cons, Bool.and_eq_true] at same ⊢
            exact ⟨BEq.symm same.1, ih same.2⟩
  trans {left middle right} same next := by
    induction left generalizing middle right with
    | nil => cases middle <;> simp_all
    | cons first rest ih =>
        cases middle with
        | nil => cases same
        | cons other others =>
            cases right with
            | nil => cases next
            | cons last more =>
                simp only [List.cons_beq_cons, Bool.and_eq_true] at same next ⊢
                exact ⟨BEq.trans same.1 next.1, ih same.2 next.2⟩

instance : PartialEquivBEq Dimensions where
  symm {left right} same := (BEq.symm same : (right.entries == left.entries) = true)
  trans {left _ right} same next := (BEq.trans same next : (left.entries == right.entries) = true)

namespace Number

/-- A result that is not rounded: all numbers are finite, and it is the one that the operation has
on the rationals. -/
def Exact (op : ℚ → ℚ → ℚ) (x y result : Float) : Prop :=
  ∃ r s, rational? x = some r ∧ rational? y = some s ∧ rational? result = some (op r s)

instance (op : ℚ → ℚ → ℚ) (x y result : Float) : Decidable (Exact op x y result) :=
  decidable_of_iff (∃ r ∈ rational? x, ∃ s ∈ rational? y, rational? result = some (op r s))
    (by simp [Exact])

/-- A quotient by zero is not finite, and so it is never exact. -/
theorem rational?_div_zero {x y : Float} (zero : rational? y = some 0) : rational? (x / y) = none := by
  have notANumber : unpackedRational? (UnpackedFloat.unpack .binary64
      (UnpackedFloat.pack .binary64 .notANumber)) = none := by decide
  have infinity (sign : UnpackedFloat.Sign) : unpackedRational? (UnpackedFloat.unpack .binary64
      (UnpackedFloat.pack .binary64 (.infinity sign))) = none := by cases sign <;> rfl
  obtain ⟨sign, unpacked⟩ := (whole_zero_iff.mpr (rational?_eq_zero.mp zero)).unpack_zero
  change unpackedRational? (UnpackedFloat.unpack .binary64 (UnpackedFloat.pack .binary64
    (UnpackedFloat.div .binary64 x.toModel.unpack y.toModel.unpack))) = none
  rw [unpacked]
  cases x.toModel.unpack with
  | notANumber | zero other => exact notANumber
  | infinity other | finite other mantissa exponent positive => exact infinity (other / sign)

end Number

namespace Quantity

/-- No operation of a conversion is rounded. A plain number that only takes on a unit has none. -/
def ConvertsExactly (q : Quantity) (unit : Measure) : Prop :=
  (q.unit.base == unit.base) = true →
    Number.Exact (· * ·) q.magnitude q.unit.factor (q.magnitude * q.unit.factor) ∧
    Number.Exact (· / ·) (q.magnitude * q.unit.factor) unit.factor
      (q.magnitude * q.unit.factor / unit.factor)

instance (q : Quantity) (unit : Measure) : Decidable (q.ConvertsExactly unit) :=
  inferInstanceAs (Decidable (_ → _ ∧ _))

/-- No operation is rounded when two quantities are added and the sum is converted, or when what they
are converted to is added. -/
structure AddsExactly (a b : Quantity) (unit : Measure) : Prop where
  sum : Number.Exact (· + ·) a.magnitude b.magnitude (a.magnitude + b.magnitude)
  whole : ConvertsExactly ⟨a.magnitude + b.magnitude, a.unit⟩ unit
  parts : ∀ left right, a.convert unit = some left → b.convert unit = some right →
    Number.Exact (· + ·) left.magnitude right.magnitude (left.magnitude + right.magnitude)

/-- Conversion scales two quantities alike: by one factor, or not at all. -/
def ScaledAlike (a b : Quantity) (unit : Measure) : Prop :=
  (a.unit.base == unit.base) = true → (a.unit.factor == b.unit.factor) = true

variable {q a b left right : Quantity} {unit : Measure}

theorem convert_of_base (same : (q.unit.base == unit.base) = true) :
    q.convert unit = some ⟨q.magnitude * q.unit.factor / unit.factor, unit⟩ := if_pos same

/-- Only a plain number is converted without being scaled. -/
theorem convert_of_not_base (q : Quantity) (differ : (q.unit.base == unit.base) = false) :
    q.convert unit = if q.isScalar then some ⟨q.magnitude, unit⟩ else none := by
  rw [convert, differ]
  rfl

/-- The magnitude `m` in a unit of factor `f` is scaled to a unit of factor `g`, without rounding. -/
structure Scales (q : Quantity) (unit : Measure) (m f g : ℚ) : Prop where
  nonzero : g ≠ 0
  magnitude : Number.rational? q.magnitude = some m
  factor : Number.rational? q.unit.factor = some f
  target : Number.rational? unit.factor = some g
  converted : Number.rational? (q.magnitude * q.unit.factor / unit.factor) = some (m * f / g)

theorem ConvertsExactly.scales (exact : q.ConvertsExactly unit)
    (same : (q.unit.base == unit.base) = true) : ∃ m f g, q.Scales unit m f g := by
  obtain ⟨⟨m, f, isM, isF, product⟩, ⟨p, g, isP, isG, quotient⟩⟩ := exact same
  obtain rfl := Option.some.inj (product.symm.trans isP)
  refine ⟨m, f, g, ?_, isM, isF, isG, quotient⟩
  rintro rfl
  rw [Number.rational?_div_zero isG] at quotient
  cases quotient

theorem plus_of_sameDims (same : a.sameDims b = true) :
    a.plus b = some ⟨a.magnitude + b.magnitude, a.unit⟩ := if_pos same

theorem equals_eq_some (same : a.sameDims b = true) :
    a.equals b = some true ↔ (a.magnitude == b.magnitude) = true := by
  simp [equals, relates, same]

/-- A sum is scaled by the first factor, and so the second one may differ under a zero only. -/
theorem scale_add_iff {m n f h g : ℚ} (nonzero : g ≠ 0) :
    (m + n) * f / g = m * f / g + n * h / g ↔ f = h ∨ n = 0 := by
  rw [← add_div, div_left_inj' nonzero, add_mul, add_right_inj, mul_eq_mul_left_iff]

theorem AddsExactly.of_converts (leftConverts : a.convert unit = some left)
    (rightConverts : b.convert unit = some right)
    (sum : Number.Exact (· + ·) a.magnitude b.magnitude (a.magnitude + b.magnitude))
    (whole : ConvertsExactly ⟨a.magnitude + b.magnitude, a.unit⟩ unit)
    (parts : Number.Exact (· + ·) left.magnitude right.magnitude
      (left.magnitude + right.magnitude)) : a.AddsExactly b unit := by
  refine ⟨sum, whole, ?_⟩
  intro first second firstConverts secondConverts
  obtain rfl := Option.some.inj (leftConverts.symm.trans firstConverts)
  obtain rfl := Option.some.inj (rightConverts.symm.trans secondConverts)
  exact parts

/-- Without rounding, the sum is scaled as it is on the rationals. -/
theorem AddsExactly.beq_iff (exact : a.AddsExactly b unit) {m n f h g : ℚ}
    (same : (a.unit.base == unit.base) = true) (otherSame : (b.unit.base == unit.base) = true)
    (first : a.Scales unit m f g) (second : b.Scales unit n h g) :
    ((a.magnitude + b.magnitude) * a.unit.factor / unit.factor ==
      a.magnitude * a.unit.factor / unit.factor + b.magnitude * b.unit.factor / unit.factor) = true ↔
      f = h ∨ n = 0 := by
  obtain ⟨p, f', g', scales⟩ := exact.whole.scales same
  obtain ⟨m', n', isM, isN, isSum⟩ := exact.sum
  obtain ⟨x, y, isX, isY, together⟩ :=
    exact.parts _ _ (convert_of_base same) (convert_of_base otherSame)
  obtain rfl := Option.some.inj (first.magnitude.symm.trans isM)
  obtain rfl := Option.some.inj (second.magnitude.symm.trans isN)
  obtain rfl := Option.some.inj (scales.magnitude.symm.trans isSum)
  obtain rfl := Option.some.inj (first.factor.symm.trans scales.factor)
  obtain rfl := Option.some.inj (first.target.symm.trans scales.target)
  obtain rfl := Option.some.inj (first.converted.symm.trans isX)
  obtain rfl := Option.some.inj (second.converted.symm.trans isY)
  rw [Number.beq_iff_rational scales.converted together]
  exact scale_add_iff first.nonzero

/-- Comparison and addition beside conversion, where nothing is rounded. Quantities that are scaled
alike, and not by zero, are equal just if what they are converted to is. Of equal quantities, what
they are converted to is equal just if they are zero or scaled alike. The sum is converted to the sum
of what they are converted to just if the second is zero or they are scaled alike. -/
theorem equals_plus_convert (sameDims : a.sameDims b = true)
    (sameBase : (a.unit.base == b.unit.base) = true) (leftConverts : a.convert unit = some left)
    (rightConverts : b.convert unit = some right) (leftExact : a.ConvertsExactly unit)
    (rightExact : b.ConvertsExactly unit) :
    (a.ScaledAlike b unit → ((a.unit.base == unit.base) = true → (a.unit.factor == 0) = false) →
      (a.equals b = some true ↔ (left.magnitude == right.magnitude) = true)) ∧
    (a.equals b = some true →
      ((left.magnitude == right.magnitude) = true ↔
        a.ScaledAlike b unit ∨ (a.magnitude == 0) = true)) ∧
    ∃ sum total, a.plus b = some sum ∧ sum.convert unit = some total ∧
      (a.AddsExactly b unit →
        ((total.magnitude == left.magnitude + right.magnitude) = true ↔
          a.ScaledAlike b unit ∨ (b.magnitude == 0) = true)) := by
  rw [equals_eq_some sameDims]
  have plus := plus_of_sameDims sameDims
  cases base : a.unit.base == unit.base with
  | true =>
      have otherBase := BEq.trans (BEq.symm sameBase) base
      obtain ⟨m, f, g, first⟩ := leftExact.scales base
      obtain ⟨n, h, g', second⟩ := rightExact.scales otherBase
      obtain rfl := Option.some.inj (first.target.symm.trans second.target)
      rw [convert_of_base base] at leftConverts
      rw [convert_of_base otherBase] at rightConverts
      cases leftConverts
      cases rightConverts
      have alike : a.ScaledAlike b unit ↔ f = h := by
        rw [ScaledAlike, forall_prop_of_true base, Number.beq_iff_rational first.factor second.factor]
      have factor : (a.unit.factor == 0) = false ↔ f ≠ 0 := by
        rw [← Bool.not_eq_true, ← Number.rational?_eq_zero, first.factor, ne_eq, Option.some.injEq]
      simp only [Number.beq_iff_rational first.magnitude second.magnitude, alike, forall_true_left,
        Number.beq_iff_rational first.converted second.converted, div_left_inj' first.nonzero, factor,
        ← Number.rational?_eq_zero, first.magnitude, second.magnitude, Option.some.injEq]
      refine ⟨?_, ?_, _, _, plus, convert_of_base base, ?_⟩
      · rintro rfl notZero
        exact (mul_left_inj' notZero).symm
      · rintro rfl
        exact mul_eq_mul_left_iff
      · exact fun exact => exact.beq_iff base otherBase first second
  | false =>
      have otherBase : (b.unit.base == unit.base) = false := by
        rw [← Bool.not_eq_true]
        intro same
        rw [BEq.trans sameBase same] at base
        cases base
      rw [a.convert_of_not_base base] at leftConverts
      rw [b.convert_of_not_base otherBase] at rightConverts
      obtain ⟨plain, ⟨⟩⟩ := Option.ite_none_right_eq_some.mp leftConverts
      obtain ⟨-, ⟨⟩⟩ := Option.ite_none_right_eq_some.mp rightConverts
      have alike : a.ScaledAlike b unit := by simp [ScaledAlike, base]
      have converts : convert ⟨a.magnitude + b.magnitude, a.unit⟩ unit =
          some ⟨a.magnitude + b.magnitude, unit⟩ :=
        (convert_of_not_base ⟨a.magnitude + b.magnitude, a.unit⟩ base).trans (if_pos plain)
      refine ⟨fun _ _ => Iff.rfl, ?_, _, _, plus, converts, ?_⟩
      · exact fun equal => ⟨fun _ => .inl alike, fun _ => equal⟩
      · intro exact
        obtain ⟨r, s, -, -, isSum⟩ := exact.sum
        exact ⟨fun _ => .inl alike, fun _ => (Number.beq_iff_rational isSum isSum).mpr rfl⟩

/-- Three kilometres and two kilometres, in metres. -/
theorem kilometres_equals_plus_convert :
    let metre := Measure.fresh "m"
    let kilometres (x : Float) : Quantity := ⟨x, Dimensions.single "km", Dimensions.single "m", 1000⟩
    let left : Quantity := ⟨3 * 1000 / 1, metre⟩
    let right : Quantity := ⟨2 * 1000 / 1, metre⟩
    (kilometres 3).sameDims (kilometres 2) = true ∧
    ((kilometres 3).unit.base == (kilometres 2).unit.base) = true ∧
    (kilometres 3).convert metre = some left ∧ (kilometres 2).convert metre = some right ∧
    (kilometres 3).ConvertsExactly metre ∧ (kilometres 2).ConvertsExactly metre ∧
    ((kilometres 3).equals (kilometres 2) = some true ↔ (left.magnitude == right.magnitude) = true) ∧
    ∃ sum total, (kilometres 3).plus (kilometres 2) = some sum ∧ sum.convert metre = some total ∧
      (total.magnitude == left.magnitude + right.magnitude) = true := by
  intro metre kilometres left right
  have sameDims : (kilometres 3).sameDims (kilometres 2) = true := by decide +kernel
  have sameBase : ((kilometres 3).unit.base == (kilometres 2).unit.base) = true := by decide +kernel
  have leftConverts : (kilometres 3).convert metre = some left := convert_of_base (by decide +kernel)
  have rightConverts : (kilometres 2).convert metre = some right :=
    convert_of_base (by decide +kernel)
  have leftExact : (kilometres 3).ConvertsExactly metre := by decide +kernel
  have rightExact : (kilometres 2).ConvertsExactly metre := by decide +kernel
  have alike : (kilometres 3).ScaledAlike (kilometres 2) metre := fun _ => by decide +kernel
  have exact : (kilometres 3).AddsExactly (kilometres 2) metre :=
    .of_converts leftConverts rightConverts (by decide +kernel) (by decide +kernel)
      (by decide +kernel)
  obtain ⟨equality, -, sum, total, plus, converts, addition⟩ :=
    equals_plus_convert sameDims sameBase leftConverts rightConverts leftExact rightExact
  exact ⟨sameDims, sameBase, leftConverts, rightConverts, leftExact, rightExact,
    equality alike fun _ => by decide +kernel, sum, total, plus, converts,
    (addition exact).mpr (.inl alike)⟩

end Quantity

/-- Three doubled metres are as much as three metres when they are compared, and twice as much when
they are converted. No operation is rounded, and the dimensions and base dimensions are equal. -/
theorem doubled_metres_equal_metres :
    let here := Location.nowhere
    let metre := Measure.fresh "m"
    let doubled : Quantity := ⟨3, metre.withFactor (2 * 1)⟩
    let single : Quantity := ⟨3, metre⟩
    (Expr.ascription here (.number here 3)
      (.paren here (.binary here .times (.number here 2) (.name here "m")))).eval
        Context.prelude.getValue? = .ok (.quantity doubled) ∧
    (Expr.ascription here (.number here 3) (.name here "m")).eval Context.prelude.getValue? =
      .ok (.quantity single) ∧
    doubled.sameDims single = true ∧ (doubled.unit.base == single.unit.base) = true ∧
    doubled.ConvertsExactly metre ∧ single.ConvertsExactly metre ∧
    doubled.AddsExactly single metre ∧
    ∃ left right sum total, doubled.convert metre = some left ∧ single.convert metre = some right ∧
      doubled.plus single = some sum ∧ sum.convert metre = some total ∧
      doubled.equals single = some true ∧ (left.magnitude == right.magnitude) = false ∧
      (total.magnitude == left.magnitude + right.magnitude) = false := by
  intro here metre doubled single
  have leftConverts : doubled.convert metre = some ⟨3 * (2 * 1) / 1, metre⟩ :=
    Quantity.convert_of_base (by decide +kernel)
  have rightConverts : single.convert metre = some ⟨3 * 1 / 1, metre⟩ :=
    Quantity.convert_of_base (by decide +kernel)
  have sameDims : doubled.sameDims single = true := by decide +kernel
  have exact : doubled.AddsExactly single metre :=
    .of_converts leftConverts rightConverts (by decide +kernel) (by decide +kernel)
      (by decide +kernel)
  exact ⟨rfl, rfl, sameDims, by decide +kernel, by decide +kernel, by decide +kernel, exact, _, _, _, _,
    leftConverts, rightConverts, Quantity.plus_of_sameDims sameDims,
    Quantity.convert_of_base (by decide +kernel), by decide +kernel, by decide +kernel,
    by decide +kernel⟩

end Quantities
