import Quantities.Proofs.Dimensions.Group

/-!
The laws of the free abelian group for dimension vectors. Each side of a law holds the same element of
the group, and so the two sides are the same row of entries, in which no zero is left.
-/

namespace Quantities.Dimensions

variable {a b c : Dimensions} {n k : Float} {entries others : List (String × Float)}

theorem Integral.times_assoc (isA : a.Integral) (isB : b.Integral) (isC : c.Integral)
    (front : Fits (a.element + b.element)) (back : Fits (b.element + c.element))
    (whole : Fits (a.element + b.element + c.element)) :
    (a.times b).times c = a.times (b.times c) := by
  have left := (isA.holds.times isB.holds front).times isC.holds whole
  have right := isA.holds.times (isB.holds.times isC.holds back) (by rwa [← add_assoc])
  exact left.unique right (add_assoc _ _ _)

theorem Integral.times_comm (isA : a.Integral) (isB : b.Integral)
    (sum : Fits (a.element + b.element)) : a.times b = b.times a := by
  have right := isB.holds.times isA.holds (by rwa [add_comm])
  exact (isA.holds.times isB.holds sum).unique right (add_comm _ _)

theorem Integral.scalar_times (isA : a.Integral) : scalar.times a = a := by
  have left := Holds.scalar.times isA.holds (by rw [zero_add]; exact isA.holds.fits)
  exact left.unique isA.holds (zero_add _)

theorem times_scalar (a : Dimensions) : a.times scalar = a := rfl

theorem Fits.neg {vector : String →₀ ℤ} (fits : Fits vector) : Fits (-vector) := by
  intro label
  rw [Finsupp.neg_apply, abs_neg]
  exact fits label

theorem Holds.reciprocal {dims : Dimensions} {vector : String →₀ ℤ} (holds : dims.Holds vector) :
    (dims.power (-1)).Holds (-vector) := by
  have value : Number.integer (-1) = -1 :=
    Number.integer_of_rational Number.whole_neg_one.rational
  have integral : Number.Integral (-1) :=
    .of_rational Number.whole_neg_one.rational (by norm_num)
  have opposite : -vector = Number.integer (-1) • vector := by rw [value, neg_one_zsmul]
  rw [opposite]
  exact holds.power integral (opposite ▸ holds.fits.neg)

theorem Integral.divide_eq (isA : a.Integral) (isB : b.Integral)
    (difference : Fits (a.element - b.element)) : a.divide b = a.times (b.power (-1)) := by
  have left := isA.holds.divide isB.holds difference
  have right := isA.holds.times isB.holds.reciprocal (by rwa [← sub_eq_add_neg])
  exact left.unique right (sub_eq_add_neg _ _)

theorem Integral.times_divide (isA : a.Integral) (isB : b.Integral)
    (sum : Fits (a.element + b.element)) : (a.times b).divide b = a := by
  have back : a.element + b.element - b.element = a.element := add_sub_cancel_right _ _
  have left := (isA.holds.times isB.holds sum).divide isB.holds (by rw [back]; exact isA.holds.fits)
  exact left.unique isA.holds back

theorem Integral.power_times (isA : a.Integral) (isB : b.Integral) (isN : Number.Integral n)
    (sum : Fits (a.element + b.element)) (first : Fits (Number.integer n • a.element))
    (second : Fits (Number.integer n • b.element))
    (whole : Fits (Number.integer n • (a.element + b.element))) :
    (a.times b).power n = (a.power n).times (b.power n) := by
  have left := (isA.holds.times isB.holds sum).power isN whole
  have right := (isA.holds.power isN first).times (isB.holds.power isN second)
    (by rwa [← smul_add])
  exact left.unique right (smul_add _ _ _)

theorem Integral.power_divide (isA : a.Integral) (isB : b.Integral) (isN : Number.Integral n)
    (difference : Fits (a.element - b.element)) (first : Fits (Number.integer n • a.element))
    (second : Fits (Number.integer n • b.element))
    (whole : Fits (Number.integer n • (a.element - b.element))) :
    (a.divide b).power n = (a.power n).divide (b.power n) := by
  have left := (isA.holds.divide isB.holds difference).power isN whole
  have right := (isA.holds.power isN first).divide (isB.holds.power isN second)
    (by rwa [← smul_sub])
  exact left.unique right (smul_sub _ _ _)

theorem Integral.power_power (isA : a.Integral) (isN : Number.Integral n) (isK : Number.Integral k)
    (product : |Number.integer n * Number.integer k| ≤ 2 ^ 53)
    (first : Fits (Number.integer n • a.element))
    (whole : Fits ((Number.integer n * Number.integer k) • a.element)) :
    (a.power n).power k = a.power (n * k) := by
  have stands : Number.rational? (n * k) = some ↑(Number.integer n * Number.integer k) := by
    rw [(isN.mul isK product).rational isN.rational isK.rational, Int.cast_mul]
  have value := Number.integer_of_rational stands
  have order : Number.integer k • Number.integer n • a.element =
      (Number.integer n * Number.integer k) • a.element := by rw [mul_comm, mul_smul]
  have left := (isA.holds.power isN first).power isK (order ▸ whole)
  have right := isA.holds.power (.of_rational stands product) (value ▸ whole)
  exact left.unique right (by rw [value, order])

theorem Integral.power_add (isA : a.Integral) (isN : Number.Integral n) (isK : Number.Integral k)
    (sum : |Number.integer n + Number.integer k| ≤ 2 ^ 53)
    (first : Fits (Number.integer n • a.element)) (second : Fits (Number.integer k • a.element))
    (whole : Fits ((Number.integer n + Number.integer k) • a.element)) :
    (a.power n).times (a.power k) = a.power (n + k) := by
  have stands : Number.rational? (n + k) = some ↑(Number.integer n + Number.integer k) := by
    rw [(isN.add isK sum).rational isN.rational isK.rational, Int.cast_add]
  have value := Number.integer_of_rational stands
  have parts := add_smul (Number.integer n) (Number.integer k) a.element
  have left := (isA.holds.power isN first).times (isA.holds.power isK second) (parts ▸ whole)
  have right := isA.holds.power (.of_rational stands sum) (value ▸ whole)
  exact left.unique right (by rw [value, parts])

theorem ofList_of_perm (integral : ∀ entry ∈ entries, Number.Integral entry.2)
    (reordered : others.Perm entries) (fit : SumsFit entries) (otherFit : SumsFit others) :
    ofList entries = ofList others := by
  have left := holds_ofList integral fit
  have right := holds_ofList (fun entry member => integral entry (reordered.subset member)) otherFit
  exact left.unique right (tally_of_perm reordered).symm

theorem ofList_eq_product (integral : ∀ entry ∈ entries, Number.Integral entry.2)
    (fit : SumsFit entries) : ofList entries = product entries :=
  (holds_ofList integral fit).unique (holds_product integral fit) rfl

/-- Dimension vectors are a free abelian group, as long as all exponents are whole numbers of at most
`2 ^ 53` and so are all the sums and products that an equation takes. -/
theorem Integral.group_laws (isA : a.Integral) (isB : b.Integral) (isC : c.Integral)
    (isN : Number.Integral n) (isK : Number.Integral k)
    (integral : ∀ entry ∈ entries, Number.Integral entry.2) (reordered : others.Perm entries) :
    let (u, v, w) := (a.element, b.element, c.element)
    let (p, q) := (Number.integer n, Number.integer k)
    (Fits (u + v) → Fits (v + w) → Fits (u + v + w) →
      (a.times b).times c = a.times (b.times c)) ∧
    (Fits (u + v) → a.times b = b.times a) ∧
    scalar.times a = a ∧ a.times scalar = a ∧
    (Fits (u - v) → a.divide b = a.times (b.power (-1))) ∧
    (Fits (u + v) → (a.times b).divide b = a) ∧
    (Fits (u + v) → Fits (p • u) → Fits (p • v) → Fits (p • (u + v)) →
      (a.times b).power n = (a.power n).times (b.power n)) ∧
    (Fits (u - v) → Fits (p • u) → Fits (p • v) → Fits (p • (u - v)) →
      (a.divide b).power n = (a.power n).divide (b.power n)) ∧
    (|p * q| ≤ 2 ^ 53 → Fits (p • u) → Fits ((p * q) • u) →
      (a.power n).power k = a.power (n * k)) ∧
    (|p + q| ≤ 2 ^ 53 → Fits (p • u) → Fits (q • u) → Fits ((p + q) • u) →
      (a.power n).times (a.power k) = a.power (n + k)) ∧
    (SumsFit entries → SumsFit others → ofList entries = ofList others) ∧
    (SumsFit entries → ofList entries = product entries) :=
  ⟨isA.times_assoc isB isC, isA.times_comm isB, isA.scalar_times, times_scalar a,
    isA.divide_eq isB, isA.times_divide isB, isA.power_times isB isN, isA.power_divide isB isN,
    isA.power_power isN isK, isA.power_add isN isK, ofList_of_perm integral reordered,
    ofList_eq_product integral⟩

/-- The laws at a speed, a force and a time. In the row of entries a label comes up again after it has
cancelled out. -/
theorem speed_group_laws :
    let speed : Dimensions := ⟨[("m", 1), ("s", -1)]⟩
    let force : Dimensions := ⟨[("kg", 1), ("m", 1), ("s", -2)]⟩
    let time : Dimensions := ⟨[("s", 1)]⟩
    let entries : List (String × Float) := [("m", 2), ("s", -1), ("m", -2), ("m", 1)]
    let others : List (String × Float) := [("m", -2), ("m", 1), ("m", 2), ("s", -1)]
    speed.Integral ∧ force.Integral ∧ time.Integral ∧
      (speed.times force).times time = speed.times (force.times time) ∧
      speed.times force = force.times speed ∧
      speed.divide force = speed.times (force.power (-1)) ∧
      (speed.times force).divide force = speed ∧
      (speed.times force).power 2 = (speed.power 2).times (force.power 2) ∧
      (speed.divide force).power 2 = (speed.power 2).divide (force.power 2) ∧
      (speed.power 2).power (-3) = speed.power (2 * -3) ∧
      (speed.power 2).times (speed.power (-3)) = speed.power (2 + -3) ∧
      others.Perm entries ∧ ofList entries = ofList others ∧ ofList entries = product entries := by
  intro speed force time entries others
  have isSpeed : speed.Integral := by decide +kernel
  have isForce : force.Integral := by decide +kernel
  have isTime : time.Integral := by decide +kernel
  have reordered : others.Perm entries := by decide +kernel
  have two : Number.integer 2 = 2 := by decide +kernel
  have minusThree : Number.integer (-3) = -3 := by decide +kernel
  have ofSpeed (label : String) : |speed.element label| ≤ 2 :=
    abs_tally_le 1 (by decide +kernel) label
  have ofForce (label : String) : |force.element label| ≤ 6 :=
    abs_tally_le 2 (by decide +kernel) label
  have ofTime (label : String) : |time.element label| ≤ 1 :=
    abs_tally_le 1 (by decide +kernel) label
  have fits {row : List (String × Float)} (small : ∀ entry ∈ row, |Number.integer entry.2| ≤ 2)
      (few : row.length * 2 ≤ 2 ^ 53) : SumsFit row := sumsFit_of_small small (by exact_mod_cast few)
  obtain ⟨assoc, comm, -, -, quotient, back, powerTimes, powerDivide, powerPower, powerAdd, rows,
    products⟩ := isSpeed.group_laws isForce isTime (n := 2) (k := -3) (by decide +kernel)
      (by decide +kernel) (by decide +kernel) reordered
  rw [two, minusThree] at powerPower powerAdd
  rw [two] at powerTimes powerDivide
  refine ⟨isSpeed, isForce, isTime, assoc ?_ ?_ ?_, comm ?_, quotient ?_, back ?_,
    powerTimes ?_ ?_ ?_ ?_, powerDivide ?_ ?_ ?_ ?_, powerPower (by decide) ?_ ?_,
    powerAdd (by decide) ?_ ?_ ?_, reordered,
    rows (fits (by decide +kernel) (by decide)) (fits (by decide +kernel) (by decide)),
    products (fits (by decide +kernel) (by decide))⟩
  all_goals
    intro label
    have inSpeed := abs_le.mp (ofSpeed label)
    have inForce := abs_le.mp (ofForce label)
    have inTime := abs_le.mp (ofTime label)
    simp only [Finsupp.add_apply, Finsupp.sub_apply, Finsupp.smul_apply, smul_eq_mul, abs_le]
    omega

end Quantities.Dimensions
