import Mathlib
import Quantities.Proofs.Number.Positional

/-!
The reals that round to a number lie between the midpoints to its neighbours, and so no real rounds to
two numbers. The digits of a number are those of a decimal that rounds to it, and so no two finite
numbers are written alike.
-/

namespace Quantities

namespace Binary

/-- The magnitudes of the format: a full mantissa, unless the exponent is the least one. -/
structure Formed (x : Binary) : Prop where
  bits : x.mantissa < 2 ^ 53
  full : 2 ^ 52 ≤ x.mantissa ∧ -1074 ≤ x.exponent ∨ x.exponent = -1074
  near : x.nearBelow = true ↔ x.mantissa = 2 ^ 52 ∧ -1074 < x.exponent

theorem compareDecimal_eq (d : Decimal) (mantissa : Nat) (exponent : Int) :
    compareDecimal d mantissa exponent = compare d.worth (mantissa * 2 ^ exponent : ℚ) := by
  have split (base : ℚ) (positive : base ≠ 0) (power : ℤ) :
      base ^ power.toNat = base ^ power * base ^ (-power).toNat := by
    rw [← zpow_natCast, ← zpow_natCast, ← zpow_add₀ positive]
    congr 1
    omega
  have scale : (0 : ℚ) < 10 ^ (-d.exponent).toNat * 2 ^ (-exponent).toNat := by positivity
  have left : ((d.digits * Nat.pow 10 d.exponent.toNat * Nat.pow 2 (-exponent).toNat : ℕ) : ℚ) =
      d.worth * (10 ^ (-d.exponent).toNat * 2 ^ (-exponent).toNat) := by
    push_cast [Nat.pow_eq]
    rw [split 10 (by norm_num), Decimal.worth]
    ring
  have right : ((mantissa * Nat.pow 2 exponent.toNat * Nat.pow 10 (-d.exponent).toNat : ℕ) : ℚ) =
      mantissa * 2 ^ exponent * (10 ^ (-d.exponent).toNat * 2 ^ (-exponent).toNat) := by
    push_cast [Nat.pow_eq]
    rw [split 2 (by norm_num)]
    ring
  rw [compareDecimal, ← cmp_eq_compare, ← cmp_eq_compare,
    ← (Nat.strictMono_cast (α := ℚ)).cmp_map_eq, left, right]
  exact (strictMono_mul_right_of_pos scale).cmp_map_eq _ _

/-- Four times the midpoint to the neighbour below, in the last place of the number. -/
def below (x : Binary) : Nat := 4 * x.mantissa - (if x.nearBelow then 1 else 2)

/-- Four times the midpoint to the neighbour above. -/
def above (x : Binary) : Nat := 4 * x.mantissa + 2

/-- A decimal that reads back lies between the midpoints, and on one only if the mantissa is even. -/
theorem readsBack_iff {x : Binary} {d : Decimal} : x.readsBack d = true ↔
    ((x.below * 2 ^ (x.exponent - 2) : ℚ) < d.worth ∨
      x.mantissa % 2 = 0 ∧ d.worth = (x.below * 2 ^ (x.exponent - 2) : ℚ)) ∧
    (d.worth < (x.above * 2 ^ (x.exponent - 2) : ℚ) ∨
      x.mantissa % 2 = 0 ∧ d.worth = (x.above * 2 ^ (x.exponent - 2) : ℚ)) := by
  simp only [readsBack, compareDecimal_eq, Bool.and_eq_true, Bool.or_eq_true, beq_iff_eq,
    compare_gt_iff_gt, compare_lt_iff_lt, compare_eq_iff_eq]
  rfl

namespace Formed

variable {x y : Binary}

/-- The midpoint above a number is not over the one below a later number, and if they are one point
then it belongs to at most one of them. -/
theorem apart (left : x.Formed) (right : y.Formed)
    (before : x.exponent < y.exponent ∨ x.exponent = y.exponent ∧ x.mantissa < y.mantissa) :
    ∃ shift : ℕ, y.exponent = x.exponent + shift ∧ x.above ≤ y.below * 2 ^ shift ∧
      (x.above = y.below * 2 ^ shift → x.mantissa % 2 = 1 ∨ y.mantissa % 2 = 1) := by
  have bits := left.bits
  rcases before with less | ⟨same, less⟩
  · obtain ⟨shift, exponent⟩ : ∃ shift : ℕ, y.exponent = x.exponent + (shift + 1 : ℕ) :=
      ⟨(y.exponent - x.exponent - 1).toNat, by omega⟩
    have full : 2 ^ 52 ≤ y.mantissa ∧ -1074 < y.exponent := by
      have := left.full
      have := right.full
      omega
    -- A later exponent has a full mantissa, whose lower midpoint no midpoint above `x` passes.
    have far : 2 ^ 54 - 1 ≤ y.below := by
      unfold below
      split
      next => omega
      next away =>
        have : y.mantissa ≠ 2 ^ 52 := fun least => away (right.near.mpr ⟨least, full.2⟩)
        omega
    have double : 2 * y.below ≤ y.below * 2 ^ (shift + 1) := by
      rw [pow_succ, mul_comm 2, ← mul_assoc]
      exact Nat.mul_le_mul_right 2 (Nat.le_mul_of_pos_right _ (Nat.two_pow_pos shift))
    have upper : x.above = 4 * x.mantissa + 2 := rfl
    exact ⟨shift + 1, exponent, by omega, fun touch => .inl (by omega)⟩
  · refine ⟨0, by omega, ?_, ?_⟩
    all_goals
      rw [pow_zero, mul_one, above, below]
      split <;> omega

/-- No decimal rounds to two numbers. -/
theorem not_before (left : x.Formed) (right : y.Formed) {d other : Decimal}
    (worth : d.worth = other.worth) (reads : x.readsBack d = true)
    (otherReads : y.readsBack other = true) :
    ¬ (x.exponent < y.exponent ∨ x.exponent = y.exponent ∧ x.mantissa < y.mantissa) := by
  intro before
  obtain ⟨shift, exponent, ordered, touch⟩ := left.apart right before
  obtain ⟨-, upper⟩ := readsBack_iff.mp reads
  obtain ⟨lower, -⟩ := readsBack_iff.mp otherReads
  have scale : (0 : ℚ) < 2 ^ (x.exponent - 2) := by positivity
  have moved : (y.below * 2 ^ (y.exponent - 2) : ℚ) =
      (y.below * 2 ^ shift : ℕ) * 2 ^ (x.exponent - 2) := by
    rw [show y.exponent - 2 = shift + (x.exponent - 2) by omega, zpow_add₀ two_ne_zero, zpow_natCast]
    push_cast
    ring
  have ordered : (x.above * 2 ^ (x.exponent - 2) : ℚ) ≤ y.below * 2 ^ (y.exponent - 2) := by
    rw [moved]
    exact mul_le_mul_of_nonneg_right (by exact_mod_cast ordered) scale.le
  rw [← worth] at lower
  -- The decimal is not over the midpoint and not under it, and so it is the midpoint.
  rcases upper with under | ⟨even, on⟩
  · rcases lower with past | ⟨-, on⟩ <;> linarith
  · rcases lower with past | ⟨otherEven, otherOn⟩
    · linarith
    · have meet : x.above = y.below * 2 ^ shift := by
        rw [otherOn, moved] at on
        exact_mod_cast (mul_right_cancel₀ scale.ne' on).symm
      rcases touch meet with odd | odd <;> omega

theorem eq_of_readsBack (left : x.Formed) (right : y.Formed) {d other : Decimal}
    (worth : d.worth = other.worth) (reads : x.readsBack d = true)
    (otherReads : y.readsBack other = true) : x = y := by
  have notBefore := left.not_before right worth reads otherReads
  have notAfter := right.not_before left worth.symm otherReads reads
  have mantissa : x.mantissa = y.mantissa := by omega
  have exponent : x.exponent = y.exponent := by omega
  have near : x.nearBelow = y.nearBelow := by
    rw [Bool.eq_iff_iff, left.near, right.near, mantissa, exponent]
  cases x
  cases y
  simp_all

end Formed

theorem ofFloat_eq (x : Float) :
    ofFloat x =
      let biased : Nat := x.toBits.toNat / 2 ^ 52 % 2 ^ 11
      let fraction : Nat := x.toBits.toNat % 2 ^ 52
      if biased = 0 then ⟨fraction, -1074, false⟩
      else ⟨2 ^ 52 + fraction, (biased : Int) - 1075, fraction == 0 && 1 < biased⟩ := by
  have biased : ((x.toBits >>> 52) &&& 0x7FF).toNat = x.toBits.toNat / 2 ^ 52 % 2 ^ 11 := by
    rw [UInt64.toNat_and, UInt64.toNat_shiftRight, Nat.shiftRight_eq_div_pow]
    exact Nat.and_two_pow_sub_one_eq_mod _ 11
  have fraction : (x.toBits &&& 0xFFFFFFFFFFFFF).toNat = x.toBits.toNat % 2 ^ 52 := by
    rw [UInt64.toNat_and]
    exact Nat.and_two_pow_sub_one_eq_mod _ 52
  rw [ofFloat]
  simp only [biased, fraction]
  rfl

theorem ofFloat_formed (x : Float) : (ofFloat x).Formed := by
  rw [ofFloat_eq]
  simp only
  have field : x.toBits.toNat / 2 ^ 52 % 2 ^ 11 < 2 ^ 11 := Nat.mod_lt _ (by decide)
  have fraction : x.toBits.toNat % 2 ^ 52 < 2 ^ 52 := Nat.mod_lt _ (by decide)
  generalize x.toBits.toNat / 2 ^ 52 % 2 ^ 11 = biased at field ⊢
  generalize x.toBits.toNat % 2 ^ 52 = fraction at fraction ⊢
  split
  next least => exact ⟨by simp only; omega, .inr rfl, by simp⟩
  next normal =>
    refine ⟨by simp only; omega, .inl ⟨by simp only; omega, by simp only; omega⟩, ?_⟩
    simp
    omega

theorem eq_of_ofFloat {x y : Float} (magnitude : ofFloat x = ofFloat y)
    (sign : Number.isNegative x = Number.isNegative y) : x = y := by
  have signs (z : Float) : Number.isNegative z = true ↔ z.toBits.toNat / 2 ^ 63 = 1 := by
    rw [Number.isNegative, beq_iff_eq, ← UInt64.toNat_inj, UInt64.toNat_shiftRight,
      Nat.shiftRight_eq_div_pow]
    rfl
  rw [Bool.eq_iff_iff, signs, signs] at sign
  rw [ofFloat_eq, ofFloat_eq] at magnitude
  rw [← Float.toBits_inj, ← UInt64.toNat_inj]
  have bound := x.toBits.toNat_lt
  have otherBound := y.toBits.toNat_lt
  simp only at magnitude
  split at magnitude <;> split at magnitude
  all_goals
    simp only [Binary.mk.injEq] at magnitude
    omega

theorem worth_exactDecimal (x : Binary) : x.exactDecimal.worth = x.mantissa * 2 ^ x.exponent := by
  unfold exactDecimal Decimal.worth
  split
  next whole =>
    obtain ⟨places, exponent⟩ := Int.eq_ofNat_of_zero_le whole
    simp [exponent]
  next negative =>
    obtain ⟨places, exponent⟩ : ∃ places : ℕ, x.exponent = -places := ⟨(-x.exponent).toNat, by omega⟩
    have halves : (10 : ℚ) ^ places = 5 ^ places * 2 ^ places := by
      rw [← mul_pow]
      norm_num
    simp only [exponent, neg_neg, Int.toNat_natCast, zpow_neg, zpow_natCast,
      Nat.cast_mul, halves]
    push_cast [Nat.pow_eq]
    field_simp

theorem readsBack_exactDecimal {x : Binary} (positive : 0 < x.mantissa) :
    x.readsBack x.exactDecimal = true := by
  have scale : (0 : ℚ) < 2 ^ (x.exponent - 2) := by positivity
  have quarter : (x.mantissa * 2 ^ x.exponent : ℚ) = (4 * x.mantissa : ℕ) * 2 ^ (x.exponent - 2) := by
    rw [zpow_sub₀ two_ne_zero]
    push_cast
    ring
  have lower : x.below < 4 * x.mantissa := by
    unfold below
    split <;> omega
  have upper : 4 * x.mantissa < x.above := by
    unfold above
    omega
  rw [readsBack_iff, worth_exactDecimal, quarter]
  exact ⟨.inl (mul_lt_mul_of_pos_right (by exact_mod_cast lower) scale),
    .inl (mul_lt_mul_of_pos_right (by exact_mod_cast upper) scale)⟩

theorem readsBack_of_nearestOnGrid {x : Binary} {exponent : Int} {d : Decimal}
    (found : x.nearestOnGrid exponent = some d) : x.readsBack d = true := by
  unfold nearestOnGrid at found
  simp only at found
  split at found
  next lower upper =>
    obtain rfl := Option.some.inj found
    split
    · exact lower
    · exact upper
  next lower _ =>
    obtain rfl := Option.some.inj found
    exact lower
  next _ upper =>
    obtain rfl := Option.some.inj found
    exact upper
  next => cases found

theorem readsBack_fewestDigits (x : Binary) : x.readsBack x.fewestDigits = true := by
  unfold fewestDigits
  split
  next zero =>
    have scale : (0 : ℚ) < 2 ^ (x.exponent - 2) := by positivity
    have lower : x.below = 0 := by simp [below, zero]
    have upper : x.above = 2 := by simp [above, zero]
    have nothing : (⟨0, 0⟩ : Decimal).worth = 0 := by simp [Decimal.worth]
    rw [readsBack_iff, lower, upper, nothing]
    exact ⟨.inr ⟨by omega, by simp⟩, .inl (by positivity)⟩
  next nonzero =>
    simp only
    cases found : (List.range 17).findSome? fun count =>
        x.nearestOnGrid (x.decimalSize - (count + 1 : Nat)) with
    | none => exact readsBack_exactDecimal (Nat.pos_of_ne_zero nonzero)
    | some d =>
        obtain ⟨count, -, grid⟩ := List.exists_of_findSome?_eq_some found
        exact readsBack_of_nearestOnGrid grid

end Binary

namespace Number

theorem digits_ne_minus (x : Float) (rest : List Char) : digits x ≠ '-' :: rest := by
  intro same
  have minus := Decimal.positional_characters (Binary.ofFloat x).fewestDigits '-'
    (show '-' ∈ digits x from same ▸ List.mem_cons_self)
  simp [Literal.isDigit] at minus

theorem eq_of_text {x y : Float} (finite : x.isFinite = true) (otherFinite : y.isFinite = true)
    (same : text x = text y) : x = y := by
  have rows := congrArg String.toList same
  rw [text_eq finite, text_eq otherFinite] at rows
  have alike : isNegative x = isNegative y ∧ digits x = digits y := by
    cases negative : isNegative x <;> cases otherNegative : isNegative y <;>
      simp only [negative, otherNegative, if_true, if_false, Bool.false_eq_true] at rows
    · exact ⟨rfl, rows⟩
    · exact absurd rows (digits_ne_minus x _)
    · exact absurd rows.symm (digits_ne_minus y _)
    · exact ⟨rfl, List.tail_eq_of_cons_eq rows⟩
  have magnitude := (Binary.ofFloat_formed x).eq_of_readsBack (Binary.ofFloat_formed y)
    (Decimal.worth_eq_of_positional alike.2) (Binary.readsBack_fewestDigits _)
    (Binary.readsBack_fewestDigits _)
  exact Binary.eq_of_ofFloat magnitude alike.1

end Number

end Quantities
