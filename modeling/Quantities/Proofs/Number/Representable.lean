import Quantities.Proofs.Number.Neutral

/-!
Sums and products that are numbers of the format. They are not rounded, and so calculating with whole
numbers is exact as long as none is over `2 ^ 53`.
-/

namespace Quantities

open Float.Model UnpackedFloat

namespace Number

variable {sign : Sign} {m mantissa : ℕ} {e exponent : ℤ}

/-- Of two magnitudes that are the same, the one with the smaller exponent has zeros behind it. -/
theorem shifted_of_le (same : (m : ℚ) * 2 ^ e = mantissa * 2 ^ exponent) (below : e ≤ exponent) :
    ∃ count : ℕ, m = mantissa * 2 ^ count ∧ e = exponent - count := by
  obtain ⟨count, rfl⟩ := Int.le.dest below
  rw [zpow_add₀ two_ne_zero, ← mul_assoc, mul_right_comm] at same
  have bits := mul_right_cancel₀ (zpow_ne_zero e two_ne_zero) same
  exact ⟨count, by exact_mod_cast bits, by omega⟩

/-- A magnitude of the format is its own rounding, however it is written. -/
theorem round_canonical (sign : Sign) (positive : 0 < mantissa)
    (canonical : Canonical mantissa exponent)
    (same : (m : ℚ) * 2 ^ e = mantissa * 2 ^ exponent) :
    round .binary64 sign m e = .finite sign mantissa exponent positive := by
  rcases le_total e exponent with below | above
  · obtain ⟨count, rfl, rfl⟩ := shifted_of_le same below
    have target := targetExponent_canonical positive canonical count
    have amount : (exponent - count - exponent).toNat = 0 := by omega
    have exact := roundWithAccuracy_canonical sign positive canonical count
    unfold UnpackedFloat.round
    simp only [target, decreaseExponent, amount, Nat.shiftLeft_zero, Nat.cast_zero, sub_zero]
    exact exact
  · obtain ⟨count, rfl, rfl⟩ := shifted_of_le same.symm above
    have target := targetExponent_canonical positive canonical 0
    have some : 0 < m := Nat.pos_of_mul_pos_right positive
    have total : totalExponent (m * 2 ^ count * 2 ^ 0) (e - count - (0 : ℕ)) =
        totalExponent m e := by
      rw [totalExponent, totalExponent, pow_zero, mul_one, log2_mul_two_pow some]
      omega
    have amount : (e - (e - count)).toNat = count := by omega
    have exact := roundWithAccuracy_canonical sign positive canonical 0
    rw [pow_zero, mul_one, Nat.cast_zero, sub_zero] at exact
    rw [total] at target
    unfold UnpackedFloat.round
    simp only [target, decreaseExponent, amount, Nat.shiftLeft_eq]
    exact exact

theorem normalize_canonical {value : ℤ} (positive : 0 < mantissa)
    (canonical : Canonical mantissa exponent) (zeroSign : Sign)
    (same : (value : ℚ) * 2 ^ e = sign.apply mantissa * 2 ^ exponent) :
    normalize .binary64 value e zeroSign = .finite sign mantissa exponent positive := by
  have scale : (0 : ℚ) < 2 ^ e := by positivity
  have magnitude : (0 : ℚ) < mantissa * 2 ^ exponent := by positivity
  cases sign with
  | negative =>
      have opposite : ((-value : ℤ) : ℚ) * 2 ^ e = mantissa * 2 ^ exponent := by
        push_cast [Sign.apply] at same ⊢
        linarith
      have more : 0 < -value := by
        have : (0 : ℚ) < ((-value : ℤ) : ℚ) := by
          rw [← opposite] at magnitude
          exact (mul_pos_iff_of_pos_right scale).mp magnitude
        exact_mod_cast this
      have less : compare value 0 = .lt := Int.compare_eq_lt.mpr (by omega)
      rw [← Int.toNat_of_nonneg more.le, Int.cast_natCast] at opposite
      rw [UnpackedFloat.normalize, less]
      exact round_canonical .negative positive canonical opposite
  | positive =>
      have upright : (value : ℚ) * 2 ^ e = mantissa * 2 ^ exponent := by
        simpa [Sign.apply] using same
      have more : 0 < value := by
        have : (0 : ℚ) < value := by
          rw [← upright] at magnitude
          exact (mul_pos_iff_of_pos_right scale).mp magnitude
        exact_mod_cast this
      have greater : compare value 0 = .gt := Int.compare_eq_gt.mpr more
      rw [← Int.toNat_of_nonneg more.le, Int.cast_natCast] at upright
      rw [UnpackedFloat.normalize, greater]
      exact round_canonical .positive positive canonical upright

variable {x y : Float} {r s : ℚ}

theorem exists_finite (value : rational? x = some r) (nonzero : r ≠ 0) :
    ∃ (sign : Sign) (mantissa : ℕ) (exponent : ℤ) (positive : 0 < mantissa),
      x.toModel.unpack = .finite sign mantissa exponent positive ∧
        r = sign.apply mantissa * 2 ^ exponent := by
  unfold rational? unpackedRational? at value
  split at value
  next sign mantissa exponent positive unpacked =>
    exact ⟨sign, mantissa, exponent, positive, unpacked, (Option.some.inj value).symm⟩
  next => exact absurd (Option.some.inj value).symm nonzero
  next => cases value
  next => cases value

theorem exists_zero (value : rational? x = some 0) : ∃ sign, x.toModel.unpack = .zero sign :=
  (whole_zero_iff.mpr (rational?_eq_zero.mp value)).unpack_zero

theorem unpackedRational?_repacked {unpacked : UnpackedFloat} {z : Float}
    (same : unpacked = z.toModel.unpack) :
    unpackedRational? (unpack .binary64 (pack .binary64 unpacked)) = rational? z := by
  rw [same, unpack_pack_unpack]
  rfl

theorem unpackedRational?_zero (sign : Sign) :
    unpackedRational? (unpack .binary64 (pack .binary64 (.zero sign))) = some 0 := by
  rw [UnpackedFloat.pack, unpack_packedZero]
  rfl

theorem rational?_normalize {value : ℤ} (zeroSign : Sign)
    (representable : ∃ z, rational? z = some ((value : ℚ) * 2 ^ e)) :
    unpackedRational? (unpack .binary64 (pack .binary64
      (normalize .binary64 value e zeroSign))) = some ((value : ℚ) * 2 ^ e) := by
  obtain ⟨z, stands⟩ := representable
  by_cases zero : value = 0
  · have equal : compare value 0 = .eq := Int.compare_eq_eq.mpr zero
    rw [UnpackedFloat.normalize, equal, zero, Int.cast_zero, zero_mul]
    exact unpackedRational?_zero zeroSign
  · obtain ⟨sign, mantissa, exponent, positive, unpacked, parts⟩ :=
      exists_finite stands (mul_ne_zero (by exact_mod_cast zero) (by positivity))
    rw [normalize_canonical positive (canonical_of_unpack unpacked) zeroSign parts,
      unpackedRational?_repacked unpacked.symm, stands]

theorem decreaseExponent_value {lower : ℤ} (below : lower ≤ e) :
    ((decreaseExponent m e lower).1 : ℚ) * 2 ^ lower = m * 2 ^ e := by
  obtain ⟨count, rfl⟩ := Int.le.dest below
  have amount : (lower + count - lower).toNat = count := by omega
  rw [decreaseExponent, amount, Nat.shiftLeft_eq, zpow_add₀ two_ne_zero, zpow_natCast]
  push_cast
  ring

theorem apply_cast (sign : Sign) (n : ℕ) : ((sign.apply n : ℤ) : ℚ) = sign.apply 1 * n := by
  cases sign <;> simp [Sign.apply]

theorem rational?_add_of_nonzero (left : rational? x = some r) (right : rational? y = some s)
    (nonzero : r ≠ 0) (otherNonzero : s ≠ 0) (representable : ∃ z, rational? z = some (r + s)) :
    rational? (x + y) = some (r + s) := by
  obtain ⟨sign, m, e, positive, unpacked, value⟩ := exists_finite left nonzero
  obtain ⟨other, n, f, otherPositive, otherUnpacked, otherValue⟩ := exists_finite right otherNonzero
  have sum : ((sign.apply (decreaseExponent m e (min e f)).1 +
      other.apply (decreaseExponent n f (min e f)).1 : ℤ) : ℚ) * 2 ^ min e f = r + s := by
    rw [Int.cast_add, add_mul, apply_cast, apply_cast, mul_assoc, mul_assoc,
      decreaseExponent_value (min_le_left e f), decreaseExponent_value (min_le_right e f),
      value, otherValue, apply_cast sign m, apply_cast other n, mul_assoc, mul_assoc]
  change unpackedRational? (unpack .binary64 (pack .binary64
    (UnpackedFloat.add .binary64 x.toModel.unpack y.toModel.unpack))) = _
  rw [← sum] at representable
  rw [unpacked, otherUnpacked, UnpackedFloat.add, ← sum]
  exact rational?_normalize .positive representable

/-- A sum of numbers is exact if it is a number of the format. -/
theorem rational?_add (left : rational? x = some r) (right : rational? y = some s)
    (representable : ∃ z, rational? z = some (r + s)) : rational? (x + y) = some (r + s) := by
  by_cases leftZero : r = 0
  · subst leftZero
    obtain ⟨sign, unpacked⟩ := exists_zero left
    change unpackedRational? (unpack .binary64 (pack .binary64
      (UnpackedFloat.add .binary64 x.toModel.unpack y.toModel.unpack))) = _
    by_cases rightZero : s = 0
    · subst rightZero
      obtain ⟨other, otherUnpacked⟩ := exists_zero right
      rw [unpacked, otherUnpacked, UnpackedFloat.add, add_zero]
      split <;> exact unpackedRational?_zero _
    · obtain ⟨other, n, f, otherPositive, otherUnpacked, -⟩ := exists_finite right rightZero
      rw [zero_add, ← right]
      refine unpackedRational?_repacked ?_
      rw [unpacked, otherUnpacked]
      rfl
  · by_cases rightZero : s = 0
    · subst rightZero
      obtain ⟨sign, m, e, positive, unpacked, -⟩ := exists_finite left leftZero
      obtain ⟨other, otherUnpacked⟩ := exists_zero right
      rw [add_zero, ← left]
      refine unpackedRational?_repacked ?_
      rw [unpacked, otherUnpacked]
      rfl
    · exact rational?_add_of_nonzero left right leftZero rightZero representable

/-- The product of two mantissas has all the bits that are asked for, so that some are only lost. -/
theorem exponent_le_of_mul {n : ℕ} {f : ℤ} (left : Canonical m e) (right : Canonical n f)
    (canonical : Canonical mantissa exponent) (positive : 0 < m * n)
    (same : ((m * n : ℕ) : ℚ) * 2 ^ (e + f) = mantissa * 2 ^ exponent) : e + f ≤ exponent := by
  by_contra above
  obtain ⟨count, rfl, rfl⟩ := shifted_of_le same.symm (not_le.mp above).le
  obtain ⟨fewer, rfl⟩ : ∃ fewer, count = fewer + 1 := ⟨count - 1, by omega⟩
  have bits := canonical.bits
  have least := canonical.least
  have double : 2 * (m * n) ≤ m * n * 2 ^ (fewer + 1) := by
    rw [pow_succ]
    nlinarith [Nat.one_le_two_pow (n := fewer)]
  have some := Nat.pos_of_mul_pos_right positive
  have someOther := Nat.pos_of_mul_pos_left positive
  rcases left.full with full | last
  · nlinarith
  · rcases right.full with full | otherLast
    · nlinarith
    · omega

theorem rational?_mul_of_nonzero (left : rational? x = some r) (right : rational? y = some s)
    (nonzero : r ≠ 0) (otherNonzero : s ≠ 0) (representable : ∃ z, rational? z = some (r * s)) :
    rational? (x * y) = some (r * s) := by
  obtain ⟨sign, m, e, positive, unpacked, rfl⟩ := exists_finite left nonzero
  obtain ⟨other, n, f, otherPositive, otherUnpacked, rfl⟩ := exists_finite right otherNonzero
  have product : ((sign.apply m : ℤ) * 2 ^ e : ℚ) * ((other.apply n : ℤ) * 2 ^ f) =
      ((sign * other).apply (m * n : ℕ) : ℤ) * 2 ^ (e + f) := by
    rw [← apply_mul_apply, zpow_add₀ two_ne_zero]
    push_cast
    ring
  obtain ⟨z, stands⟩ := representable
  obtain ⟨signs, mantissa, exponent, some, result, value⟩ :=
    exists_finite stands (mul_ne_zero nonzero otherNonzero)
  obtain ⟨rfl, same⟩ := sign_and_magnitude (Nat.mul_pos positive otherPositive) some
    (product.symm.trans value)
  have canonical := canonical_of_unpack result
  have below := exponent_le_of_mul (canonical_of_unpack unpacked)
    (canonical_of_unpack otherUnpacked) canonical (Nat.mul_pos positive otherPositive) same
  obtain ⟨count, bits, lower⟩ := shifted_of_le same below
  change unpackedRational? (unpack .binary64 (pack .binary64
    (UnpackedFloat.mul .binary64 x.toModel.unpack y.toModel.unpack))) = _
  rw [unpacked, otherUnpacked, UnpackedFloat.mul, ← stands]
  refine unpackedRational?_repacked ?_
  rw [result, bits, lower]
  exact roundWithAccuracy_canonical _ some canonical count

theorem rational?_mul (left : rational? x = some r) (right : rational? y = some s)
    (representable : ∃ z, rational? z = some (r * s)) : rational? (x * y) = some (r * s) := by
  by_cases leftZero : r = 0
  · subst leftZero
    obtain ⟨sign, unpacked⟩ := exists_zero left
    change unpackedRational? (unpack .binary64 (pack .binary64
      (UnpackedFloat.mul .binary64 x.toModel.unpack y.toModel.unpack))) = _
    rw [unpacked, zero_mul]
    by_cases rightZero : s = 0
    · subst rightZero
      obtain ⟨other, otherUnpacked⟩ := exists_zero right
      rw [otherUnpacked]
      exact unpackedRational?_zero (sign * other)
    · obtain ⟨other, n, f, otherPositive, otherUnpacked, -⟩ := exists_finite right rightZero
      rw [otherUnpacked]
      exact unpackedRational?_zero (sign * other)
  · by_cases rightZero : s = 0
    · subst rightZero
      obtain ⟨sign, m, e, positive, unpacked, -⟩ := exists_finite left leftZero
      obtain ⟨other, otherUnpacked⟩ := exists_zero right
      change unpackedRational? (unpack .binary64 (pack .binary64
        (UnpackedFloat.mul .binary64 x.toModel.unpack y.toModel.unpack))) = _
      rw [unpacked, otherUnpacked, mul_zero]
      exact unpackedRational?_zero (sign * other)
    · exact rational?_mul_of_nonzero left right leftZero rightZero representable

theorem exists_of_full (sign : Sign) (canonical : Canonical mantissa exponent)
    (full : 2 ^ 52 ≤ mantissa) :
    ∃ z, rational? z = some (((sign.apply mantissa : ℤ) : ℚ) * 2 ^ exponent) := by
  have positive : 0 < mantissa := by omega
  refine ⟨.ofModel (.pack (.finite sign mantissa exponent positive)), ?_⟩
  change unpackedRational? (unpack .binary64 (pack .binary64 _)) = _
  rw [unpack_pack positive canonical full]
  rfl

theorem exists_rational {n : ℤ} (small : |n| ≤ 2 ^ 53) : ∃ z, rational? z = some ↑n := by
  obtain ⟨sign, magnitude, rfl⟩ : ∃ (sign : Sign) (magnitude : ℕ), n = sign.apply magnitude := by
    rcases Int.eq_nat_or_neg n with ⟨magnitude, rfl | rfl⟩
    · exact ⟨.positive, magnitude, rfl⟩
    · exact ⟨.negative, magnitude, rfl⟩
  rw [abs_apply] at small
  have small : magnitude ≤ 2 ^ 53 := by exact_mod_cast small
  rcases Nat.eq_zero_or_pos magnitude with rfl | positive
  · exact ⟨0, by cases sign <;> simpa [Sign.apply] using rational?_zero⟩
  rcases small.eq_or_lt with rfl | less
  · have canonical : Canonical (2 ^ 52) 1 := ⟨by norm_num, by norm_num, by norm_num, .inl le_rfl⟩
    obtain ⟨z, stands⟩ := exists_of_full sign canonical le_rfl
    refine ⟨z, stands.trans (congrArg some ?_)⟩
    rw [show 2 ^ 53 = 2 ^ 52 * 2 by norm_num, apply_mul]
    push_cast
    simp
  · have log : magnitude.log2 ≤ 52 := Nat.lt_succ_iff.mp ((Nat.log2_lt positive.ne').mpr less)
    obtain ⟨count, room⟩ : ∃ count, 52 = magnitude.log2 + count := ⟨52 - magnitude.log2, by omega⟩
    have bits := (Nat.log2_eq_iff (by positivity)).mp ((log2_mul_two_pow positive count).trans room.symm)
    have canonical : Canonical (magnitude * 2 ^ count) (-count) :=
      ⟨bits.2, by omega, by omega, .inl bits.1⟩
    obtain ⟨z, stands⟩ := exists_of_full sign canonical bits.1
    refine ⟨z, stands.trans (congrArg some ?_)⟩
    rw [apply_mul]
    push_cast
    exact mul_two_pow_neg _ count

end Number

end Quantities
