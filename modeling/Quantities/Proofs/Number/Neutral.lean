import Quantities.Proofs.Number.Whole

/-!
One in products and zero in sums of numbers. What is finite comes out as it was, to the last bit,
apart from a sum with a zero.
-/

namespace Quantities

open Float.Model UnpackedFloat

namespace Number

variable {mantissa : ℕ} {exponent : ℤ}

/-- The exponent that rounding asks for, with zeros behind a mantissa of the format or without. -/
theorem targetExponent_canonical (positive : 0 < mantissa) (canonical : Canonical mantissa exponent)
    (count : ℕ) : Format.binary64.targetExponent
      (totalExponent (mantissa * 2 ^ count) (exponent - count)) = exponent := by
  have log := log2_mul_two_pow positive count
  have high : mantissa.log2 < 53 := (Nat.log2_lt positive.ne').mpr canonical.bits
  have low : 52 ≤ mantissa.log2 ∨ exponent = -1074 :=
    canonical.full.imp_left (Nat.le_log2 positive.ne').mpr
  have least := canonical.least
  have bits : (Format.binary64.mantissaBits : ℤ) = 53 := rfl
  have minimal : Format.binary64.minExponent = -1074 := rfl
  rw [totalExponent, Format.targetExponent, bits, minimal, log]
  omega

theorem shiftToTargetExponent_canonical (positive : 0 < mantissa)
    (canonical : Canonical mantissa exponent) (count : ℕ) :
    shiftToTargetExponent .binary64 (mantissa * 2 ^ count) (exponent - count) .exact =
      (⟨mantissa, false, false⟩, exponent) := by
  have amount : (exponent - (exponent - count)).toNat = count := by omega
  have shifted := repeat_shiftRightOne_mul mantissa count 0
  rw [Nat.add_zero, pow_zero, mul_one] at shifted
  rw [shiftToTargetExponent, targetExponent_canonical positive canonical, shiftToExponent]
  simp only [amount]
  exact Prod.ext shifted (by simp)

theorem roundWithAccuracy_canonical (sign : Sign) (positive : 0 < mantissa)
    (canonical : Canonical mantissa exponent) (count : ℕ) :
    roundWithAccuracy .binary64 sign (mantissa * 2 ^ count) (exponent - count) .exact =
      .finite sign mantissa exponent positive := by
  have first := shiftToTargetExponent_canonical positive canonical count
  have second := shiftToTargetExponent_canonical positive canonical 0
  rw [pow_zero, mul_one, Nat.cast_zero, sub_zero] at second
  exact roundWithAccuracy_eq first second positive

theorem unpack_one : (1 : Float).toModel.unpack = .finite .positive (2 ^ 52) (-52) (by norm_num) := by
  have bits : (1 : Float).toModel.toBits = 0x3FF0000000000000 := by decide
  rw [Float.Model.unpack, bits]
  rfl

variable {x : Float}

theorem one_mul_of_finite (finite : x.isFinite = true) : 1 * x = x := by
  apply eq_of_unpack
  change UnpackedFloat.unpack .binary64 (UnpackedFloat.pack .binary64
    (UnpackedFloat.mul .binary64 (1 : Float).toModel.unpack x.toModel.unpack)) = _
  have repacked := unpack_pack_unpack x
  change x.toModel.unpack.isFinite = true at finite
  rw [unpack_one]
  cases unpacked : x.toModel.unpack with
  | finite sign mantissa exponent positive =>
      have canonical := canonical_of_unpack unpacked
      have exponents : -52 + exponent = exponent - (52 : ℕ) := by omega
      rw [unpacked] at repacked
      rw [UnpackedFloat.mul, mul_comm (2 ^ 52), exponents,
        roundWithAccuracy_canonical _ positive canonical]
      cases sign <;> exact repacked
  | zero sign =>
      rw [unpacked] at repacked
      cases sign <;> exact repacked
  | infinity sign | notANumber =>
      rw [unpacked] at finite
      cases finite

/-- Minus zero is the one finite number that is lost in a sum with zero. -/
theorem zero_add_of_nonzero (finite : x.isFinite = true) (nonzero : (x == 0) = false) :
    0 + x = x := by
  have sum := rational?_zero_add x
  cases value : rational? x with
  | none =>
      change x.toModel.unpack.isFinite = true at finite
      unfold rational? unpackedRational? at value
      split at value <;> simp_all [UnpackedFloat.isFinite]
  | some r =>
      rw [value] at sum
      refine eq_of_rational ?_ sum value
      rintro rfl
      rw [rational?_eq_zero.mp value] at nonzero
      cases nonzero

end Number

end Quantities
