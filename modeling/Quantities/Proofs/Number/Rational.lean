import Mathlib
import Quantities.Number

/-!
Finite floating-point numbers as rationals. A number of the format has a full mantissa, unless its
exponent is the least one, and so no two numbers stand for one rational, apart from the two zeros.
-/

namespace Quantities

open Float.Model

namespace Number

/-- The rational that an unpacked number stands for, if it is finite. -/
def unpackedRational? : UnpackedFloat → Option ℚ
  | .finite sign mantissa exponent _ => some (sign.apply mantissa * 2 ^ exponent)
  | .zero _ => some 0
  | .infinity _ | .notANumber => none

/-- The rational that a number stands for, if it is finite. -/
def rational? (x : Float) : Option ℚ := unpackedRational? x.toModel.unpack

/-- Mantissas and exponents of the finite numbers of the format. -/
structure Canonical (mantissa : ℕ) (exponent : ℤ) : Prop where
  bits : mantissa < 2 ^ 53
  least : -1074 ≤ exponent
  most : exponent ≤ 971
  full : 2 ^ 52 ≤ mantissa ∨ exponent = -1074

theorem toNat_implicit_append (fraction : BitVec 52) :
    (1#1 ++ fraction).toNat = 2 ^ 52 + fraction.toNat := by
  rw [BitVec.toNat_append, ← Nat.shiftLeft_add_eq_or_of_lt fraction.isLt]
  simp [Nat.shiftLeft_eq]

theorem bias_eq : ((Format.binary64.exponentBias : ℕ) : ℤ) = 1023 := rfl

theorem canonical_of_unpack {bits : BitVec Format.binary64.numBits} {sign : UnpackedFloat.Sign}
    {mantissa : ℕ} {exponent : ℤ} {positive : 0 < mantissa}
    (finite : UnpackedFloat.unpack .binary64 bits = .finite sign mantissa exponent positive) :
    Canonical mantissa exponent := by
  have fraction : (UnpackedFloat.unpackMantissa bits).toNat < 2 ^ 52 := BitVec.isLt _
  have field : (UnpackedFloat.unpackExponent bits).toNat < 2 ^ 11 := BitVec.isLt _
  unfold UnpackedFloat.unpack at finite
  simp only [bias_eq] at finite
  split at finite
  next => split at finite <;> cases finite
  next finiteField =>
    split at finite
    next least =>
      split at finite
      next => cases finite
      next =>
        cases finite
        rw [least]
        exact ⟨by omega, by simp, by simp, .inr (by simp)⟩
    next normal =>
      cases finite
      rw [toNat_implicit_append]
      simp [BitVec.toNat_eq] at finiteField normal
      exact ⟨by omega, by simp; omega, by simp; omega, .inl (by omega)⟩

theorem unpack_pack {sign : UnpackedFloat.Sign} {mantissa : ℕ} {exponent : ℤ}
    (positive : 0 < mantissa) (canonical : Canonical mantissa exponent)
    (full : 2 ^ 52 ≤ mantissa) :
    UnpackedFloat.unpack .binary64 (UnpackedFloat.pack .binary64
      (.finite sign mantissa exponent positive)) = .finite sign mantissa exponent positive := by
  have bits := canonical.bits
  have least := canonical.least
  have most := canonical.most
  have log : mantissa.log2 = 52 := (Nat.log2_eq_iff (by omega)).mpr ⟨full, bits⟩
  have biased : (exponent + (Format.binary64.exponentBias : ℤ) + ((52 : ℕ) : ℤ)).toNat =
      (exponent + 1075).toNat := by
    rw [bias_eq]
    omega
  have field : (exponent + 1075).toNat < 2047 ∧ 0 < (exponent + 1075).toNat := by omega
  unfold UnpackedFloat.pack
  simp only [log, biased]
  have size : 52 + 1 = Format.binary64.mantissaBits := rfl
  rw [if_neg (by omega), if_pos size]
  unfold UnpackedFloat.unpack
  simp only [UnpackedFloat.unpackMantissa_packComponents,
    UnpackedFloat.unpackExponent_packComponents, UnpackedFloat.unpackSign_packComponents,
    UnpackedFloat.Sign.ofBitVec_toBitVec]
  have notLast : BitVec.ofNat 11 (exponent + 1075).toNat ≠ -1#11 := by
    intro same
    have := congrArg BitVec.toNat same
    simp at this
    omega
  have notFirst : BitVec.ofNat 11 (exponent + 1075).toNat ≠ 0#11 := by
    intro same
    have := congrArg BitVec.toNat same
    simp at this
    omega
  rw [if_neg notLast, if_neg notFirst]
  congr 1
  · rw [toNat_implicit_append, BitVec.toNat_ofNat]
    omega
  · rw [bias_eq, BitVec.toNat_ofNat]
    simp
    omega

theorem pos_of_finite (sign : UnpackedFloat.Sign) {mantissa : ℕ} (exponent : ℤ)
    (positive : 0 < mantissa) : ((sign.apply mantissa : ℤ) : ℚ) * 2 ^ exponent ≠ 0 := by
  have nonzero : sign.apply mantissa ≠ 0 := by
    cases sign <;> simp [UnpackedFloat.Sign.apply] <;> omega
  positivity

/-- Values that are the same have one sign and one magnitude. -/
theorem sign_and_magnitude {sign other : UnpackedFloat.Sign} {m n : ℕ} {e f : ℤ} (positive : 0 < m)
    (otherPositive : 0 < n)
    (same : ((sign.apply m : ℤ) : ℚ) * 2 ^ e = (other.apply n : ℤ) * 2 ^ f) :
    sign = other ∧ (m : ℚ) * 2 ^ e = n * 2 ^ f := by
  have magnitude : (0 : ℚ) < m * 2 ^ e := by positivity
  have otherMagnitude : (0 : ℚ) < n * 2 ^ f := by positivity
  cases sign <;> cases other <;> simp [UnpackedFloat.Sign.apply] at same ⊢ <;> linarith

theorem Canonical.not_lt {m n : ℕ} {e f : ℤ} (left : Canonical m e) (right : Canonical n f)
    (same : (m : ℚ) * 2 ^ e = n * 2 ^ f) : ¬ e < f := by
  intro less
  obtain ⟨k, rfl⟩ : ∃ k : ℕ, f = e + (k + 1) := ⟨(f - e - 1).toNat, by omega⟩
  have whole : m = n * 2 ^ (k + 1) := by
    rw [zpow_add₀ two_ne_zero, ← mul_assoc, mul_right_comm] at same
    have := mul_right_cancel₀ (zpow_ne_zero e two_ne_zero) same
    exact_mod_cast this
  have double : 2 * n ≤ m := by
    rw [whole, pow_succ]
    nlinarith [Nat.one_le_two_pow (n := k)]
  have := left.bits
  have := left.least
  rcases right.full with full | last <;> omega

theorem Canonical.unique {m n : ℕ} {e f : ℤ} (left : Canonical m e) (right : Canonical n f)
    (same : (m : ℚ) * 2 ^ e = n * 2 ^ f) : m = n ∧ e = f := by
  have exponents : e = f := by
    have := left.not_lt right same
    have := right.not_lt left same.symm
    omega
  subst exponents
  exact ⟨by exact_mod_cast mul_right_cancel₀ (zpow_ne_zero e two_ne_zero) same, rfl⟩

variable {x y : Float}

theorem eq_of_unpack (same : x.toModel.unpack = y.toModel.unpack) : x = y := by
  rw [← Float.toBits_inj, ← UInt64.toBitVec_inj]
  exact (UnpackedFloat.unpack_inj_of_valid x.toModel.valid y.toModel.valid).mp same

theorem eq_of_rational {r : ℚ} (nonzero : r ≠ 0) (left : rational? x = some r)
    (right : rational? y = some r) : x = y := by
  apply eq_of_unpack
  unfold rational? unpackedRational? at left right
  split at left
  next sign m e positive unpacked =>
    split at right
    next other n f otherPositive otherUnpacked =>
      have leftCanonical := canonical_of_unpack unpacked
      have rightCanonical := canonical_of_unpack otherUnpacked
      have same := Option.some.inj (left.trans right.symm)
      obtain ⟨rfl, magnitude⟩ := sign_and_magnitude positive otherPositive same
      obtain ⟨rfl, rfl⟩ := leftCanonical.unique rightCanonical magnitude
      rw [unpacked, otherUnpacked]
    next => exact absurd (Option.some.inj right).symm nonzero
    next => cases right
    next => cases right
  next => exact absurd (Option.some.inj left).symm nonzero
  next => cases left
  next => cases left

theorem unpack_zero : (0 : Float).toModel.unpack = .zero .positive := by
  have bits : (0 : Float).toModel.toBits = 0 := by decide
  rw [Float.Model.unpack, bits]
  rfl

theorem rational?_eq_zero : rational? x = some 0 ↔ (x == 0) = true := by
  change _ ↔ (x.toModel.unpack.beq (0 : Float).toModel.unpack) = true
  rw [UnpackedFloat.beq_iff_ne_notANumber_and_eq, unpack_zero]
  unfold rational? unpackedRational?
  split
  next sign m e positive unpacked =>
    simp only [unpacked, Option.some.injEq]
    exact ⟨fun zero => absurd zero (pos_of_finite sign e positive), by simp⟩
  next sign unpacked => cases sign <;> simp [unpacked]
  next unpacked => simp [unpacked]
  next unpacked => simp [unpacked]

theorem rational?_zero : rational? 0 = some 0 := rational?_eq_zero.mpr (by decide)

theorem beq_iff_rational {r s : ℚ} (left : rational? x = some r) (right : rational? y = some s) :
    (x == y) = true ↔ r = s := by
  by_cases zero : r = 0
  · subst zero
    have isZero := rational?_eq_zero.mp left
    constructor
    · intro same
      have other := rational?_eq_zero.mpr (BEq.trans (BEq.symm same) isZero)
      exact Option.some.inj (other.symm.trans right)
    · rintro rfl
      exact BEq.trans isZero (BEq.symm (rational?_eq_zero.mp right))
  · constructor
    · intro same
      obtain ⟨-, -, rfl | ⟨rfl, rfl⟩ | ⟨rfl, rfl⟩⟩ := Float.beq_iff_ne_nan_and_eq.mp same
      · exact Option.some.inj (left.symm.trans right)
      all_goals
        exact absurd (Option.some.inj (left.symm.trans (rational?_eq_zero.mpr (by decide)))) zero
    · rintro rfl
      obtain rfl := eq_of_rational zero left right
      rw [Float.beq_self_iff]
      rintro rfl
      have : rational? Float.nan = none := by decide
      rw [this] at left
      cases left

end Number

end Quantities
