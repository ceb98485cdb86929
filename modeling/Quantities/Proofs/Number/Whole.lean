import Quantities.Proofs.Number.Rounding

/-!
Whole numbers below `2 ^ 53`. A sum or product of them that is one again is exact.
-/

namespace Quantities

open Float.Model UnpackedFloat

namespace Number

/-- A whole number below `2 ^ 53`. -/
structure Whole (x : Float) (value : ℤ) : Prop where
  rational : rational? x = some ↑value
  small : |value| < 2 ^ 53

theorem magnitude_eq {sign : Sign} {mantissa : ℕ} {exponent value : ℤ}
    (same : (sign.apply mantissa : ℚ) * 2 ^ exponent = value) :
    (mantissa : ℚ) * 2 ^ exponent = value.natAbs := by
  have := congrArg (|·|) same
  rw [abs_mul, ← Int.cast_abs, abs_apply, abs_of_pos (by positivity)] at this
  rw [Nat.cast_natAbs]
  exact_mod_cast this

theorem Canonical.exponent_nonpos {mantissa n : ℕ} {exponent : ℤ}
    (canonical : Canonical mantissa exponent) (magnitude : (mantissa : ℚ) * 2 ^ exponent = n)
    (small : n < 2 ^ 53) : exponent ≤ 0 := by
  by_contra other
  have scale : (2 : ℚ) ^ (1 : ℤ) ≤ 2 ^ exponent := zpow_le_zpow_right₀ (by norm_num) (by omega)
  have full : (2 ^ 52 : ℚ) ≤ mantissa := by
    exact_mod_cast canonical.full.resolve_right (by omega)
  have large : (2 ^ 53 : ℚ) ≤ n := by
    rw [← magnitude]
    calc (2 ^ 53 : ℚ) = 2 ^ 52 * 2 ^ (1 : ℤ) := by norm_num
      _ ≤ _ := mul_le_mul full scale (by norm_num) (by positivity)
  have large : 2 ^ 53 ≤ n := by exact_mod_cast large
  omega

/-- A whole number other than zero has all of its bits, some of them zeros after the point. -/
theorem Whole.unpack {x : Float} {value : ℤ} (whole : Whole x value) (nonzero : value ≠ 0) :
    ∃ (sign : Sign) (n k : ℕ) (positive : 0 < n * 2 ^ k), sign.apply n = value ∧
      52 ≤ n.log2 + k ∧ x.toModel.unpack = .finite sign (n * 2 ^ k) (-k) positive := by
  obtain ⟨rational, small⟩ := whole
  unfold rational? unpackedRational? at rational
  split at rational
  next sign mantissa exponent positive unpacked =>
    have canonical := canonical_of_unpack unpacked
    have same : (sign.apply mantissa : ℚ) * 2 ^ exponent = value := Option.some.inj rational
    have magnitude := magnitude_eq same
    have less : value.natAbs < 2 ^ 53 := by
      have := Int.natCast_natAbs value
      omega
    have fraction := canonical.exponent_nonpos magnitude less
    obtain ⟨k, rfl⟩ : ∃ k : ℕ, exponent = -k := ⟨exponent.natAbs, by omega⟩
    obtain rfl : mantissa = value.natAbs * 2 ^ k := by
      have scaled := mul_two_pow_neg value.natAbs k
      have bits := mul_right_cancel₀ (zpow_ne_zero _ two_ne_zero) (magnitude.trans scaled.symm)
      exact_mod_cast bits
    have some : 0 < value.natAbs := by omega
    refine ⟨sign, value.natAbs, k, positive, ?_, ?_, unpacked⟩
    · have apart : (sign.apply value.natAbs : ℚ) = value := by
        rw [← same, apply_mul]
        push_cast
        rw [mul_two_pow_neg]
      exact_mod_cast apart
    · rw [← log2_mul_two_pow some]
      refine (Nat.le_log2 positive.ne').mpr (canonical.full.resolve_right ?_)
      intro last
      have bits := canonical.bits
      have : 2 ^ k ≤ value.natAbs * 2 ^ k := Nat.le_mul_of_pos_left _ some
      have : 2 ^ 53 < 2 ^ k := Nat.pow_lt_pow_right (by norm_num) (by omega)
      omega
  next => exact absurd (by exact_mod_cast (Option.some.inj rational).symm) nonzero
  next => cases rational
  next => cases rational

theorem Whole.unpack_zero {x : Float} (whole : Whole x 0) :
    ∃ sign, x.toModel.unpack = .zero sign := by
  have zero := whole.rational
  unfold rational? unpackedRational? at zero
  split at zero
  next sign mantissa exponent positive unpacked =>
    exact absurd (Option.some.inj zero) (by simpa using pos_of_finite sign exponent positive)
  next sign unpacked => exact ⟨sign, unpacked⟩
  next => cases zero
  next => cases zero

theorem unpack_pack_unpack (x : Float) :
    UnpackedFloat.unpack .binary64 (UnpackedFloat.pack .binary64 x.toModel.unpack) =
      x.toModel.unpack :=
  congrArg (UnpackedFloat.unpack .binary64) (pack_unpack_of_valid x.toModel.valid)

variable {x y : Float} {a b : ℤ}

theorem Whole.keeps (whole : Whole x a) : Keeps a x.toModel.unpack := by
  unfold Keeps
  rw [unpack_pack_unpack]
  exact ⟨fun _ => whole.rational, fun large => absurd whole.small (not_lt.mpr large)⟩

theorem keeps_add (left : Whole x a) (right : Whole y b) :
    Keeps (a + b) (UnpackedFloat.add .binary64 x.toModel.unpack y.toModel.unpack) := by
  by_cases leftZero : a = 0
  · subst leftZero
    obtain ⟨sign, unpacked⟩ := left.unpack_zero
    by_cases rightZero : b = 0
    · subst rightZero
      obtain ⟨other, otherUnpacked⟩ := right.unpack_zero
      rw [unpacked, otherUnpacked, UnpackedFloat.add]
      split <;> exact keeps_zero _
    · have keeps := right.keeps
      obtain ⟨other, n, k, positive, -, -, otherUnpacked⟩ := right.unpack rightZero
      rw [otherUnpacked] at keeps
      rw [unpacked, otherUnpacked, zero_add]
      exact keeps
  · by_cases rightZero : b = 0
    · subst rightZero
      obtain ⟨other, otherUnpacked⟩ := right.unpack_zero
      have keeps := left.keeps
      obtain ⟨sign, n, k, positive, -, -, unpacked⟩ := left.unpack leftZero
      rw [unpacked] at keeps
      rw [unpacked, otherUnpacked, add_zero]
      exact keeps
    · obtain ⟨sign, n, k, positive, rfl, -, unpacked⟩ := left.unpack leftZero
      obtain ⟨other, m, l, otherPositive, rfl, -, otherUnpacked⟩ := right.unpack rightZero
      have smaller : min (-k : ℤ) (-l) = -(max k l : ℕ) := by omega
      have sum : sign.apply (n * 2 ^ max k l : ℕ) + other.apply (m * 2 ^ max k l : ℕ) =
          (sign.apply n + other.apply m) * 2 ^ max k l := by
        rw [apply_mul, apply_mul]
        push_cast
        ring
      rw [unpacked, otherUnpacked]
      simp only [UnpackedFloat.add, smaller, decreaseExponent_eq (le_max_left k l),
        decreaseExponent_eq (le_max_right k l), sum]
      exact keeps_normalize _ _

theorem keeps_mul (left : Whole x a) (right : Whole y b) :
    Keeps (a * b) (UnpackedFloat.mul .binary64 x.toModel.unpack y.toModel.unpack) := by
  by_cases leftZero : a = 0
  · subst leftZero
    obtain ⟨sign, unpacked⟩ := left.unpack_zero
    rw [unpacked, zero_mul]
    by_cases rightZero : b = 0
    · subst rightZero
      obtain ⟨other, otherUnpacked⟩ := right.unpack_zero
      rw [otherUnpacked]
      exact keeps_zero _
    · obtain ⟨other, n, k, positive, -, -, otherUnpacked⟩ := right.unpack rightZero
      rw [otherUnpacked]
      exact keeps_zero _
  · obtain ⟨sign, n, k, positive, rfl, enough, unpacked⟩ := left.unpack leftZero
    rw [unpacked]
    by_cases rightZero : b = 0
    · subst rightZero
      obtain ⟨other, otherUnpacked⟩ := right.unpack_zero
      rw [otherUnpacked, mul_zero]
      exact keeps_zero _
    · obtain ⟨other, m, l, otherPositive, rfl, -, otherUnpacked⟩ := right.unpack rightZero
      have product : n * 2 ^ k * (m * 2 ^ l) = n * m * 2 ^ (k + l) := by ring
      have exponent : (-k : ℤ) + (-l) = -(k + l : ℕ) := by omega
      have some : 0 < n * m :=
        Nat.mul_pos (Nat.pos_of_mul_pos_right positive) (Nat.pos_of_mul_pos_right otherPositive)
      have log : n.log2 ≤ (n * m).log2 := by
        refine (Nat.le_log2 some.ne').mpr (le_trans (Nat.log2_self_le ?_) ?_)
        · exact (Nat.pos_of_mul_pos_right positive).ne'
        · exact Nat.le_mul_of_pos_right _ (Nat.pos_of_mul_pos_right otherPositive)
      rw [otherUnpacked, apply_mul_apply]
      simp only [UnpackedFloat.mul, product, exponent]
      exact keeps_roundWithAccuracy some (by omega)

theorem Keeps.eq {value result : ℤ} {unpacked : UnpackedFloat} (keeps : Keeps value unpacked)
    (whole : Whole (.ofModel (.pack unpacked)) result) : result = value := by
  have small : |value| < 2 ^ 53 := by
    by_contra large
    have := keeps.2 (not_lt.mp large) result whole.rational
    exact absurd whole.small (not_lt.mpr (by exact_mod_cast this))
  have := Option.some.inj (whole.rational.symm.trans (keeps.1 small))
  exact_mod_cast this

theorem Whole.add {c : ℤ} (left : Whole x a) (right : Whole y b) (sum : Whole (x + y) c) :
    c = a + b := (keeps_add left right).eq sum

theorem Whole.mul {c : ℤ} (left : Whole x a) (right : Whole y b) (product : Whole (x * y) c) :
    c = a * b := (keeps_mul left right).eq product

theorem Whole.mul_small (left : Whole x a) (right : Whole y b) (small : |a * b| < 2 ^ 53) :
    Whole (x * y) (a * b) := ⟨(keeps_mul left right).1 small, small⟩

theorem Whole.eq {value : ℤ} (left : Whole x a) (right : Whole x value) : a = value := by
  have := Option.some.inj (left.rational.symm.trans right.rational)
  exact_mod_cast this

theorem Whole.unique (left : Whole x a) (right : Whole y a) (nonzero : a ≠ 0) : x = y :=
  eq_of_rational (by exact_mod_cast nonzero) left.rational right.rational

theorem whole_zero_iff : Whole x 0 ↔ (x == 0) = true := by
  rw [← rational?_eq_zero]
  exact ⟨fun whole => by simpa using whole.rational, fun zero => ⟨by simpa using zero, by norm_num⟩⟩

theorem whole_zero : Whole 0 0 := whole_zero_iff.mpr (by decide)

theorem whole_one : Whole 1 1 := ⟨by decide +kernel, by norm_num⟩

theorem whole_neg_one : Whole (-1) (-1) := ⟨by decide +kernel, by norm_num⟩

theorem rational?_zero_add (z : Float) : rational? (0 + z) = rational? z := by
  change unpackedRational? (UnpackedFloat.unpack .binary64 (UnpackedFloat.pack .binary64
    (UnpackedFloat.add .binary64 (0 : Float).toModel.unpack z.toModel.unpack))) = _
  have repacked := unpack_pack_unpack z
  rw [Number.unpack_zero, rational?]
  cases unpacked : z.toModel.unpack with
  | zero sign =>
      rw [UnpackedFloat.add]
      split <;> simp [UnpackedFloat.pack, unpackedRational?]
  | notANumber | infinity sign | finite sign mantissa exponent positive =>
      rw [unpacked] at repacked
      exact congrArg unpackedRational? repacked

theorem Whole.of_zero_add {z : Float} (sum : Whole (0 + z) a) : Whole z a :=
  ⟨rational?_zero_add z ▸ sum.rational, sum.small⟩

end Number

end Quantities
