import Quantities.Proofs.Number.Rational

/-!
Rounding of whole values. A value below `2 ^ 53` fits into a mantissa and is kept, however many zeros
it is written with, and one that is not below is rounded to one that is not.
-/

namespace Quantities

open Float.Model UnpackedFloat

namespace Number

theorem mantissa_repeat_shiftRightOne (count : ℕ) (extended : ExtendedMantissa) :
    (count.repeat ExtendedMantissa.shiftRightOne extended).mantissa =
      extended.mantissa / 2 ^ count := by
  induction count with
  | zero => simp [Nat.repeat]
  | succ count ih =>
      rw [Nat.repeat, ExtendedMantissa.shiftRightOne, ih, Nat.div_div_eq_div_mul, pow_succ]

/-- No bits are lost when those that are shifted out are zeros. -/
theorem repeat_shiftRightOne_mul (mantissa count more : ℕ) :
    (count.repeat ExtendedMantissa.shiftRightOne ⟨mantissa * 2 ^ (count + more), false, false⟩) =
      ⟨mantissa * 2 ^ more, false, false⟩ := by
  induction count generalizing more with
  | zero => simp [Nat.repeat]
  | succ count ih =>
      have moved : count + 1 + more = count + (more + 1) := by omega
      rw [Nat.repeat, moved, ih, ExtendedMantissa.shiftRightOne, pow_succ, ← mul_assoc]
      simp

theorem log2_mul_two_pow {n : ℕ} (positive : 0 < n) (k : ℕ) : (n * 2 ^ k).log2 = n.log2 + k := by
  rw [Nat.log2_eq_iff (by positivity)]
  have lower := Nat.log2_self_le positive.ne'
  have upper := Nat.lt_log2_self (n := n)
  constructor
  · rw [pow_add]
    exact Nat.mul_le_mul_right _ lower
  · rw [add_right_comm, pow_add]
    exact Nat.mul_lt_mul_of_pos_right upper (by positivity)

/-- A mantissa of 53 bits or more is shifted until it has 53. -/
theorem shiftToTargetExponent_eq (mantissa : ℕ) (exponent : ℤ) (enough : 52 ≤ mantissa.log2)
    (least : -1074 ≤ exponent + (mantissa.log2 - 52 : ℕ)) :
    shiftToTargetExponent .binary64 mantissa exponent .exact =
      ((mantissa.log2 - 52).repeat ExtendedMantissa.shiftRightOne ⟨mantissa, false, false⟩,
        exponent + (mantissa.log2 - 52 : ℕ)) := by
  have target : Format.binary64.targetExponent (totalExponent mantissa exponent) =
      exponent + (mantissa.log2 - 52 : ℕ) := by
    have bits : (Format.binary64.mantissaBits : ℤ) = 53 := rfl
    have minimal : Format.binary64.minExponent = -1074 := rfl
    rw [totalExponent, Format.targetExponent, bits, minimal]
    omega
  have amount : (exponent + (mantissa.log2 - 52 : ℕ) - exponent).toNat = mantissa.log2 - 52 := by
    omega
  rw [shiftToTargetExponent, target, shiftToExponent]
  simp only [amount]
  rfl

variable {sign : Sign} {n k : ℕ}

/-- A number is shifted, rounded, and shifted again in case the rounding carried over. -/
theorem roundWithAccuracy_eq {mantissa : ℕ} {exponent next last : ℤ}
    {shifted rounded : ExtendedMantissa}
    (first : shiftToTargetExponent .binary64 mantissa exponent .exact = (shifted, next))
    (second : shiftToTargetExponent .binary64 shifted.roundedMantissa next .exact = (rounded, last))
    (positive : 0 < rounded.mantissa) :
    roundWithAccuracy .binary64 sign mantissa exponent .exact =
      .finite sign rounded.mantissa last positive := by
  unfold roundWithAccuracy
  simp only [first, second, dif_neg positive.ne']

theorem roundWithAccuracy_small (sign : Sign) (positive : 0 < n) (small : n < 2 ^ 53) (enough : 52 ≤ n.log2 + k) :
    ∃ more, 52 = n.log2 + more ∧
      roundWithAccuracy .binary64 sign (n * 2 ^ k) (-k : ℤ) .exact =
        .finite sign (n * 2 ^ more) (-more : ℤ) (by positivity) := by
  have log : n.log2 ≤ 52 := Nat.lt_succ_iff.mp ((Nat.log2_lt positive.ne').mpr small)
  obtain ⟨more, full⟩ : ∃ more, 52 = n.log2 + more := ⟨52 - n.log2, by omega⟩
  obtain ⟨count, rfl⟩ : ∃ count, k = count + more := ⟨k - more, by omega⟩
  have wholeLog := log2_mul_two_pow positive (count + more)
  have restLog := log2_mul_two_pow positive more
  have first : shiftToTargetExponent .binary64 (n * 2 ^ (count + more)) (-(count + more : ℕ) : ℤ)
      .exact = (⟨n * 2 ^ more, false, false⟩, (-more : ℤ)) := by
    rw [shiftToTargetExponent_eq _ _ (by omega) (by omega), wholeLog,
      show n.log2 + (count + more) - 52 = count by omega, repeat_shiftRightOne_mul]
    congr 1
    omega
  have second : shiftToTargetExponent .binary64 (n * 2 ^ more) (-more : ℤ) .exact =
      (⟨n * 2 ^ more, false, false⟩, (-more : ℤ)) := by
    rw [shiftToTargetExponent_eq _ _ (by omega) (by omega), restLog, ← full]
    simp [Nat.repeat]
  exact ⟨more, full, roundWithAccuracy_eq first second (by positivity)⟩

theorem le_roundedMantissa (extended : ExtendedMantissa) :
    extended.mantissa ≤ extended.roundedMantissa := by
  unfold ExtendedMantissa.roundedMantissa Accuracy.roundToNearestEven
  split <;> omega

theorem div_log2_bounds (enough : 52 ≤ n.log2) :
    2 ^ 52 ≤ n / 2 ^ (n.log2 - 52) ∧ n / 2 ^ (n.log2 - 52) < 2 ^ 53 := by
  have nonzero : n ≠ 0 := by
    rintro rfl
    simp at enough
  rw [Nat.le_div_iff_mul_le (by positivity), Nat.div_lt_iff_lt_mul (by positivity), ← pow_add,
    ← pow_add]
  have lower := Nat.log2_self_le nonzero
  have upper := Nat.lt_log2_self (n := n)
  constructor
  · rwa [Nat.add_sub_cancel' enough]
  · rwa [show 53 + (n.log2 - 52) = n.log2 + 1 by omega]

theorem roundWithAccuracy_large (sign : Sign) (k : ℕ) (large : 2 ^ 53 ≤ n) :
    ∃ mantissa exponent positive,
      roundWithAccuracy .binary64 sign (n * 2 ^ k) (-k : ℤ) .exact =
        .finite sign mantissa exponent positive ∧
      2 ^ 52 ≤ mantissa ∧ mantissa < 2 ^ 53 ∧ 1 ≤ exponent := by
  have positive : 0 < n := by omega
  have log : 53 ≤ n.log2 := (Nat.le_log2 positive.ne').mpr large
  have wholeLog := log2_mul_two_pow positive k
  have first := shiftToTargetExponent_eq (n * 2 ^ k) (-k) (by omega) (by omega)
  set shifted := ((n * 2 ^ k).log2 - 52).repeat ExtendedMantissa.shiftRightOne
    ⟨n * 2 ^ k, false, false⟩ with shiftedEq
  have full : 2 ^ 52 ≤ shifted.roundedMantissa := by
    refine le_trans ?_ (le_roundedMantissa shifted)
    rw [shiftedEq, mantissa_repeat_shiftRightOne]
    exact (div_log2_bounds (n := n * 2 ^ k) (by omega)).1
  have roundedLog : 52 ≤ shifted.roundedMantissa.log2 := (Nat.le_log2 (by omega)).mpr full
  have second := shiftToTargetExponent_eq shifted.roundedMantissa
    (-k + ((n * 2 ^ k).log2 - 52 : ℕ)) roundedLog (by omega)
  have bounds := div_log2_bounds roundedLog
  rw [← mantissa_repeat_shiftRightOne _ ⟨shifted.roundedMantissa, false, false⟩] at bounds
  exact ⟨_, _, _, roundWithAccuracy_eq first second (by omega), bounds.1, bounds.2, by omega⟩

/-- The magnitude of what is left when a result is packed: the value itself if it is small, and
otherwise one that is not small either. -/
def Keeps (value : ℤ) (result : UnpackedFloat) : Prop :=
  (|value| < 2 ^ 53 → unpackedRational? (unpack .binary64 (pack .binary64 result)) = some ↑value) ∧
    (2 ^ 53 ≤ |value| → ∀ r, unpackedRational? (unpack .binary64 (pack .binary64 result)) = some r →
      2 ^ 53 ≤ |r|)

theorem abs_apply (sign : Sign) (n : ℕ) : |sign.apply n| = n := by
  cases sign <;> simp [Sign.apply]

theorem apply_mul (sign : Sign) (n m : ℕ) : sign.apply (n * m : ℕ) = sign.apply n * m := by
  cases sign <;> simp [Sign.apply]

theorem apply_mul_apply (sign other : Sign) (n m : ℕ) :
    sign.apply n * other.apply m = (sign * other).apply (n * m : ℕ) := by
  cases sign <;> cases other <;> simp [Sign.apply]

theorem mul_two_pow_neg (r : ℚ) (k : ℕ) : r * 2 ^ k * 2 ^ (-k : ℤ) = r := by
  rw [mul_assoc, ← zpow_natCast, ← zpow_add₀ two_ne_zero]
  simp

theorem unpack_pack_overflow {mantissa : ℕ} {exponent : ℤ} (positive : 0 < mantissa)
    (large : 972 ≤ exponent) :
    unpack .binary64 (pack .binary64 (.finite sign mantissa exponent positive)) =
      .infinity sign := by
  have bias := bias_eq
  have bits : (Format.binary64.mantissaBitsWithoutImplicit : ℤ) = 52 := rfl
  unfold UnpackedFloat.pack
  simp only [bias, bits]
  rw [if_pos (by omega)]
  cases sign <;> rfl

theorem keeps_roundWithAccuracy (positive : 0 < n) (enough : 52 ≤ n.log2 + k) :
    Keeps (sign.apply n) (roundWithAccuracy .binary64 sign (n * 2 ^ k) (-k : ℤ) .exact) := by
  unfold Keeps
  rw [abs_apply]
  constructor
  · intro small
    have small : n < 2 ^ 53 := by exact_mod_cast small
    obtain ⟨more, full, rounded⟩ := roundWithAccuracy_small sign positive small enough
    have log := log2_mul_two_pow positive more
    have bounds := (Nat.log2_eq_iff (by positivity)).mp (log.trans full.symm)
    have canonical : Canonical (n * 2 ^ more) (-more) :=
      ⟨bounds.2, by omega, by omega, .inl bounds.1⟩
    rw [rounded, unpack_pack _ canonical bounds.1]
    rw [unpackedRational?, apply_mul]
    push_cast
    rw [mul_two_pow_neg]
  · intro large r found
    have large : 2 ^ 53 ≤ n := by exact_mod_cast large
    obtain ⟨mantissa, exponent, some, rounded, full, bits, whole⟩ :=
      roundWithAccuracy_large sign k large
    rw [rounded] at found
    by_cases fits : exponent ≤ 971
    · rw [unpack_pack some ⟨bits, by omega, fits, .inl full⟩ full] at found
      cases found
      rw [abs_mul, ← Int.cast_abs, abs_apply, abs_of_pos (by positivity)]
      have mantissaLarge : (2 ^ 52 : ℚ) ≤ (mantissa : ℤ) := by exact_mod_cast full
      have scale : (2 : ℚ) ≤ 2 ^ exponent := by
        calc (2 : ℚ) = 2 ^ (1 : ℤ) := by simp
          _ ≤ 2 ^ exponent := zpow_le_zpow_right₀ (by norm_num) whole
      calc (2 ^ 53 : ℚ) = 2 ^ 52 * 2 := by norm_num
        _ ≤ _ := mul_le_mul mantissaLarge scale (by norm_num) (by positivity)
    · rw [unpack_pack_overflow some (by omega)] at found
      cases found

theorem keeps_zero (sign : Sign) : Keeps 0 (.zero sign) := by
  have packed : unpackedRational? (unpack .binary64 (pack .binary64 (.zero sign))) = some 0 := by
    rw [UnpackedFloat.pack, unpack_packedZero]
    rfl
  exact ⟨fun _ => by simpa using packed, fun large => by norm_num at large⟩

theorem decreaseExponent_eq {more : ℕ} (le : k ≤ more) :
    decreaseExponent (n * 2 ^ k) (-k) (-more) = (n * 2 ^ more, (-more : ℤ)) := by
  obtain ⟨added, rfl⟩ := Nat.exists_eq_add_of_le le
  have amount : ((-k : ℤ) - -(k + added : ℕ)).toNat = added := by omega
  rw [decreaseExponent, amount, Nat.shiftLeft_eq, mul_assoc, ← pow_add]
  congr 1
  omega

/-- The bits that rounding asks for are there, or are made. -/
theorem keeps_round (sign : Sign) (positive : 0 < n) :
    Keeps (sign.apply n) (round .binary64 sign (n * 2 ^ k) (-k : ℤ)) := by
  have log := log2_mul_two_pow positive k
  have bits : (Format.binary64.mantissaBits : ℤ) = 53 := rfl
  have minimal : Format.binary64.minExponent = -1074 := rfl
  have target : Format.binary64.targetExponent (totalExponent (n * 2 ^ k) (-k)) =
      (n.log2 : ℤ) - 52 := by
    rw [totalExponent, Format.targetExponent, log, bits, minimal]
    omega
  have decreased : ∃ more, 52 ≤ n.log2 + more ∧
      decreaseExponent (n * 2 ^ k) (-k) ((n.log2 : ℤ) - 52) = (n * 2 ^ more, (-more : ℤ)) := by
    by_cases enough : 52 ≤ n.log2 + k
    · have amount : ((-k : ℤ) - ((n.log2 : ℤ) - 52)).toNat = 0 := by omega
      exact ⟨k, enough, by simp [decreaseExponent, amount]⟩
    · obtain ⟨more, target⟩ : ∃ more : ℕ, (n.log2 : ℤ) - 52 = -more := ⟨52 - n.log2, by omega⟩
      exact ⟨more, by omega, by rw [target, decreaseExponent_eq (by omega)]⟩
  obtain ⟨more, enough, decreased⟩ := decreased
  unfold UnpackedFloat.round
  simp only [target, decreased]
  exact keeps_roundWithAccuracy positive enough

theorem keeps_normalize (value : ℤ) (zeroSign : Sign) :
    Keeps value (normalize .binary64 (value * 2 ^ k) (-k : ℤ) zeroSign) := by
  have scale : (0 : ℤ) < 2 ^ k := by positivity
  have toNat {m : ℤ} (nonneg : 0 ≤ m) : (m * 2 ^ k).toNat = m.toNat * 2 ^ k := by
    lift m to ℕ using nonneg
    exact_mod_cast Int.toNat_natCast (m * 2 ^ k)
  unfold UnpackedFloat.normalize
  split
  next negative =>
    have less : value < 0 := by
      have := Int.compare_eq_lt.mp negative
      by_contra other
      have := mul_nonneg (not_lt.mp other) scale.le
      omega
    have keeps := keeps_round .negative (n := (-value).toNat) (k := k) (by omega)
    rw [← neg_mul, toNat (by omega)]
    rwa [Sign.apply, Int.toNat_of_nonneg (by omega), neg_neg] at keeps
  next zero =>
    have : value = 0 := by
      have := Int.compare_eq_eq.mp zero
      exact (mul_eq_zero.mp this).resolve_right scale.ne'
    subst this
    exact keeps_zero zeroSign
  next positive =>
    have more : 0 < value := by
      have := Int.compare_eq_gt.mp positive
      exact (mul_pos_iff_of_pos_right scale).mp this
    have keeps := keeps_round .positive (n := value.toNat) (k := k) (by omega)
    rw [toNat more.le]
    rwa [Sign.apply, Int.toNat_of_nonneg more.le] at keeps

end Number

end Quantities
