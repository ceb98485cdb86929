import Mathlib
import Quantities.Number

/-!
Literals have no sign, and so the numbers they stand for have none either: the sign bit is not set by
products and quotients of numbers in which it is not set.
-/

namespace Quantities

open Float.Model

/-- A number without a minus sign, or none at all. -/
def Unsigned : UnpackedFloat → Prop
  | .notANumber => True
  | .infinity sign | .zero sign | .finite sign _ _ _ => sign = .positive

namespace Unsigned

variable {x y : UnpackedFloat}

theorem msb_packComponents (spec : Format) (exponent : BitVec spec.exponentBits)
    (mantissa : BitVec spec.mantissaBitsWithoutImplicit) :
    (UnpackedFloat.packComponents spec .positive exponent mantissa).msb = false := by
  have exponentBits := spec.he
  simp [UnpackedFloat.packComponents, UnpackedFloat.Sign.toBitVec, BitVec.msb_append]

theorem msb_pack (unsigned : Unsigned x) (spec : Format) :
    (UnpackedFloat.pack spec x).msb = false := by
  unfold UnpackedFloat.pack
  split
  next => exact msb_packComponents ..
  next sign =>
    cases unsigned
    exact msb_packComponents ..
  next sign =>
    cases unsigned
    exact msb_packComponents ..
  next sign mantissa exponent positive =>
    cases unsigned
    simp only
    split
    next => exact msb_packComponents ..
    next => split <;> exact msb_packComponents ..

theorem roundWithAccuracy (spec : Format) (mantissa : Nat) (exponent : Int)
    (accuracy : UnpackedFloat.Accuracy) :
    Unsigned (UnpackedFloat.roundWithAccuracy spec .positive mantissa exponent accuracy) := by
  unfold UnpackedFloat.roundWithAccuracy
  simp only
  split <;> rfl

theorem mul (left : Unsigned x) (right : Unsigned y) (spec : Format) :
    Unsigned (UnpackedFloat.mul spec x y) := by
  unfold UnpackedFloat.mul
  split <;> (try cases left) <;> (try cases right) <;>
    first | exact roundWithAccuracy .. | exact trivial | rfl

theorem div (left : Unsigned x) (right : Unsigned y) (spec : Format) :
    Unsigned (UnpackedFloat.div spec x y) := by
  unfold UnpackedFloat.div
  split <;> (try cases left) <;> (try cases right) <;>
    first | exact roundWithAccuracy .. | exact trivial | rfl

theorem ofScientific (spec : Format) (digits : Nat) (exponent : Int) :
    Unsigned (UnpackedFloat.ofScientific spec digits exponent) := by
  unfold UnpackedFloat.ofScientific
  split
  next => rfl
  next =>
    split
    next => rfl
    next =>
      split
      next => rfl
      next =>
        split
        next => apply mul <;> rfl
        next => apply div <;> rfl

theorem ofNat (spec : Format) (n : Nat) : Unsigned (UnpackedFloat.ofNat spec n) := by
  unfold UnpackedFloat.ofNat UnpackedFloat.ofInt UnpackedFloat.normalize
  split
  next negative =>
    have := Int.compare_eq_lt.mp negative
    omega
  next => rfl
  next => exact roundWithAccuracy ..

end Unsigned

namespace Number

theorem isNegative_eq_msb (x : Float) : isNegative x = x.toBits.toBitVec.msb := by
  have bound := x.toBits.toNat_lt
  rw [Bool.eq_iff_iff, isNegative, beq_iff_eq, ← UInt64.toNat_inj, UInt64.toNat_shiftRight,
    BitVec.msb_eq_decide, decide_eq_true_iff, Nat.shiftRight_eq_div_pow]
  simp
  omega

theorem unpack_unsigned {x : Float} (unsigned : isNegative x = false) :
    Unsigned x.toModel.unpack := by
  rw [isNegative_eq_msb] at unsigned
  have sign : @UnpackedFloat.unpackSign Format.binary64 x.toBits.toBitVec = 0#1 := by
    ext place bound
    obtain rfl : place = 0 := by omega
    have last : x.toBits.toBitVec.getLsbD 63 = false := by
      rw [BitVec.msb_eq_getLsbD_last] at unsigned
      exact unsigned
    simp [UnpackedFloat.unpackSign, last]
  have positive : UnpackedFloat.Sign.ofBitVec
      (@UnpackedFloat.unpackSign Format.binary64 x.toBits.toBitVec) = .positive := by
    rw [sign]
    rfl
  change Unsigned (UnpackedFloat.unpack Format.binary64 x.toBits.toBitVec)
  unfold UnpackedFloat.unpack
  simp only [positive]
  split
  next => split <;> trivial
  next =>
    split
    next => split <;> rfl
    next => rfl

theorem isNegative_pack {x : UnpackedFloat} (unsigned : Unsigned x) :
    isNegative (.ofModel (.pack x)) = false := by
  rw [isNegative_eq_msb]
  exact unsigned.msb_pack _

variable {x y : Float}

theorem isNegative_mul (left : isNegative x = false) (right : isNegative y = false) :
    isNegative (x * y) = false :=
  isNegative_pack ((unpack_unsigned left).mul (unpack_unsigned right) _)

theorem isNegative_div (left : isNegative x = false) (right : isNegative y = false) :
    isNegative (x / y) = false :=
  isNegative_pack ((unpack_unsigned left).div (unpack_unsigned right) _)

theorem isNegative_powersOfTen :
    ∀ power ∈ Float.exactlyRepresentablePowersOfTen, isNegative power = false := by
  decide +kernel

theorem isNegative_ofScientific (digits : Nat) (small : Bool) (exponent : Nat) :
    isNegative (Float.ofScientific digits small exponent) = false := by
  unfold Float.ofScientific
  split
  next =>
    have whole : isNegative digits.toUInt64.toFloat = false :=
      isNegative_pack (Unsigned.ofNat _ _)
    simp only
    split
    next => exact isNegative_div whole (isNegative_powersOfTen _ (Array.getElem_mem _))
    next => exact isNegative_mul whole (isNegative_powersOfTen _ (Array.getElem_mem _))
  next => exact isNegative_pack (Unsigned.ofScientific _ _ _)

theorem isNegative_value (literal : Literal) : isNegative literal.value = false := by
  unfold Literal.value Decimal.toFloat
  simp only
  split
  next => decide +kernel
  next =>
    split
    next => decide +kernel
    next => exact isNegative_ofScientific _ _ _

end Number

end Quantities
