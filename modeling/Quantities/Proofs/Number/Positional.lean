import Mathlib
import Quantities.Proofs.Number.Text

/-!
Decimals written out in full. What is written for a decimal is a literal, and the literal is worth as
much as the decimal. So decimals that are written alike are worth the same.
-/

namespace Quantities

/-- What a decimal is worth. -/
def Decimal.worth (d : Decimal) : ℚ := d.digits * 10 ^ d.exponent

namespace Literal

/-- What a literal says, before it is rounded to a number. -/
def worth (literal : Literal) : ℚ :=
  (Decimal.mk (ofDigits (literal.whole ++ literal.fraction))
    (powerValue literal.power - literal.fraction.length)).worth

theorem ofDigits_eq (digits : List Char) : ofDigits digits = Nat.ofDigitChars 10 digits 0 :=
  Nat.ofDigitChars_eq_foldl.symm

theorem ofDigits_toDigits (n : Nat) : ofDigits (Nat.toDigits 10 n) = n := by
  rw [ofDigits_eq, Nat.ofDigitChars_toDigits (by decide) (by decide)]

theorem ofDigitChars_replicate (count init : Nat) :
    Nat.ofDigitChars 10 (List.replicate count '0') init = init * 10 ^ count := by
  induction count generalizing init with
  | zero => simp
  | succ count ih =>
      rw [List.replicate_succ, Nat.ofDigitChars_cons, ih, pow_succ]
      simp
      ring

theorem ofDigits_zeros_append (count : Nat) (digits : List Char) :
    ofDigits (List.replicate count '0' ++ digits) = ofDigits digits := by
  rw [ofDigits_eq, Nat.ofDigitChars_append, ofDigitChars_replicate, Nat.zero_mul, ← ofDigits_eq]

theorem ofDigits_append_zeros (digits : List Char) (count : Nat) :
    ofDigits (digits ++ List.replicate count '0') = ofDigits digits * 10 ^ count := by
  rw [ofDigits_eq, Nat.ofDigitChars_append, ofDigitChars_replicate, ← ofDigits_eq]

theorem take_digits {digits : List Char} (are : ∀ c ∈ digits, isDigit c = true) :
    take digits = (⟨digits, [], []⟩, []) := by
  have whole : digits.takeWhile isDigit = digits := List.takeWhile_eq_self_iff.mpr are
  have rest : digits.dropWhile isDigit = [] := List.dropWhile_eq_nil_iff.mpr are
  rw [take, rest, whole]
  rfl

theorem take_point {whole fraction : List Char} (wholeAre : ∀ c ∈ whole, isDigit c = true)
    (fractionAre : ∀ c ∈ fraction, isDigit c = true) (nonempty : fraction ≠ []) :
    take (whole ++ '.' :: fraction) = (⟨whole, fraction, []⟩, []) := by
  have front : (whole ++ '.' :: fraction).takeWhile isDigit = whole := by
    rw [List.takeWhile_append_of_pos wholeAre, List.takeWhile_cons_of_neg (by decide),
      List.append_nil]
  have back : (whole ++ '.' :: fraction).dropWhile isDigit = '.' :: fraction := by
    rw [List.dropWhile_append_of_pos wholeAre, List.dropWhile_cons_of_neg (by decide)]
  have behind : takeFraction ('.' :: fraction) = (fraction, []) := by
    rw [takeFraction, List.takeWhile_eq_self_iff.mpr fractionAre,
      List.dropWhile_eq_nil_iff.mpr fractionAre, if_neg (by simpa using nonempty)]
  rw [take, back, front, behind]
  rfl

end Literal

namespace Decimal

theorem worth_dropZerosFrom (count : Nat) (d : Decimal) : (d.dropZerosFrom count).worth = d.worth := by
  induction count generalizing d with
  | zero => rfl
  | succ count ih =>
      rw [dropZerosFrom]
      split
      next ends =>
        have whole : d.digits = d.digits / 10 * 10 :=
          (Nat.div_mul_cancel (Nat.dvd_of_mod_eq_zero ends.2)).symm
        rw [ih, worth, worth, zpow_add₀ (by norm_num), whole]
        push_cast
        simp
        ring
      next => rfl

/-- Digits with zeros behind them, up to the point. -/
theorem worth_take_whole {d : Decimal} (whole : 0 ≤ d.exponent) :
    (Literal.take (d.characters ++ List.replicate d.exponent.toNat '0')).1.worth = d.worth := by
  have digits : ∀ c ∈ d.characters ++ List.replicate d.exponent.toNat '0',
      Literal.isDigit c = true := by
    intro c member
    rcases List.mem_append.mp member with written | zero
    · exact d.characters_isDigit c written
    · exact replicate_isDigit _ c zero
  rw [Literal.take_digits digits, Literal.worth, List.append_nil, Literal.ofDigits_append_zeros,
    characters, Literal.ofDigits_toDigits, worth, worth]
  obtain ⟨count, exponent⟩ := Int.eq_ofNat_of_zero_le whole
  simp [exponent, Literal.powerValue]

/-- Digits with the point inside them, and zeros in front to reach it. -/
theorem worth_take_fraction {d : Decimal} {places : Nat} (positive : 0 < places)
    (exponent : d.exponent = -places) {padded : List Char}
    (row : padded = List.replicate (places + 1 - d.characters.length) '0' ++ d.characters) :
    (Literal.take (padded.take (padded.length - places) ++
      '.' :: padded.drop (padded.length - places))).1.worth = d.worth := by
  have digits : ∀ c ∈ padded, Literal.isDigit c = true := row ▸ padded_isDigit _ d
  have length : places + 1 ≤ padded.length := by
    rw [row, List.length_append, List.length_replicate]
    omega
  have fraction : (padded.drop (padded.length - places)).length = places := by
    rw [List.length_drop]
    omega
  have nonempty : padded.drop (padded.length - places) ≠ [] := by
    intro none
    rw [none] at fraction
    exact absurd fraction positive.ne
  rw [Literal.take_point (fun c member => digits c (List.mem_of_mem_take member))
    (fun c member => digits c (List.mem_of_mem_drop member)) nonempty, Literal.worth, fraction,
    List.take_append_drop, row, Literal.ofDigits_zeros_append, characters,
    Literal.ofDigits_toDigits, worth, worth, exponent]
  simp [Literal.powerValue]

/-- What is written for a decimal is a literal that is worth as much. -/
theorem worth_take_positional (d : Decimal) : (Literal.take d.positional).1.worth = d.worth := by
  rw [← worth_dropZerosFrom d.characters.length d, positional]
  generalize d.dropZerosFrom d.characters.length = trimmed
  simp only
  split
  next whole => exact worth_take_whole whole
  next negative => exact worth_take_fraction (by omega) (by omega) rfl

theorem worth_eq_of_positional {d other : Decimal} (same : d.positional = other.positional) :
    d.worth = other.worth := by
  rw [← worth_take_positional d, ← worth_take_positional other, same]

end Decimal

end Quantities
