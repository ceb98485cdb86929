import Quantities.Proofs.Token.Literal

/-!
The longest literal. What is taken from the start of a text is a complete literal, and no complete
literal at the start of the text is longer: a fraction or a power that has begun and is not complete
is left for the tokens behind the number.
-/

namespace Quantities

structure IsDigits (text : List Char) : Prop where
  nonempty : text ≠ []
  digits : ∀ c ∈ text, Literal.isDigit c = true

/-- A mark, perhaps a sign, and digits. -/
def IsPower (text : List Char) : Prop :=
  ∃ mark sign digits, text = mark :: (sign ++ digits) ∧ (mark = 'e' ∨ mark = 'E') ∧
    (sign = [] ∨ sign = ['+'] ∨ sign = ['-']) ∧ IsDigits digits

/-- The parts of a literal are as they have to be. All but the first one may be missing. -/
structure Literal.Complete (literal : Literal) : Prop where
  whole : IsDigits literal.whole
  fraction : literal.fraction = [] ∨ IsDigits literal.fraction
  power : literal.power = [] ∨ IsPower literal.power

namespace Literal

theorem takeWhile_isDigits {text : List Char} (nonempty : ¬ (text.takeWhile isDigit).isEmpty = true) :
    IsDigits (text.takeWhile isDigit) where
  nonempty empty := nonempty (List.isEmpty_iff.mpr empty)
  digits := List.all_eq_true.mp List.all_takeWhile

theorem takeFraction_digits (text : List Char) :
    (takeFraction text).1 = [] ∨ IsDigits (takeFraction text).1 := by
  unfold takeFraction
  split
  next rest =>
    split
    next => exact .inl rfl
    next nonempty => exact .inr (takeWhile_isDigits nonempty)
  next => exact .inl rfl

theorem takeSign_cases (text : List Char) :
    (takeSign text).1 = [] ∨ (takeSign text).1 = ['+'] ∨ (takeSign text).1 = ['-'] := by
  unfold takeSign
  split
  next => exact .inr (.inl rfl)
  next => exact .inr (.inr rfl)
  next => exact .inl rfl

theorem takePower_isPower (text : List Char) :
    (takePower text).1 = [] ∨ IsPower (takePower text).1 := by
  unfold takePower
  split
  next => exact .inl rfl
  next mark rest =>
    simp only
    split
    next fits =>
      exact .inr ⟨mark, _, _, rfl, fits.1, takeSign_cases rest, takeWhile_isDigits fits.2⟩
    next => exact .inl rfl

theorem take_complete {c : Char} (digit : isDigit c = true) (rest : List Char) :
    (take (c :: rest)).1.Complete where
  whole := takeWhile_isDigits (by rw [List.takeWhile_cons, if_pos digit]; exact nofun)
  fraction := takeFraction_digits _
  power := takePower_isPower _

section

variable {digits text power : List Char}

theorem takeSign_append_digits {sign : List Char} (row : IsDigits digits)
    (signs : sign = [] ∨ sign = ['+'] ∨ sign = ['-']) :
    takeSign (sign ++ (digits ++ text)) = (sign, digits ++ text) := by
  rcases signs with rfl | rfl | rfl
  · cases digits with
    | nil => exact absurd rfl row.nonempty
    | cons first more =>
        have digit := row.digits first List.mem_cons_self
        apply takeSign_of_ne
        · rintro same
          cases same
          cases digit
        · rintro same
          cases same
          cases digit
  · rfl
  · rfl

/-- Behind a complete power more of its digits may follow, and they are taken too. -/
theorem length_le_takePower (complete : IsPower power) :
    power.length ≤ (takePower (power ++ text)).1.length := by
  obtain ⟨mark, sign, digits, rfl, isMark, signs, row⟩ := complete
  have nonempty : ¬ (digits ++ text.takeWhile isDigit).isEmpty = true := by
    simp [row.nonempty]
  simp only [List.cons_append, List.append_assoc, takePower, takeSign_append_digits row signs,
    List.takeWhile_append_of_pos row.digits, if_pos (And.intro isMark nonempty), List.length_cons,
    List.length_append]
  omega

theorem head?_power (complete : IsPower power) :
    ∃ mark more, power = mark :: more ∧ (mark = 'e' ∨ mark = 'E') := by
  obtain ⟨mark, sign, digits, rfl, isMark, -⟩ := complete
  exact ⟨mark, _, rfl, isMark⟩

theorem stops_of_power (complete : IsPower power) (text : List Char) :
    (power ++ text).takeWhile isDigit = [] ∧ (power ++ text).dropWhile isDigit = power ++ text ∧
      takeFraction (power ++ text) = ([], power ++ text) := by
  obtain ⟨mark, more, rfl, rfl | rfl⟩ := head?_power complete <;> exact ⟨rfl, rfl, rfl⟩

/-- What is written of a fraction and a power at the start of a text. -/
def takeTail (text : List Char) : List Char :=
  (if (takeFraction text).1.isEmpty then [] else '.' :: (takeFraction text).1) ++
    (takePower (takeFraction text).2).1

theorem text_take_eq (text : List Char) :
    (take text).1.text = text.takeWhile isDigit ++ takeTail (text.dropWhile isDigit) := by
  simp only [Literal.text, take, takeTail, List.append_assoc]
  rfl

theorem takeTail_point (row : IsDigits digits) :
    takeTail ('.' :: (digits ++ text)) =
      '.' :: (digits ++ (text.takeWhile isDigit ++ (takePower (text.dropWhile isDigit)).1)) := by
  have nonempty : (digits ++ text.takeWhile isDigit).isEmpty = false := by
    simp [row.nonempty]
  simp [takeTail, takeFraction, List.takeWhile_append_of_pos row.digits,
    List.dropWhile_append_of_pos row.digits, nonempty]

/-- A power is taken behind digits that are taken, unless more digits take its place. -/
theorem length_le_power (powers : power = [] ∨ IsPower power) (text : List Char) :
    power.length ≤ ((power ++ text).takeWhile isDigit).length +
      (takePower ((power ++ text).dropWhile isDigit)).1.length := by
  rcases powers with rfl | isPower
  · exact Nat.zero_le _
  · obtain ⟨noDigit, same, -⟩ := stops_of_power isPower text
    rw [noDigit, same, List.length_nil, Nat.zero_add]
    exact length_le_takePower isPower

theorem length_le_tail (powers : power = [] ∨ IsPower power) (text : List Char) :
    power.length ≤ ((power ++ text).takeWhile isDigit).length +
      (takeTail ((power ++ text).dropWhile isDigit)).length := by
  rcases powers with rfl | isPower
  · exact Nat.zero_le _
  · obtain ⟨noDigit, same, noPoint⟩ := stops_of_power isPower text
    rw [noDigit, same, List.length_nil, Nat.zero_add, takeTail, noPoint]
    exact length_le_takePower isPower

end

theorem length_le_take {literal : Literal} (complete : literal.Complete) (rest : List Char) :
    literal.text.length ≤ (take (literal.text ++ rest)).1.text.length := by
  obtain ⟨whole, fraction, power⟩ := literal
  have row : IsDigits whole := complete.whole
  have fractions : fraction = [] ∨ IsDigits fraction := complete.fraction
  have powers : power = [] ∨ IsPower power := complete.power
  rw [text_take_eq]
  rcases fractions with rfl | digits
  · have tail := length_le_tail powers rest
    simp only [Literal.text, List.isEmpty_nil, if_true, List.append_nil, List.append_assoc,
      List.takeWhile_append_of_pos row.digits, List.dropWhile_append_of_pos row.digits,
      List.length_append]
    omega
  · have nonempty : fraction.isEmpty = false := List.isEmpty_eq_false_iff.mpr digits.nonempty
    have written : (⟨whole, fraction, power⟩ : Literal).text =
        whole ++ '.' :: (fraction ++ power) := by
      simp [Literal.text, nonempty]
    have stops : ('.' :: (fraction ++ (power ++ rest))).takeWhile isDigit = [] ∧
        ('.' :: (fraction ++ (power ++ rest))).dropWhile isDigit =
          '.' :: (fraction ++ (power ++ rest)) := ⟨rfl, rfl⟩
    have tail := length_le_power powers rest
    rw [written, List.append_assoc, List.cons_append, List.append_assoc,
      List.takeWhile_append_of_pos row.digits, List.dropWhile_append_of_pos row.digits, stops.1,
      stops.2, takeTail_point digits]
    simp only [List.append_nil, List.length_append, List.length_cons]
    omega

theorem takePower_of_isPower {power : List Char} (complete : IsPower power) :
    takePower power = (power, []) := by
  obtain ⟨mark, sign, digits, rfl, isMark, signs, row⟩ := complete
  have alone : takeSign (sign ++ (digits ++ [])) = (sign, digits ++ []) :=
    takeSign_append_digits row signs
  rw [List.append_nil] at alone
  have whole : digits.takeWhile isDigit = digits := by
    simpa using @List.takeWhile_append_of_pos _ isDigit digits [] row.digits
  have nothing : digits.dropWhile isDigit = [] := by
    simpa using @List.dropWhile_append_of_pos _ isDigit digits [] row.digits
  have nonempty : ¬ digits.isEmpty = true := by simp [row.nonempty]
  simp only [takePower, alone, whole, nothing, if_pos (And.intro isMark nonempty),
    List.cons_append]

theorem take_text {literal : Literal} (complete : literal.Complete) :
    take literal.text = (literal, []) := by
  obtain ⟨whole, fraction, power⟩ := literal
  have row : IsDigits whole := complete.whole
  have fractions : fraction = [] ∨ IsDigits fraction := complete.fraction
  have powers : power.takeWhile isDigit = [] ∧ power.dropWhile isDigit = power ∧
      takeFraction power = ([], power) ∧ takePower power = (power, []) := by
    rcases complete.power with noPower | isPower
    · simp only at noPower
      subst noPower
      exact ⟨rfl, rfl, rfl, rfl⟩
    · have stops := stops_of_power isPower []
      rw [List.append_nil] at stops
      exact ⟨stops.1, stops.2.1, stops.2.2, takePower_of_isPower isPower⟩
  obtain ⟨noDigit, same, noPoint, taken⟩ := powers
  rcases fractions with rfl | digits
  · simp only [Literal.text, List.isEmpty_nil, if_true, List.append_nil, take,
      List.takeWhile_append_of_pos row.digits, List.dropWhile_append_of_pos row.digits, noDigit,
      same, noPoint, taken]
  · have nonempty : fraction.isEmpty = false := List.isEmpty_eq_false_iff.mpr digits.nonempty
    simp [Literal.text, take, takeFraction, nonempty, List.takeWhile_append_of_pos row.digits,
      List.dropWhile_append_of_pos row.digits, List.takeWhile_append_of_pos digits.digits,
      List.dropWhile_append_of_pos digits.digits, isDigit, noDigit, same, taken]

end Literal

end Quantities
