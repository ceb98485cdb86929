import Quantities.Number

/-!
How numbers are written. The text of a finite number is a row of digits, perhaps with a point in it and
a minus sign in front, and if it is read back then the digits are a literal.
-/

namespace Quantities

namespace Decimal

theorem characters_isDigit (d : Decimal) : ∀ c ∈ d.characters, Literal.isDigit c = true :=
  fun _ member => Nat.isDigit_of_mem_toDigits (by decide) (by decide) member

theorem replicate_isDigit (count : Nat) :
    ∀ c ∈ List.replicate count '0', Literal.isDigit c = true := by
  intro c member
  rw [List.eq_of_mem_replicate member]
  rfl

theorem padded_isDigit (count : Nat) (d : Decimal) :
    ∀ c ∈ List.replicate count '0' ++ d.characters, Literal.isDigit c = true := by
  intro c member
  rcases List.mem_append.mp member with zero | written
  · exact replicate_isDigit count c zero
  · exact d.characters_isDigit c written

theorem positional_characters (d : Decimal) :
    ∀ c ∈ d.positional, Literal.isDigit c = true ∨ c = '.' := by
  intro c member
  unfold positional at member
  simp only at member
  split at member
  next =>
    rcases List.mem_append.mp member with written | zero
    · exact .inl (characters_isDigit _ c written)
    · exact .inl (replicate_isDigit _ c zero)
  next =>
    rcases List.mem_append.mp member with front | back
    · exact .inl (padded_isDigit _ _ c (List.mem_of_mem_take front))
    · rcases List.mem_cons.mp back with rfl | behind
      · exact .inr rfl
      · exact .inl (padded_isDigit _ _ c (List.mem_of_mem_drop behind))

end Decimal

namespace Number

/-- The characters are a literal for the number. -/
def Spells (digits : List Char) (x : Float) : Prop :=
  ∃ literal, Literal.take digits = (literal, []) ∧ literal.whole ≠ [] ∧ literal.value = x

variable {x : Float}

theorem not_isNaN (finite : x.isFinite = true) : x.isNaN = false := by
  change x.toModel.unpack.isFinite = true at finite
  change x.toModel.unpack.isNaN = false
  cases unpacked : x.toModel.unpack with
  | notANumber =>
      rw [unpacked] at finite
      cases finite
  | _ => rfl

theorem not_isInf (finite : x.isFinite = true) : x.isInf = false := by
  change x.toModel.unpack.isFinite = true at finite
  change x.toModel.unpack.isInf = false
  cases unpacked : x.toModel.unpack with
  | infinity sign =>
      rw [unpacked] at finite
      cases finite
  | _ => rfl

/-- The digits of the magnitude of a number. -/
def digits (x : Float) : List Char := (Binary.ofFloat x).fewestDigits.positional

theorem text_eq (finite : x.isFinite = true) :
    (text x).toList = if isNegative x then '-' :: digits x else digits x := by
  rw [text, not_isNaN finite, not_isInf finite]
  simp only [Bool.false_eq_true, if_false, digits]
  split <;> simp

theorem ofMagnitude?_digits {y : Float} (read : ofMagnitude? (digits x) = some y) :
    Spells (digits x) y := by
  have characters := Decimal.positional_characters (Binary.ofFloat x).fewestDigits
  unfold ofMagnitude? at read
  split at read
  next infinity =>
    have wrong := characters 'I' (by
      change 'I' ∈ digits x
      rw [infinity]
      decide)
    simp [Literal.isDigit] at wrong
  next =>
    split at read
    next literal taken =>
      split at read
      next => cases read
      next nonempty =>
        cases read
        exact ⟨literal, taken, by simpa using nonempty, rfl⟩
    next => cases read

/-- The number is finite, and what is written for it is read as the number. -/
def Readable (x : Float) : Prop := x.isFinite = true ∧ ofText? (text x) = some x

theorem Readable.spells (readable : Readable x) (unsigned : isNegative x = false) :
    Spells (text x).toList x := by
  obtain ⟨finite, back⟩ := readable
  have characters := Decimal.positional_characters (Binary.ofFloat x).fewestDigits
  have written := text_eq finite
  rw [unsigned, if_neg Bool.false_ne_true] at written
  rw [ofText?, written] at back
  rw [written]
  split at back
  next letters =>
    have letter := characters 'N' (by
      change 'N' ∈ digits x
      rw [letters]
      decide)
    simp [Literal.isDigit] at letter
  next magnitude sign =>
    have letter := characters '-' (by
      change '-' ∈ digits x
      rw [sign]
      exact List.mem_cons_self)
    simp [Literal.isDigit] at letter
  next => exact ofMagnitude?_digits back

theorem Readable.spells_neg (readable : Readable x) (negative : isNegative x = true) :
    ∃ digits y, (text x).toList = '-' :: digits ∧ Spells digits y ∧ -y = x := by
  obtain ⟨finite, back⟩ := readable
  have written := text_eq finite
  rw [negative, if_pos rfl] at written
  rw [ofText?, written] at back
  obtain ⟨y, read, sign⟩ := Option.map_eq_some_iff.mp back
  exact ⟨digits x, y, written, ofMagnitude?_digits read, sign⟩

end Number

end Quantities
