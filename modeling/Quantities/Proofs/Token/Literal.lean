import Quantities.Token.Scan

/-!
What may stand behind a number without being read as a part of it. A character that goes on no
token ends one, and the literal and what is left of the text make up the text.
-/

namespace Quantities

/-- Characters that go on no token, whatever is in front of them. -/
def isBreak (c : Char) : Bool :=
  !isWordPart c && !(['.', '+', '-', '=', '&', '|', '/'].contains c)

/-- The text goes on no token in front of it. -/
def Breaks (text : List Char) : Prop := ∀ c, text.head? = some c → isBreak c = true

section

variable {text behind : List Char} {p : Char → Bool}

theorem Breaks.nil : Breaks [] := nofun

theorem Breaks.cons {c : Char} (ends : isBreak c = true) (rest : List Char) : Breaks (c :: rest) := by
  intro other found
  cases found
  exact ends

theorem Breaks.head?_ne (breaks : Breaks behind) {c : Char} (goesOn : isBreak c = false) :
    behind.head? ≠ some c := by
  intro found
  rw [breaks c found] at goesOn
  cases goesOn

theorem isWordPart_of_isDigit {c : Char} (digit : Literal.isDigit c = true) :
    isWordPart c = true := by
  have alphanumeric : c.isAlphanum = true := by
    simp only [Char.isAlphanum, Char.isDigit, Bool.or_eq_true]
    exact .inr digit
  simp [isWordPart, alphanumeric]

theorem Breaks.not_isWordPart (breaks : Breaks behind) {c : Char} (first : behind.head? = some c) :
    isWordPart c = false := by
  have ends := breaks c first
  simp only [isBreak, Bool.and_eq_true, Bool.not_eq_eq_eq_not, Bool.not_true] at ends
  exact ends.1

theorem Breaks.not_isDigit (breaks : Breaks behind) (c : Char) (first : behind.head? = some c) :
    Literal.isDigit c = false := by
  cases digit : Literal.isDigit c with
  | false => rfl
  | true =>
      have part := isWordPart_of_isDigit digit
      rw [breaks.not_isWordPart first] at part
      cases part

theorem takeWhile_append_of_head (stops : ∀ c, behind.head? = some c → p c = false) :
    (text ++ behind).takeWhile p = text.takeWhile p := by
  induction text with
  | nil =>
      cases behind with
      | nil => rfl
      | cons c rest => simp [stops c rfl]
  | cons c rest ih =>
      rw [List.cons_append, List.takeWhile_cons, List.takeWhile_cons, ih]

theorem dropWhile_append_of_head (stops : ∀ c, behind.head? = some c → p c = false) :
    (text ++ behind).dropWhile p = text.dropWhile p ++ behind := by
  induction text with
  | nil =>
      cases behind with
      | nil => rfl
      | cons c rest => simp [stops c rfl]
  | cons c rest ih =>
      rw [List.cons_append, List.dropWhile_cons, List.dropWhile_cons, ih]
      split <;> rfl

end

namespace Literal

variable {text behind : List Char}

theorem takeFraction_of_ne (noPoint : text.head? ≠ some '.') : takeFraction text = ([], text) := by
  rw [takeFraction.eq_def]
  split
  next => exact absurd rfl noPoint
  next => rfl

theorem takeSign_of_ne (noPlus : text.head? ≠ some '+') (noMinus : text.head? ≠ some '-') :
    takeSign text = ([], text) := by
  rw [takeSign.eq_def]
  split
  next => exact absurd rfl noPlus
  next => exact absurd rfl noMinus
  next => rfl

theorem takeFraction_append (breaks : Breaks behind) (text : List Char) :
    takeFraction (text ++ behind) = ((takeFraction text).1, (takeFraction text).2 ++ behind) := by
  cases text with
  | nil => exact takeFraction_of_ne (breaks.head?_ne (by decide))
  | cons c rest =>
      by_cases point : c = '.'
      · subst point
        simp only [List.cons_append, takeFraction, takeWhile_append_of_head breaks.not_isDigit,
          dropWhile_append_of_head breaks.not_isDigit]
        split <;> rfl
      · rw [List.cons_append, takeFraction_of_ne (by simpa using point),
          takeFraction_of_ne (by simpa using point), List.cons_append]

theorem takeSign_append (breaks : Breaks behind) (text : List Char) :
    takeSign (text ++ behind) = ((takeSign text).1, (takeSign text).2 ++ behind) := by
  cases text with
  | nil => exact takeSign_of_ne (breaks.head?_ne (by decide)) (breaks.head?_ne (by decide))
  | cons c rest =>
      by_cases plus : c = '+'
      · subst plus
        rfl
      · by_cases minus : c = '-'
        · subst minus
          rfl
        · rw [List.cons_append, takeSign_of_ne (by simpa using plus) (by simpa using minus),
            takeSign_of_ne (by simpa using plus) (by simpa using minus), List.cons_append]

theorem takePower_append (breaks : Breaks behind) (text : List Char) :
    takePower (text ++ behind) = ((takePower text).1, (takePower text).2 ++ behind) := by
  cases text with
  | nil =>
      cases behind with
      | nil => rfl
      | cons c rest =>
          have ends := breaks.not_isWordPart (c := c) rfl
          have noMark : ¬ (c = 'e' ∨ c = 'E') := by
            rintro (rfl | rfl) <;> cases ends
          simp [takePower, noMark]
  | cons mark rest =>
      simp only [List.cons_append, takePower, takeSign_append breaks,
        takeWhile_append_of_head breaks.not_isDigit, dropWhile_append_of_head breaks.not_isDigit]
      split <;> rfl

theorem take_append (breaks : Breaks behind) (text : List Char) :
    take (text ++ behind) = ((take text).1, (take text).2 ++ behind) := by
  simp only [take, dropWhile_append_of_head breaks.not_isDigit,
    takeWhile_append_of_head breaks.not_isDigit, takeFraction_append breaks,
    takePower_append breaks]

theorem takeFraction_eq (text : List Char) :
    (if (takeFraction text).1.isEmpty then [] else '.' :: (takeFraction text).1) ++
      (takeFraction text).2 = text := by
  unfold takeFraction
  split
  next rest =>
    split
    next => rfl
    next => rw [List.cons_append, List.takeWhile_append_dropWhile]
  next => rfl

theorem takeSign_eq (text : List Char) : (takeSign text).1 ++ (takeSign text).2 = text := by
  unfold takeSign
  split <;> rfl

theorem takePower_eq (text : List Char) : (takePower text).1 ++ (takePower text).2 = text := by
  unfold takePower
  split
  next => rfl
  next mark rest =>
    have parts := takeSign_eq rest
    simp only
    split
    next =>
      rw [List.cons_append, List.cons_append, List.append_assoc, List.takeWhile_append_dropWhile,
        parts]
    next => rfl

theorem text_take (text : List Char) : (take text).1.text ++ (take text).2 = text := by
  have digits := List.takeWhile_append_dropWhile (p := isDigit) (l := text)
  have fraction := takeFraction_eq (text.dropWhile isDigit)
  have power := takePower_eq (takeFraction (text.dropWhile isDigit)).2
  rw [← power, ← List.append_assoc] at fraction
  rw [← fraction, ← List.append_assoc, ← List.append_assoc] at digits
  exact digits

end Literal

end Quantities
