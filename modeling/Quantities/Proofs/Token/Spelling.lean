import Mathlib
import Quantities.Proofs.Number.Sign
import Quantities.Proofs.Number.Text
import Quantities.Proofs.Token.Scanning

/-!
What tokens are written as. Words, marks and numbers are read as the tokens that they are, and every
token read is one that can be written.
-/

namespace Quantities

section

variable {c : Char}

theorem isDigit_of_isWordStart (start : isWordStart c = true) : Literal.isDigit c = false := by
  rw [← Bool.not_eq_true]
  intro digit
  simp only [Literal.isDigit, Bool.and_eq_true, decide_eq_true_eq, Char.le_def,
    UInt32.le_iff_toNat_le] at digit
  simp [isWordStart, Char.isAlpha, Char.isUpper, Char.isLower, UInt32.le_iff_toNat_le,
    Char.ext_iff, ← UInt32.toNat_inj] at digit start
  omega

theorem not_isBlank_of_isWordStart (start : isWordStart c = true) : ¬ isBlank c = true := by
  intro blank
  simp only [isBlank, Bool.or_eq_true, beq_iff_eq] at blank
  rcases blank with (((rfl | rfl) | rfl) | rfl) | rfl <;> cases start

theorem not_isBlank_of_isDigit (digit : Literal.isDigit c = true) : ¬ isBlank c = true := by
  intro blank
  simp only [isBlank, Bool.or_eq_true, beq_iff_eq] at blank
  rcases blank with (((rfl | rfl) | rfl) | rfl) | rfl <;> cases digit

theorem not_startsComment {rest : List Char} (other : c ≠ '/') :
    ¬ Lexeme.startsComment (c :: rest) = true := by
  intro comment
  simp only [Lexeme.startsComment, List.isPrefixOf, Bool.and_eq_true, beq_iff_eq] at comment
  exact other comment.1.symm

end

theorem Number.Spells.eq_cons {digits : List Char} {x : Float} (spells : Spells digits x) :
    ∃ first more, digits = first :: more ∧ Literal.isDigit first = true := by
  obtain ⟨literal, taken, nonempty, -⟩ := spells
  have whole : digits.takeWhile Literal.isDigit = literal.whole := congrArg (·.1.whole) taken
  cases digits with
  | nil => exact absurd whole.symm nonempty
  | cons first more =>
      refine ⟨first, more, rfl, ?_⟩
      cases digit : Literal.isDigit first with
      | true => rfl
      | false =>
          rw [List.takeWhile_cons, digit] at whole
          exact absurd whole.symm nonempty

/-- A letter and then letters and digits. -/
def IsWord (text : List Char) : Prop :=
  ∃ first more, text = first :: more ∧ isWordStart first = true ∧ ∀ c ∈ more, isWordPart c = true

theorem Keyword.isWord (word : Keyword) : IsWord word.text.toList := by
  cases word <;> exact ⟨_, _, rfl, rfl, List.all_eq_true.mp rfl⟩

theorem Keyword.ofWord_text (word : Keyword) : TokenKind.ofWord word.text.toList = .keyword word := by
  cases word <;> rfl

/-- What a mark is read from begins no other token. -/
theorem Mark.text_eq_cons (sign : Mark) :
    ∃ first more, sign.text.toList = first :: more ∧ isBlank first = false ∧
      Literal.isDigit first = false ∧ isWordStart first = false ∧
        Lexeme.startsComment (first :: more) = false ∧ atStart? (first :: more) = some sign := by
  cases sign <;> exact ⟨_, _, rfl, rfl, rfl, rfl, rfl, rfl⟩

namespace Lexeme

variable {behind : List Char}

theorem kinds_word {text : List Char} (word : IsWord text) (breaks : Breaks behind) :
    kinds (text ++ behind) = .ofWord text :: kinds behind := by
  obtain ⟨first, more, rfl, start, parts⟩ := word
  have notComment : ¬ startsComment (first :: (more ++ behind)) = true := by
    apply not_startsComment
    rintro rfl
    cases start
  have taken : (more ++ behind).takeWhile isWordPart = more := by
    rw [takeWhile_append_of_head fun c found => breaks.not_isWordPart found]
    simpa using @List.takeWhile_append_of_pos _ isWordPart more [] parts
  rw [List.cons_append, kinds_of_token (not_isBlank_of_isWordStart start) notComment,
    TokenKind.atStart, isDigit_of_isWordStart start, if_neg Bool.false_ne_true, if_pos start, taken,
    List.drop_left]

theorem kinds_mark (sign : Mark) (parts : Parts behind) :
    kinds (sign.text.toList ++ behind) = .mark sign :: kinds behind := by
  obtain ⟨first, more, text, notBlank, notDigit, notStart, notComment, found⟩ := sign.text_eq_cons
  have length : sign.text.length = more.length + 1 := by
    rw [← String.length_toList, text, List.length_cons]
  rw [← startsComment_append parts] at notComment
  rw [← Mark.atStart?_append parts] at found
  rw [text, List.cons_append, kinds_of_token (by simp [notBlank]) (by simp [notComment]),
    TokenKind.atStart, notDigit, if_neg Bool.false_ne_true, notStart, if_neg Bool.false_ne_true]
  simp only [found, length, Nat.add_sub_cancel, List.drop_left]

theorem kinds_number {digits : List Char} {x : Float} (spells : Number.Spells digits x)
    (breaks : Breaks behind) : kinds (digits ++ behind) = .number x :: kinds behind := by
  obtain ⟨first, more, rfl, digit⟩ := spells.eq_cons
  obtain ⟨literal, taken, -, rfl⟩ := spells
  have notComment : ¬ startsComment (first :: (more ++ behind)) = true := by
    apply not_startsComment
    rintro rfl
    cases digit
  have length : literal.text.length - 1 = more.length := by
    have whole := Literal.text_take (first :: more)
    rw [taken, List.append_nil] at whole
    rw [whole, List.length_cons, Nat.add_sub_cancel]
  have goesOn := Literal.take_append breaks (first :: more)
  rw [taken] at goesOn
  rw [List.cons_append, kinds_of_token (not_isBlank_of_isDigit digit) notComment,
    TokenKind.atStart, if_pos digit, ← List.cons_append, goesOn]
  simp only [length, List.drop_left]

end Lexeme

namespace TokenKind

/-- A token as it is read: names are words, but none that are reserved, and numbers have no sign. -/
def Spelled : TokenKind → Prop
  | .number x => Number.isNegative x = false
  | .name text => IsWord text.toList ∧ Keyword.ofText? text = none
  | .keyword _ | .mark _ | .invalid => True

theorem spelled_ofWord {text : List Char} (word : IsWord text) : (ofWord text).Spelled := by
  unfold ofWord
  split
  next => trivial
  next free => exact ⟨by rwa [String.toList_ofList], free⟩

theorem spelled_atStart (c : Char) (rest : List Char) : (atStart c rest).1.Spelled := by
  unfold atStart
  split
  next => exact Number.isNegative_value _
  next =>
    split
    next start =>
      exact spelled_ofWord ⟨c, _, rfl, start, List.all_eq_true.mp List.all_takeWhile⟩
    next => split <;> trivial

end TokenKind

theorem Lexeme.spelled_kinds (text : List Char) : ∀ kind ∈ kinds text, kind.Spelled := by
  induction 0, text using scanFrom.induct with
  | case1 offset => simp [kinds_nil]
  | case2 offset c rest blank ih =>
      rw [kinds_of_blank blank]
      exact ih
  | case3 offset c rest notBlank comment skipped ih =>
      rw [kinds_of_comment notBlank comment]
      exact ih
  | case4 offset c rest notBlank notComment kind more found lexeme ih =>
      rw [kinds_of_token notBlank notComment, found]
      intro other member
      rcases List.mem_cons.mp member with rfl | later
      · have spelled := TokenKind.spelled_atStart c rest
        rwa [found] at spelled
      · exact ih other later

end Quantities
