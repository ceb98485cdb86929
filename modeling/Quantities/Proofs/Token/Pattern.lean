import Quantities.Proofs.Token.Longest
import Quantities.Proofs.Token.Spelling

/-!
The patterns of tokens, blanks and comments, and the longest match. What begins at a place of a text
is the token whose text is the longest that any pattern matches there, with a keyword before a name
of the same letters, or else a character at which no pattern matches.
-/

namespace Quantities

/-- The sorts of text that a source text is made of. -/
inductive Pattern where
  | keyword (word : Keyword)
  | mark (sign : Mark)
  | number
  | name
  | blanks
  | comment

def Pattern.Matches : Pattern → List Char → Prop
  | keyword word, text => text = word.text.toList
  | mark sign, text => text = sign.text.toList
  | number, text => ∃ literal : Literal, literal.Complete ∧ text = literal.text
  | name, text => IsWord text
  | blanks, text => text ≠ [] ∧ ∀ c ∈ text, isBlank c = true
  | comment, text => ∃ line, text = '/' :: '/' :: line ∧ '\n' ∉ line

/-- What a token is written as. Reserved words are not names. -/
def TokenKind.Fits : TokenKind → List Char → Prop
  | .number x, text => ∃ literal : Literal, literal.Complete ∧ text = literal.text ∧ x = literal.value
  | .name letters, text =>
    IsWord text ∧ letters = String.ofList text ∧ ∀ word : Keyword, text ≠ word.text.toList
  | .keyword word, text => text = word.text.toList
  | .mark sign, text => text = sign.text.toList
  | .invalid, _ => False

/-- The token that begins in front of what is behind it, with the text it takes up. -/
inductive TokenKind.Munches (behind : List Char) : TokenKind → List Char → Prop where
  | token {kind : TokenKind} {text : List Char} (fits : kind.Fits text)
      (longest : ∀ (pattern : Pattern) (longer : List Char), pattern.Matches longer →
        longer <+: text ++ behind → longer.length ≤ text.length) :
      Munches behind kind text
  | invalid {c : Char}
      (unmatched : ∀ (pattern : Pattern) (start : List Char), start <+: c :: behind →
        ¬ pattern.Matches start) :
      Munches behind .invalid [c]

/-- By its first character a text can be one of a number, a word, a blank, a mark and a comment. -/
def Pattern.Begins (first : Char) : Pattern → Prop
  | keyword _ | name => isWordStart first = true
  | number => Literal.isDigit first = true
  | blanks => isBlank first = true
  | mark _ => isBlank first = false ∧ Literal.isDigit first = false ∧ isWordStart first = false
  | comment => first = '/'

namespace Pattern

theorem Matches.eq_cons {pattern : Pattern} {text : List Char} (found : pattern.Matches text) :
    ∃ first more, text = first :: more ∧ pattern.Begins first := by
  cases pattern with
  | keyword word =>
      obtain ⟨first, more, spelled, start, -⟩ := word.isWord
      exact ⟨first, more, found.trans spelled, start⟩
  | mark sign =>
      obtain ⟨first, more, spelled, notBlank, notDigit, notStart, -⟩ := sign.text_eq_cons
      exact ⟨first, more, found.trans spelled, notBlank, notDigit, notStart⟩
  | number =>
      obtain ⟨literal, complete, rfl⟩ := found
      cases whole : literal.whole with
      | nil => exact absurd whole complete.whole.nonempty
      | cons first more =>
          have digit := complete.whole.digits first (by simp [whole])
          rw [Literal.text, whole, List.cons_append, List.cons_append]
          exact ⟨first, _, rfl, digit⟩
  | name =>
      obtain ⟨first, more, spelled, start, -⟩ := found
      exact ⟨first, more, spelled, start⟩
  | blanks =>
      obtain ⟨nonempty, blank⟩ := found
      cases text with
      | nil => exact absurd rfl nonempty
      | cons first more => exact ⟨first, more, rfl, blank first List.mem_cons_self⟩
  | comment =>
      obtain ⟨line, rfl, -⟩ := found
      exact ⟨'/', _, rfl, rfl⟩

end Pattern

variable {c : Char} {rest behind : List Char}

/-- Digits, letters and the characters of marks are told apart, so the first character decides. -/
theorem Pattern.Matches.begins {pattern : Pattern} (found : pattern.Matches (c :: rest)) :
    pattern.Begins c := by
  obtain ⟨first, more, same, begins⟩ := found.eq_cons
  cases same
  exact begins

theorem Pattern.Matches.begins_of_prefix {pattern : Pattern} {text : List Char}
    (found : pattern.Matches text) (start : text <+: c :: rest) : pattern.Begins c := by
  obtain ⟨first, more, rfl, begins⟩ := found.eq_cons
  obtain ⟨rfl, -⟩ := List.cons_prefix_cons.mp start
  exact begins

theorem IsWord.length_le {text : List Char} (word : IsWord text) (start : text <+: c :: rest) :
    text.length ≤ (c :: rest.takeWhile isWordPart).length := by
  obtain ⟨first, more, rfl, -, parts⟩ := word
  obtain ⟨-, behind, rfl⟩ := List.cons_prefix_cons.mp start
  rw [List.takeWhile_append_of_pos parts]
  simp

theorem Keyword.ofText?_text (word : Keyword) : ofText? word.text = some word := by
  cases word <;> rfl

theorem Lexeme.startsComment_of_prefix {line text : List Char}
    (start : '/' :: '/' :: line <+: text) : startsComment text = true :=
  List.isPrefixOf_iff_prefix.mpr ((List.prefix_append ['/', '/'] line).trans start)

theorem TokenKind.ofWord_of_not_keyword {text : List Char}
    (free : ∀ word : Keyword, text ≠ word.text.toList) :
    ofWord text = .name (String.ofList text) := by
  have missed : Keyword.ofText? (String.ofList text) = none := by
    rw [Keyword.ofText?, List.find?_eq_none]
    intro word _ same
    rw [beq_iff_eq] at same
    exact free word (by rw [same, String.toList_ofList])
  rw [ofWord, missed]

theorem Keyword.text_of_ofText? {text : String} {word : Keyword}
    (found : ofText? text = some word) : word.text = text := by
  simpa using List.find?_some found

namespace TokenKind

theorem fits_ofWord {text : List Char} (word : IsWord text) : (ofWord text).Fits text := by
  unfold ofWord
  split
  next reserved found =>
    have same := Keyword.text_of_ofText? found
    change text = reserved.text.toList
    rw [same, String.toList_ofList]
  next missed =>
    refine ⟨word, rfl, fun reserved same => ?_⟩
    rw [same, String.ofList_toList, reserved.ofText?_text] at missed
    cases missed

theorem atStart_word (word : IsWord (c :: rest)) :
    atStart c rest = (ofWord (c :: rest), rest.length) := by
  obtain ⟨first, more, same, start, parts⟩ := word
  cases same
  have whole : rest.takeWhile isWordPart = rest := by
    simpa using @List.takeWhile_append_of_pos _ isWordPart rest [] parts
  rw [atStart, isDigit_of_isWordStart start, if_neg Bool.false_ne_true, if_pos start, whole]

theorem Fits.atStart_eq {kind : TokenKind} (fits : kind.Fits (c :: rest)) :
    atStart c rest = (kind, rest.length) := by
  cases kind with
  | number x =>
      obtain ⟨literal, complete, spelled, rfl⟩ := fits
      have found : Pattern.number.Matches (c :: rest) := ⟨literal, complete, spelled⟩
      have digit : Literal.isDigit c = true := found.begins
      have length : literal.text.length = rest.length + 1 := by rw [← spelled, List.length_cons]
      rw [atStart, if_pos digit, spelled, Literal.take_text complete]
      simp only [length, Nat.add_sub_cancel]
  | name letters =>
      obtain ⟨word, rfl, free⟩ := fits
      rw [atStart_word word, ofWord_of_not_keyword free]
  | keyword word =>
      have same : c :: rest = word.text.toList := fits
      rw [atStart_word (same ▸ word.isWord), same, word.ofWord_text]
  | mark sign =>
      obtain ⟨first, more, spelled, -, notDigit, notStart, -, found⟩ := sign.text_eq_cons
      have same : c :: rest = sign.text.toList := fits
      have length : sign.text.length = rest.length + 1 := by
        rw [← String.length_toList, ← same, List.length_cons]
      obtain ⟨rfl, rfl⟩ := List.cons.inj (same.trans spelled)
      rw [atStart, notDigit, if_neg Bool.false_ne_true, notStart, if_neg Bool.false_ne_true]
      simp only [found, length, Nat.add_sub_cancel]
  | invalid => exact absurd fits id

theorem Fits.matches {kind : TokenKind} {text : List Char} (fits : kind.Fits text) :
    ∃ pattern : Pattern, pattern.Matches text := by
  cases kind with
  | number x =>
      obtain ⟨literal, complete, spelled, -⟩ := fits
      exact ⟨.number, literal, complete, spelled⟩
  | name letters => exact ⟨.name, fits.1⟩
  | keyword word => exact ⟨.keyword word, fits⟩
  | mark sign => exact ⟨.mark sign, fits⟩
  | invalid => exact absurd fits id

theorem Fits.sort {kind : TokenKind} (fits : kind.Fits (c :: rest)) :
    Literal.isDigit c = true ∨ isWordStart c = true ∨ ∃ sign : Mark, c :: rest = sign.text.toList := by
  cases kind with
  | number x =>
      obtain ⟨literal, complete, spelled, -⟩ := fits
      have found : Pattern.number.Matches (c :: rest) := ⟨literal, complete, spelled⟩
      exact .inl found.begins
  | name letters =>
      have found : Pattern.name.Matches (c :: rest) := fits.1
      exact .inr (.inl found.begins)
  | keyword word =>
      have found : (Pattern.keyword word).Matches (c :: rest) := fits
      exact .inr (.inl found.begins)
  | mark sign => exact .inr (.inr ⟨sign, fits⟩)
  | invalid => exact absurd fits id

theorem Fits.not_isBlank {kind : TokenKind} (fits : kind.Fits (c :: rest)) :
    ¬ isBlank c = true := by
  rcases fits.sort with digit | start | ⟨sign, same⟩
  · exact not_isBlank_of_isDigit digit
  · exact not_isBlank_of_isWordStart start
  · have found : (Pattern.mark sign).Matches (c :: rest) := same
    rw [found.begins.1]
    exact Bool.false_ne_true

theorem Fits.not_startsComment {kind : TokenKind} (fits : kind.Fits (c :: rest)) :
    ¬ Lexeme.startsComment (c :: rest) = true := by
  rcases fits.sort with digit | start | ⟨sign, same⟩
  · refine Quantities.not_startsComment ?_
    rintro rfl
    cases digit
  · refine Quantities.not_startsComment ?_
    rintro rfl
    cases start
  · obtain ⟨first, more, spelled, -, -, -, notComment, -⟩ := sign.text_eq_cons
    rw [same, spelled, notComment]
    exact Bool.false_ne_true

theorem Fits.kind_eq {kind other : TokenKind} {text : List Char} (fits : kind.Fits text)
    (others : other.Fits text) : kind = other := by
  obtain ⟨pattern, found⟩ := fits.matches
  obtain ⟨first, more, rfl, -⟩ := found.eq_cons
  exact congrArg Prod.fst (fits.atStart_eq.symm.trans others.atStart_eq)

namespace Munches

variable {kind other : TokenKind} {text others : List Char}

theorem text_ne_nil (munches : kind.Munches behind text) : text ≠ [] := by
  cases munches with
  | token fits longest =>
      obtain ⟨pattern, found⟩ := fits.matches
      obtain ⟨first, more, rfl, -⟩ := found.eq_cons
      exact nofun
  | invalid unmatched => exact nofun

theorem unique {behind' : List Char} (munches : kind.Munches behind text)
    (again : other.Munches behind' others) (same : text ++ behind = others ++ behind') :
    kind = other ∧ text = others ∧ behind = behind' := by
  cases munches with
  | token fits longest =>
      obtain ⟨pattern, found⟩ := fits.matches
      cases again with
      | token otherFits otherLongest =>
          obtain ⟨otherPattern, otherFound⟩ := otherFits.matches
          have atMost := longest otherPattern others otherFound ⟨behind', same.symm⟩
          have atLeast := otherLongest pattern text found ⟨behind, same⟩
          obtain ⟨rfl, left⟩ := List.append_inj same (Nat.le_antisymm atLeast atMost)
          exact ⟨fits.kind_eq otherFits, rfl, left⟩
      | invalid unmatched => exact absurd found (unmatched pattern text ⟨behind, same⟩)
  | invalid unmatched =>
      cases again with
      | token otherFits otherLongest =>
          obtain ⟨otherPattern, otherFound⟩ := otherFits.matches
          exact absurd otherFound (unmatched otherPattern others ⟨behind', same.symm⟩)
      | invalid otherUnmatched =>
          obtain ⟨rfl, rfl⟩ := List.cons.inj same
          exact ⟨rfl, rfl, rfl⟩

theorem of_prefix {shorter : List Char} (munches : kind.Munches behind text)
    (start : shorter <+: behind) : kind.Munches shorter text := by
  cases munches with
  | token fits longest =>
      refine .token fits fun pattern longer found begins => longest pattern longer found ?_
      exact begins.trans ((List.prefix_append_right_inj text).mpr start)
  | invalid unmatched =>
      refine .invalid fun pattern text begins => unmatched pattern text ?_
      exact begins.trans (List.cons_prefix_cons.mpr ⟨rfl, start⟩)

theorem not_isBlank (munches : kind.Munches behind (c :: text)) : ¬ isBlank c = true := by
  cases munches with
  | token fits longest => exact fits.not_isBlank
  | invalid unmatched =>
      intro blank
      exact unmatched .blanks [c] (List.prefix_append [c] behind) ⟨nofun, by simpa using blank⟩

theorem not_startsComment (munches : kind.Munches behind (c :: text)) :
    ¬ Lexeme.startsComment (c :: (text ++ behind)) = true := by
  intro comment
  have start : ['/', '/'] <+: c :: (text ++ behind) := List.isPrefixOf_iff_prefix.mp comment
  have slashes : Pattern.comment.Matches ['/', '/'] := ⟨[], rfl, List.not_mem_nil⟩
  cases munches with
  | token fits longest =>
      have inside := List.prefix_of_prefix_length_le start (List.prefix_append (c :: text) behind)
        (longest .comment _ slashes start)
      exact fits.not_startsComment (Lexeme.startsComment_of_prefix inside)
  | invalid unmatched => exact unmatched .comment _ start slashes

end Munches

end TokenKind

namespace Mark

/-- No mark stands behind a longer one, or one of the same length that it begins with. -/
theorem all_sorted : all.Pairwise fun sign later => later.text.length ≤ sign.text.length := by
  decide

theorem mem_all (sign : Mark) : sign ∈ all := by
  cases sign <;> decide

theorem length_le_atStart? {sign other : Mark} {text : List Char}
    (found : atStart? text = some sign) (begins : other.text.toList <+: text) :
    other.text.length ≤ sign.text.length := by
  obtain ⟨-, before, after, split, earlier⟩ := List.find?_eq_some_iff_append.mp found
  have member := other.mem_all
  have sorted := all_sorted
  rw [split] at member sorted
  rcases List.mem_append.mp member with inFront | atOrBehind
  · have missed := earlier other inFront
    rw [List.isPrefixOf_iff_prefix.mpr begins] at missed
    cases missed
  · rcases List.mem_cons.mp atOrBehind with rfl | later
    · exact Nat.le_refl _
    · exact List.rel_of_pairwise_cons (List.pairwise_append.mp sorted).2.1 later

end Mark

namespace TokenKind

/-- A token is read off the text that no longer pattern than its own matches. -/
theorem Munches.of_longest {kind : TokenKind} {start : List Char} (fits : kind.Fits start)
    (begins : start <+: c :: rest)
    (longest : ∀ (pattern : Pattern) (longer : List Char), pattern.Matches longer →
      longer <+: c :: rest → longer.length ≤ start.length) :
    kind.Munches (rest.drop (start.length - 1)) (c :: rest.take (start.length - 1)) := by
  obtain ⟨pattern, found⟩ := fits.matches
  obtain ⟨first, more, rfl, -⟩ := found.eq_cons
  obtain ⟨rfl, behind, rfl⟩ := List.cons_prefix_cons.mp begins
  rw [List.length_cons, Nat.add_sub_cancel, List.drop_left, List.take_left]
  exact .token fits longest

theorem number_munches (digit : Literal.isDigit c = true) :
    (number (Literal.take (c :: rest)).1.value).Munches
      (rest.drop ((Literal.take (c :: rest)).1.text.length - 1))
      (c :: rest.take ((Literal.take (c :: rest)).1.text.length - 1)) := by
  refine .of_longest ⟨_, Literal.take_complete digit rest, rfl, rfl⟩
    ⟨_, Literal.text_take (c :: rest)⟩ fun pattern longer found start => ?_
  have begins := found.begins_of_prefix start
  cases pattern with
  | number =>
      obtain ⟨literal, complete, rfl⟩ := found
      obtain ⟨behind, same⟩ := start
      rw [← same]
      exact Literal.length_le_take complete behind
  | keyword | name =>
      rw [isDigit_of_isWordStart begins] at digit
      cases digit
  | blanks => exact absurd begins (not_isBlank_of_isDigit digit)
  | mark sign =>
      rw [begins.2.1] at digit
      cases digit
  | comment =>
      rw [begins] at digit
      cases digit

theorem word_munches (start : isWordStart c = true) :
    (ofWord (c :: rest.takeWhile isWordPart)).Munches
      (rest.drop (rest.takeWhile isWordPart).length)
      (c :: rest.take (rest.takeWhile isWordPart).length) := by
  have word : IsWord (c :: rest.takeWhile isWordPart) :=
    ⟨c, _, rfl, start, List.all_eq_true.mp List.all_takeWhile⟩
  refine .of_longest (fits_ofWord word) (List.cons_prefix_cons.mpr ⟨rfl, List.takeWhile_prefix _⟩)
    fun pattern longer found begin => ?_
  have begins := found.begins_of_prefix begin
  cases pattern with
  | keyword other =>
      obtain rfl := found
      exact other.isWord.length_le begin
  | name => exact IsWord.length_le found begin
  | number =>
      rw [Pattern.Begins, isDigit_of_isWordStart start] at begins
      cases begins
  | blanks => exact absurd begins (not_isBlank_of_isWordStart start)
  | mark sign =>
      rw [begins.2.2] at start
      cases start
  | comment =>
      rw [begins] at start
      cases start

theorem mark_munches {sign : Mark} (notComment : ¬ Lexeme.startsComment (c :: rest) = true)
    (found : Mark.atStart? (c :: rest) = some sign) :
    (mark sign).Munches (rest.drop (sign.text.length - 1))
      (c :: rest.take (sign.text.length - 1)) := by
  have listed := List.find?_some found
  have start : sign.text.toList <+: c :: rest := List.isPrefixOf_iff_prefix.mp listed
  have spelled : (Pattern.mark sign).Matches sign.text.toList := rfl
  have signBegins : (Pattern.mark sign).Begins c := spelled.begins_of_prefix start
  rw [← String.length_toList]
  refine .of_longest rfl start fun pattern longer other begin => ?_
  have begins := other.begins_of_prefix begin
  cases pattern with
  | mark otherSign =>
      obtain rfl := other
      rw [String.length_toList, String.length_toList]
      exact Mark.length_le_atStart? found begin
  | keyword | name =>
      rw [Pattern.Begins, signBegins.2.2] at begins
      cases begins
  | number =>
      rw [Pattern.Begins, signBegins.2.1] at begins
      cases begins
  | blanks =>
      rw [Pattern.Begins, signBegins.1] at begins
      cases begins
  | comment =>
      obtain ⟨line, rfl, -⟩ := other
      exact absurd (Lexeme.startsComment_of_prefix begin) notComment

theorem invalid_munches (notBlank : ¬ isBlank c = true)
    (notComment : ¬ Lexeme.startsComment (c :: rest) = true)
    (notDigit : ¬ Literal.isDigit c = true) (notStart : ¬ isWordStart c = true)
    (missed : Mark.atStart? (c :: rest) = none) : invalid.Munches rest [c] := by
  refine .invalid fun pattern start begin found => ?_
  have begins := found.begins_of_prefix begin
  cases pattern with
  | keyword | name => exact notStart begins
  | number => exact notDigit begins
  | blanks => exact notBlank begins
  | mark sign =>
      obtain rfl := found
      have absent := List.find?_eq_none.mp missed sign sign.mem_all
      exact absent (List.isPrefixOf_iff_prefix.mpr begin)
  | comment =>
      obtain ⟨line, rfl, -⟩ := found
      exact notComment (Lexeme.startsComment_of_prefix begin)

theorem atStart_munches (notBlank : ¬ isBlank c = true)
    (notComment : ¬ Lexeme.startsComment (c :: rest) = true) :
    (atStart c rest).1.Munches (rest.drop (atStart c rest).2)
      (c :: rest.take (atStart c rest).2) := by
  rw [atStart]
  split
  next digit => exact number_munches digit
  next notDigit =>
    split
    next start => exact word_munches start
    next notStart =>
      split
      next sign found => exact mark_munches notComment found
      next missed => exact invalid_munches notBlank notComment notDigit notStart missed

end TokenKind

end Quantities
