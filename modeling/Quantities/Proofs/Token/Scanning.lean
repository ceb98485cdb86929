import Quantities.Proofs.Grammar.Reading
import Quantities.Proofs.Token.Literal

/-!
The kinds of the tokens in a text. They do not depend on where the text begins, and the tokens of
two texts with a line feed between them are those of the one and then those of the other.
-/

namespace Quantities

/-- A pattern is not found later because the text goes on, unless it goes on in the pattern. -/
theorem isPrefixOf_append {behind : List Char} (pattern : List Char) (c : Char) (rest : List Char)
    (stops : ∀ d, behind.head? = some d → d ∉ pattern.tail) :
    pattern.isPrefixOf (c :: (rest ++ behind)) = pattern.isPrefixOf (c :: rest) := by
  induction rest generalizing pattern c with
  | nil =>
      match pattern with
      | [] | [_] => simp [List.isPrefixOf]
      | first :: second :: others =>
          cases behind with
          | nil => rfl
          | cons d more =>
              have differ := stops d rfl
              simp only [List.tail_cons, List.mem_cons, not_or] at differ
              have second : (second == d) = false := by simpa using Ne.symm differ.1
              simp [List.isPrefixOf, second]
  | cons next more ih =>
      cases pattern with
      | nil => rfl
      | cons first others =>
          have later := ih others next fun d found member =>
            stops d found (List.mem_of_mem_tail member)
          simp only [List.cons_append, List.isPrefixOf] at later ⊢
          rw [later]

/-- The text neither goes on a mark in front of it nor makes a comment of it. -/
def Parts (text : List Char) : Prop := ∀ c, text.head? = some c → c ∉ ['=', '&', '|', '/']

theorem Breaks.parts {text : List Char} (breaks : Breaks text) : Parts text := by
  intro c first member
  have goesOn : isBreak c = false := by
    simp only [List.mem_cons, List.not_mem_nil, or_false] at member
    rcases member with rfl | rfl | rfl | rfl <;> decide
  rw [breaks c first] at goesOn
  cases goesOn

namespace Mark

theorem tail_goesOn (sign : Mark) : ∀ c ∈ sign.text.toList.tail, c ∈ ['=', '&', '|', '/'] := by
  cases sign <;> simp [text]

theorem atStart?_append {behind : List Char} (parts : Parts behind) (c : Char)
    (rest : List Char) : atStart? (c :: (rest ++ behind)) = atStart? (c :: rest) := by
  have same (sign : Mark) : sign.text.toList.isPrefixOf (c :: (rest ++ behind)) =
      sign.text.toList.isPrefixOf (c :: rest) := by
    apply isPrefixOf_append
    intro d found member
    exact parts d found (sign.tail_goesOn d member)
  simp only [atStart?, same]

end Mark

namespace TokenKind

theorem atStart_append {behind : List Char} (breaks : Breaks behind) (c : Char)
    (rest : List Char) : atStart c (rest ++ behind) = atStart c rest := by
  have literal := congrArg Prod.fst (Literal.take_append breaks (c :: rest))
  have word : (rest ++ behind).takeWhile isWordPart = rest.takeWhile isWordPart :=
    takeWhile_append_of_head fun d first => breaks.not_isWordPart first
  have mark := Mark.atStart?_append breaks.parts c rest
  rw [List.cons_append] at literal
  simp only [atStart, literal, word, mark]

theorem atStart_length (c : Char) (rest : List Char) : (atStart c rest).2 ≤ rest.length := by
  unfold atStart
  split
  next =>
    have length := congrArg List.length (Literal.text_take (c :: rest))
    simp only [List.length_append, List.length_cons] at length
    simp only
    omega
  next =>
    split
    next => exact (List.takeWhile_prefix _).length_le
    next =>
      split
      next sign found =>
        have start := List.find?_some found
        have length := (List.isPrefixOf_iff_prefix.mp start).length_le
        simp only [List.length_cons, String.length_toList] at length
        simp only
        omega
      next => exact Nat.zero_le _

end TokenKind

namespace Lexeme

/-- The kinds of the tokens in a text. -/
def kinds (text : List Char) : List TokenKind := (scanFrom 0 text).map (·.kind)

theorem map_kind_scanFrom (offset other : Nat) (text : List Char) :
    (scanFrom offset text).map (·.kind) = (scanFrom other text).map (·.kind) := by
  induction offset, text using scanFrom.induct generalizing other with
  | case1 offset => rw [scanFrom, scanFrom]
  | case2 offset c rest blank ih =>
      rw [scanFrom, scanFrom, if_pos blank, if_pos blank]
      exact ih _
  | case3 offset c rest notBlank comment skipped ih =>
      rw [scanFrom, scanFrom, if_neg notBlank, if_neg notBlank, if_pos comment, if_pos comment]
      exact ih _
  | case4 offset c rest notBlank notComment kind more found lexeme ih =>
      rw [scanFrom, scanFrom, if_neg notBlank, if_neg notBlank, if_neg notComment,
        if_neg notComment, found]
      exact congrArg (kind :: ·) (ih _)

theorem kinds_nil : kinds [] = [] := by
  rw [kinds, scanFrom, List.map_nil]

variable {c : Char} {rest behind : List Char}

theorem kinds_of_blank (blank : isBlank c = true) : kinds (c :: rest) = kinds rest := by
  rw [kinds, scanFrom, if_pos blank]
  exact map_kind_scanFrom _ _ rest

theorem kinds_of_comment (notBlank : ¬ isBlank c = true)
    (comment : startsComment (c :: rest) = true) :
    kinds (c :: rest) = kinds (rest.drop (rest.takeWhile (· != '\n')).length) := by
  rw [kinds, scanFrom, if_neg notBlank, if_pos comment]
  exact map_kind_scanFrom _ _ _

theorem kinds_of_token (notBlank : ¬ isBlank c = true)
    (notComment : ¬ startsComment (c :: rest) = true) :
    kinds (c :: rest) =
      (TokenKind.atStart c rest).1 :: kinds (rest.drop (TokenKind.atStart c rest).2) := by
  rw [kinds, scanFrom, if_neg notBlank, if_neg notComment]
  exact congrArg (_ :: ·) (map_kind_scanFrom _ _ _)

theorem startsComment_append (parts : Parts behind) (c : Char) (rest : List Char) :
    startsComment (c :: (rest ++ behind)) = startsComment (c :: rest) := by
  apply isPrefixOf_append
  intro d found member
  obtain rfl := List.mem_singleton.mp member
  exact parts '/' found (by simp)

theorem drop_takeWhile (p : Char → Bool) (text : List Char) :
    text.drop (text.takeWhile p).length = text.dropWhile p := by
  have whole := @List.takeWhile_append_dropWhile _ p text
  have rest := @List.drop_left _ (text.takeWhile p) (text.dropWhile p)
  rwa [whole] at rest

/-- The tokens of a text and of what ends it, if a comment in front of that hides none of it. -/
theorem kinds_append (breaks : Breaks behind)
    (shown : kinds (behind.dropWhile (· != '\n')) = kinds behind) (text : List Char) :
    kinds (text ++ behind) = kinds text ++ kinds behind := by
  induction 0, text using scanFrom.induct with
  | case1 offset => rw [List.nil_append, kinds_nil, List.nil_append]
  | case2 offset c rest blank ih =>
      rw [List.cons_append, kinds_of_blank blank, kinds_of_blank blank, ih]
  | case3 offset c rest notBlank comment skipped ih =>
      have goesOn := startsComment_append breaks.parts c rest
      rw [comment] at goesOn
      change kinds (rest.drop (rest.takeWhile (· != '\n')).length ++ behind) =
        kinds (rest.drop (rest.takeWhile (· != '\n')).length) ++ kinds behind at ih
      rw [drop_takeWhile] at ih
      rw [List.cons_append, kinds_of_comment notBlank goesOn, kinds_of_comment notBlank comment,
        drop_takeWhile, drop_takeWhile, List.dropWhile_append]
      split
      next ended =>
        rw [List.isEmpty_iff.mp ended, kinds_nil, List.nil_append]
        exact shown
      next => exact ih
  | case4 offset c rest notBlank notComment kind more found lexeme ih =>
      have stillNone := startsComment_append breaks.parts c rest
      have length := TokenKind.atStart_length c rest
      rw [← stillNone] at notComment
      rw [List.cons_append, kinds_of_token notBlank notComment, TokenKind.atStart_append breaks,
        List.drop_append_of_le_length length]
      rw [stillNone] at notComment
      rw [kinds_of_token notBlank notComment, found, ih, List.cons_append]

theorem kinds_append_lineFeed (text behind : List Char) :
    kinds (text ++ '\n' :: behind) = kinds text ++ kinds behind := by
  have breaks : Breaks ('\n' :: behind) := .cons (by decide) behind
  rw [kinds_append breaks rfl, kinds_of_blank rfl]

theorem kinds_append_return (text : List Char) : kinds (text ++ ['\r']) = kinds text := by
  have breaks : Breaks ['\r'] := .cons (by decide) []
  have empty : kinds ['\r'] = [] := by rw [kinds_of_blank rfl, kinds_nil]
  rw [kinds_append breaks (kinds_nil.trans empty.symm), empty, List.append_nil]

end Lexeme

namespace Tokens

theorem kinds_ofSource (source : String) : (ofSource source).kinds = Lexeme.kinds source.toList := by
  simp [ofSource, ofLexemes, Tokens.kinds, Lexeme.kinds]

theorem kinds_lines (first second : String) :
    (ofSource (first ++ "\n" ++ second)).kinds =
      (ofSource first).kinds ++ (ofSource second).kinds := by
  have text : (first ++ "\n" ++ second).toList = first.toList ++ '\n' :: second.toList := by
    simp
  rw [kinds_ofSource, kinds_ofSource, kinds_ofSource, text, Lexeme.kinds_append_lineFeed]

end Tokens

end Quantities
