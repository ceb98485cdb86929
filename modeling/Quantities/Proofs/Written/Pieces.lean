import Quantities.Proofs.Token.Spelling

/-!
Texts written from tokens. A text writes a row of tokens if these are read from it, whatever comes
behind it that goes on no token. Texts are put together so that this is never in doubt: a word
stands in front of a blank or a mark, and a mark in front of what makes no longer mark of it.
-/

namespace Quantities

section

variable {front behind : List Char}

theorem Breaks.append (breaks : Breaks front) (ends : Breaks behind) :
    Breaks (front ++ behind) := by
  cases front with
  | nil => exact ends
  | cons c rest => exact .cons (breaks c rfl) _

theorem Parts.cons {c : Char} (parts : c ∉ ['=', '&', '|', '/']) (rest : List Char) :
    Parts (c :: rest) := by
  intro other found
  cases found
  exact parts

theorem Parts.append (parts : Parts front) (rest : Parts behind) : Parts (front ++ behind) := by
  cases front with
  | nil => exact rest
  | cons c others => exact .cons (parts c rfl) _

end

/-- The tokens are read from the text, whatever comes behind it that goes on no token. -/
def Writes (text : List Char) (tokens : List TokenKind) : Prop :=
  ∀ behind, Breaks behind → Lexeme.kinds (text ++ behind) = tokens ++ Lexeme.kinds behind

namespace Writes

variable {text more : List Char} {tokens others : List TokenKind}

theorem kinds (written : Writes text tokens) : Lexeme.kinds text = tokens := by
  have alone := written [] .nil
  rwa [List.append_nil, Lexeme.kinds_nil, List.append_nil] at alone

theorem nil : Writes [] [] := fun _ _ => rfl

theorem append (first : Writes text tokens) (breaks : Breaks more) (rest : Writes more others) :
    Writes (text ++ more) (tokens ++ others) := by
  intro behind ends
  rw [List.append_assoc, first _ (breaks.append ends), rest behind ends, List.append_assoc]

theorem blank (written : Writes text tokens) : Writes (' ' :: text) tokens := by
  intro behind ends
  rw [List.cons_append, Lexeme.kinds_of_blank rfl]
  exact written behind ends

theorem mark (sign : Mark) (parts : Parts text) (written : Writes text tokens) :
    Writes (sign.text.toList ++ text) (.mark sign :: tokens) := by
  intro behind ends
  rw [List.append_assoc, Lexeme.kinds_mark sign (parts.append ends.parts), written behind ends,
    List.cons_append]

theorem keyword (word : Keyword) (breaks : Breaks text) (written : Writes text tokens) :
    Writes (word.text.toList ++ text) (.keyword word :: tokens) := by
  intro behind ends
  rw [List.append_assoc, Lexeme.kinds_word word.isWord (breaks.append ends), word.ofWord_text,
    written behind ends, List.cons_append]

theorem name {word : String} (spelled : (TokenKind.name word).Spelled) :
    Writes word.toList [.name word] := by
  intro behind ends
  obtain ⟨letters, free⟩ := spelled
  have kind : TokenKind.ofWord word.toList = .name word := by
    simp only [TokenKind.ofWord, String.ofList_toList, free]
  rw [Lexeme.kinds_word letters ends, kind, List.singleton_append]

theorem number {x : Float} (spells : Number.Spells text x) : Writes text [.number x] :=
  fun _ ends => Lexeme.kinds_number spells ends

end Writes

theorem IsWord.parts {text : List Char} (word : IsWord text) : Parts text := by
  obtain ⟨first, more, rfl, start, -⟩ := word
  apply Parts.cons
  intro member
  simp only [List.mem_cons, List.not_mem_nil, or_false] at member
  rcases member with rfl | rfl | rfl | rfl <;> cases start

theorem Number.Spells.parts {digits : List Char} {x : Float} (spells : Spells digits x) :
    Parts digits := by
  obtain ⟨first, more, rfl, digit⟩ := spells.eq_cons
  apply Parts.cons
  intro member
  simp only [List.mem_cons, List.not_mem_nil, or_false] at member
  rcases member with rfl | rfl | rfl | rfl <;> cases digit

end Quantities
