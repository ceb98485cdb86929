import Quantities.Proofs.Token.Munch

/-!
Rows of tokens in a source text, and the part of the text that has these tokens when it stands alone.
-/

namespace Quantities

namespace Lexeme.Munched

variable {offset : Nat} {whole : List Char} {lexemes front used later : List Lexeme}

theorem kinds_eq (munched : Munched offset whole lexemes) : kinds whole = lexemes.map (·.kind) := by
  rw [munched.eq_scanFrom]
  exact map_kind_scanFrom 0 offset whole

theorem segment {first last : Lexeme} (munched : Munched offset whole (front ++ (used ++ later)))
    (begins : used.head? = some first) (ends : used.getLast? = some last) :
    ∃ before text behind, whole = before ++ text ++ behind ∧ kinds text = used.map (·.kind) ∧
      first.start = offset + byteCount before ∧ last.finish = first.start + byteCount text := by
  obtain ⟨before, gap, rest, rfl, -, -, inner, -, start⟩ := munched.split
  obtain ⟨text, gap', behind, rfl, alone, -, -, finish, -⟩ := inner.split
  obtain ⟨more, rfl⟩ := List.head?_eq_some_iff.mp begins
  have starts : first.start = offset + byteCount before + byteCount gap := start
  refine ⟨before ++ gap, text, gap' ++ behind, by simp, alone.kinds_eq, ?_, ?_⟩
  · rw [starts, byteCount_append, Nat.add_assoc]
  · obtain ⟨init, same⟩ := List.getLast?_eq_some_iff.mp ends
    rw [same, List.map_append, List.map_singleton, List.getLastD_concat] at finish
    rw [finish, starts]

end Lexeme.Munched

namespace Tokens

variable {source : String} {front used later : List Token}

/-- The text at the location of some tokens has these tokens when it is a source of its own. -/
theorem exists_slice {location : Location}
    (items : (ofSource source).items = front ++ (used ++ later))
    (covers : location.Covers used) :
    ∃ slice : Slice source.toList location.start.offset location.finish.offset,
      (ofSource (String.ofList slice.text)).kinds = used.map (·.kind) := by
  have row := Lexeme.Munched.of_scanFrom 0 source.toList
  rw [items_ofSource] at items
  obtain ⟨frontLexemes, rest, whole, rfl, behind⟩ := List.map_eq_append_iff.mp items
  obtain ⟨lexemes, laterLexemes, rfl, rfl, rfl⟩ := List.map_eq_append_iff.mp behind
  have inside : lexemes ⊆ Lexeme.scanFrom 0 source.toList := by
    rw [whole]
    exact fun lexeme member => List.mem_append_right _ (List.mem_append_left _ member)
  rw [whole] at row
  obtain ⟨first, foundFirst, firstStart⟩ := Option.map_eq_some_iff.mp covers.start
  obtain ⟨last, foundLast, lastFinish⟩ := Option.map_eq_some_iff.mp covers.finish
  rw [List.head?_map] at foundFirst
  rw [List.getLast?_map] at foundLast
  obtain ⟨firstLexeme, begins, rfl⟩ := Option.map_eq_some_iff.mp foundFirst
  obtain ⟨lastLexeme, ends, rfl⟩ := Option.map_eq_some_iff.mp foundLast
  obtain ⟨before, text, others, split, kinds, start, finish⟩ := row.segment begins ends
  have starts := (offsets_token (inside (List.mem_of_head? begins))).1
  have finishes := (offsets_token (inside (List.mem_of_getLast? ends))).2
  rw [← firstStart, ← lastFinish]
  refine ⟨⟨before, text, others, split, ?_, ?_⟩, ?_⟩
  · exact starts.trans (start.trans (Nat.zero_add _))
  · exact finishes.trans (finish.trans (congrArg (· + _) starts.symm))
  · rw [kinds_ofSource, String.toList_ofList, kinds, List.map_map]
    rfl

end Tokens

end Quantities
