import Quantities.Proofs.Token.Scanning
import Quantities.Tree.Text

/-!
Indentation. A text with all of its lines further in has the tokens that it had. This is so for any
text, since a token or a comment that is read ends with its line at the latest.
-/

namespace Quantities

/-- A line as it stands in a block. -/
def indentedLine (line : List Char) : List Char := ' ' :: ' ' :: (Text.withoutEnd line ++ ['\n'])

theorem toList_indented (text : String) :
    (indented text).toList = (Text.cutLines text.toList).flatMap indentedLine := by
  have same (line : List Char) :
      ("  " ++ String.ofList (Text.withoutEnd line) ++ "\n").toList = indentedLine line := by
    simp [indentedLine]
  rw [indented, String.toList_join, List.flatMap_map]
  simp only [same]

namespace Text

theorem withoutEnd_of_open {line : List Char} (noFeed : '\n' ∉ line) : withoutEnd line = line := by
  unfold withoutEnd
  split
  next rest reversed =>
    have inside : '\n' ∈ line.reverse := by
      rw [reversed]
      exact List.mem_cons_self
    exact absurd (List.mem_reverse.mp inside) noFeed
  next rest reversed =>
    have inside : '\n' ∈ line.reverse := by
      rw [reversed]
      exact List.mem_cons_self
    exact absurd (List.mem_reverse.mp inside) noFeed
  next => rfl

end Text

namespace Lexeme

/-- The carriage return in front of a line feed goes with it, and is no token. -/
theorem kinds_withoutEnd (begun : List Char) :
    kinds (Text.withoutEnd ('\n' :: begun).reverse) = kinds begun.reverse := by
  unfold Text.withoutEnd
  rw [List.reverse_reverse]
  split
  next rest same =>
    cases same
    rw [List.reverse_cons, kinds_append_return]
  next rest _ same =>
    cases same
    rfl
  next other => exact absurd rfl (other begun)

theorem kinds_indentedLine (line behind : List Char) :
    kinds (indentedLine line ++ behind) = kinds (Text.withoutEnd line) ++ kinds behind := by
  rw [indentedLine, List.cons_append, List.cons_append, kinds_of_blank rfl, kinds_of_blank rfl,
    List.append_assoc, List.singleton_append, kinds_append_lineFeed]

theorem kinds_cutFrom {begun : List Char} (noFeed : '\n' ∉ begun) (text behind : List Char) :
    kinds ((Text.cutFrom (fun c _ => c == '\n') begun text).flatMap indentedLine ++ behind) =
      kinds (begun.reverse ++ text) ++ kinds behind := by
  induction text generalizing begun with
  | nil =>
      rw [Text.cutFrom, List.append_nil]
      cases begun with
      | nil =>
          rw [List.reverse_nil, kinds_nil]
          rfl
      | cons c others =>
          have line : Text.withoutEnd (c :: others).reverse = (c :: others).reverse :=
            Text.withoutEnd_of_open (by rwa [List.mem_reverse])
          rw [if_neg (by simp), List.flatMap_singleton, kinds_indentedLine, line]
  | cons c rest ih =>
      rw [Text.cutFrom]
      by_cases feed : c = '\n'
      · subst feed
        have later := ih List.not_mem_nil
        rw [List.reverse_nil, List.nil_append] at later
        rw [if_pos (beq_self_eq_true _), List.flatMap_cons, List.append_assoc, kinds_indentedLine, kinds_withoutEnd,
          later, kinds_append_lineFeed, List.append_assoc]
      · have open' : '\n' ∉ c :: begun := by
          simp only [List.mem_cons, not_or]
          exact ⟨Ne.symm feed, noFeed⟩
        rw [if_neg (by simpa using feed), ih open', List.reverse_cons, List.append_assoc,
          List.singleton_append]

theorem kinds_indented (text : String) (behind : List Char) :
    kinds ((indented text).toList ++ behind) = kinds text.toList ++ kinds behind := by
  rw [toList_indented]
  exact kinds_cutFrom List.not_mem_nil text.toList behind

end Lexeme

end Quantities
