import Quantities.Proofs.Source.Position
import Quantities.Report

/-!
The heading of a report. The report cuts the text into lines of its own, and in a text of ASCII with line
feeds only they begin where those of the table do, apart from an empty last one.
-/

namespace Quantities

/-- An ASCII character that ends no line, unless it is a line feed. -/
def IsPlain (c : Char) : Prop :=
  c.toNat < 128 ∧ c ≠ '\r' ∧ c ≠ '\u000b' ∧ c ≠ '\u000c'

namespace IsPlain

instance (c : Char) : Decidable (IsPlain c) := inferInstanceAs (Decidable (_ ∧ _))

variable {c : Char}

theorem utf8Size_eq (plain : IsPlain c) : c.utf8Size = 1 := by
  rw [Char.utf8Size_eq_one_iff, UInt32.le_iff_toNat_le]
  exact Nat.le_of_lt_succ plain.1

theorem endsLine_iff (plain : IsPlain c) (rest : List Char) :
    Line.endsLine c rest = true ↔ c = '\n' := by
  obtain ⟨small, noReturn, noTab, noFeed⟩ := plain
  constructor
  · intro ends
    simp only [Line.endsLine, Line.isTerminator, Bool.and_eq_true, Bool.or_eq_true, beq_iff_eq,
      decide_eq_true_eq, Char.le_def, UInt32.le_iff_toNat_le] at ends
    obtain ⟨((⟨lower, upper⟩ | rfl) | rfl) | rfl, -⟩ := ends
    · have lower : 10 ≤ c.toNat := lower
      have upper : c.toNat ≤ 13 := upper
      have noReturn : c.toNat ≠ 13 := fun same => noReturn (Char.toNat_inj.mp same)
      have noTab : c.toNat ≠ 11 := fun same => noTab (Char.toNat_inj.mp same)
      have noFeed : c.toNat ≠ 12 := fun same => noFeed (Char.toNat_inj.mp same)
      have feed : c.toNat = 10 := by omega
      exact Char.toNat_inj.mp feed
    · simp at small
    · simp at small
    · simp at small
  · rintro rfl
    rfl

end IsPlain

theorem byteCount_of_plain {text : List Char} (plain : ∀ c ∈ text, IsPlain c) :
    byteCount text = text.length := by
  induction text with
  | nil => rfl
  | cons c rest ih =>
      rw [byteCount_cons, (plain c List.mem_cons_self).utf8Size_eq,
        ih fun other member => plain other (List.mem_cons_of_mem _ member), List.length_cons,
        Nat.add_comm]

namespace Line

/-- The lines of a plain text begin where the table says, apart from the one behind its end. -/
theorem map_start_place {text : List Char} (plain : ∀ c ∈ text, IsPlain c) (start : Nat)
    (begun : List Char) :
    ∃ empty, (∀ other ∈ empty, other = start + begun.length + text.length) ∧
      (place start (Text.cutFrom endsLine begun text)).map (·.start) ++ empty =
        start :: LineTable.startsAfter (start + begun.length) text := by
  induction text generalizing start begun with
  | nil =>
      cases begun with
      | nil => exact ⟨[start], by simp, rfl⟩
      | cons c others => exact ⟨[], by simp, rfl⟩
  | cons c rest ih =>
      have isPlain := plain c List.mem_cons_self
      have later := ih fun other member => plain other (List.mem_cons_of_mem _ member)
      rw [Text.cutFrom, LineTable.startsAfter, isPlain.utf8Size_eq]
      by_cases ends : c = '\n'
      · obtain ⟨empty, atEnd, starts⟩ := later (start + begun.length + 1) []
        refine ⟨empty, fun other member => ?_, ?_⟩
        · have := atEnd other member
          simp only [List.length_nil, List.length_cons] at this ⊢
          omega
        · rw [if_pos ((isPlain.endsLine_iff rest).mpr ends), if_pos ends, place, List.map_cons,
            List.cons_append, List.length_reverse, List.length_cons]
          exact congrArg (start :: ·) starts
      · obtain ⟨empty, atEnd, starts⟩ := later start (c :: begun)
        refine ⟨empty, fun other member => ?_, ?_⟩
        · have := atEnd other member
          simp only [List.length_cons] at this ⊢
          omega
        · rw [if_neg fun ended => ends ((isPlain.endsLine_iff rest).mp ended), if_neg ends]
          exact starts

theorem finish_of_getLast {pieces : List (List Char)} {start : Nat} {last : Line}
    (found : (place start pieces).getLast? = some last) :
    last.finish = start + pieces.flatten.length := by
  induction pieces generalizing start with
  | nil => cases found
  | cons piece rest ih =>
      rw [place] at found
      cases behind : place (start + piece.length) rest with
      | nil =>
          cases rest with
          | nil =>
              rw [behind, List.getLast?_singleton, Option.some.injEq] at found
              subst found
              simp [finish]
          | cons next more => cases behind
      | cons next more =>
          rw [behind, List.getLast?_cons_cons, ← behind] at found
          rw [ih found, List.flatten_cons, List.length_append, Nat.add_assoc]

theorem begun_eq_map_start {text : List Char} (plain : ∀ c ∈ text, IsPlain c) {offset : Nat}
    (inside : offset < text.length) :
    (LineTable.ofCharacters text).begun offset =
      ((ofCharacters text).takeWhile (·.start ≤ offset)).map (·.start) := by
  obtain ⟨empty, atEnd, starts⟩ := map_start_place plain 0 []
  have table : (LineTable.ofCharacters text).starts =
      (ofCharacters text).map (·.start) ++ empty := starts.symm
  have behind : empty.takeWhile (· ≤ offset) = [] := by
    refine LineTable.takeWhile_le_of_lt fun other member => ?_
    rw [atEnd other member, List.length_nil]
    omega
  have within : ((ofCharacters text).map (·.start) ++ empty).takeWhile (· ≤ offset) =
      ((ofCharacters text).map (·.start)).takeWhile (· ≤ offset) := by
    rw [List.takeWhile_append, behind, List.append_nil]
    split
    next all => exact ((List.takeWhile_prefix _).eq_of_length all).symm
    next => rfl
  rw [LineTable.begun, table, within, List.takeWhile_map]
  rfl

/-- The report finds an offset within a plain text on the line that the table tells. -/
theorem find?_of_plain {text : List Char} (plain : ∀ c ∈ text, IsPlain c) {offset : Nat}
    (inside : offset < text.length) :
    let table := LineTable.ofCharacters text
    ∃ index line, find? (ofCharacters text) offset = some index ∧
      (table.begun offset).length = index + 1 ∧ (ofCharacters text)[index]? = some line ∧
        line.start = table.lineStart offset := by
  intro table
  have begun : table.begun offset =
      ((ofCharacters text).takeWhile (·.start ≤ offset)).map (·.start) := begun_eq_map_start plain inside
  obtain ⟨rest, whole⟩ := List.takeWhile_prefix (l := ofCharacters text) (·.start ≤ offset)
  rcases List.eq_nil_or_concat ((ofCharacters text).takeWhile (·.start ≤ offset)) with
    none | ⟨front, line, reached⟩
  · have first : table.begun offset = 0 :: _ := List.takeWhile_cons_of_pos (by simp)
    rw [begun, none, List.map_nil] at first
    cases first
  · rw [List.concat_eq_append] at reached
    rw [reached] at begun whole
    refine ⟨front.length, line, ?_, by simp [begun], by simp [← whole], ?_⟩
    · cases found : (ofCharacters text).getLast? with
      | none =>
          rw [List.getLast?_eq_none_iff.mp found] at whole
          simp at whole
      | some last =>
          have finish := finish_of_getLast found
          rw [Text.flatten_cutAfter, Nat.zero_add] at finish
          rw [find?, found]
          simp only [reached, if_pos (show offset ≤ last.finish by omega), List.length_append,
            List.length_singleton, Nat.add_sub_cancel]
    · rw [LineTable.lineStart, begun, List.map_append, List.map_singleton, List.getLastD_concat]

end Line

/-- A stretch that begins within a text ends within it, wherever the location does. -/
theorem Stretch.ofLocation_within {size : Nat} {location : Location}
    (inside : location.start.offset < size) :
    let stretch := ofLocation size location
    stretch.start = location.start.offset ∧ stretch.start ≤ stretch.last ∧ stretch.last < size := by
  intro stretch
  have starts : stretch.start = location.start.offset := Nat.min_eq_left inside.le
  have finishes : stretch.finish ≤ size :=
    Nat.max_le.mpr ⟨Nat.min_le_right _ _, Nat.min_le_right _ _⟩
  refine ⟨starts, Nat.le_max_right _ _, ?_⟩
  rw [last, starts]
  omega

theorem Report.body_of_find {lines : List Line} {stretch : Stretch} {first last : Nat} {line : Line}
    (message : String) (begins : Line.find? lines stretch.start = some first)
    (ends : Line.find? lines stretch.last = some last) (order : first ≤ last)
    (found : lines[first]? = some line) :
    ∃ digits rows, Report.body lines stretch message =
      Report.heading digits (first + 1) (stretch.start - line.start + 1) :: rows := by
  have shown : ((lines.zipIdx.take (last + 1)).drop first).head? = some (line, first) := by
    rw [List.head?_drop, List.getElem?_take_of_lt (by omega), List.getElem?_zipIdx, found]
    simp
  obtain ⟨rest, shown⟩ := List.head?_eq_some_iff.mp shown
  rw [Report.body, begins, ends]
  simp only [shown]
  exact ⟨_, _, rfl⟩

namespace Diagnostic

variable {source : String} {diagnostic : Diagnostic} {start finish : Nat}

/-- The row behind the title of a report names the line and the column at which the location begins,
and they are the ones that are written before the message when it stands alone. -/
theorem heading_names_start (plain : ∀ c ∈ source.toList, IsPlain c)
    (located : diagnostic.location = (LineTable.ofSource source).location start finish)
    (inside : start < source.utf8ByteSize) :
    let place := diagnostic.location.start
    (∃ digits, (diagnostic.rows source)[1]? = some (Report.gutter digits ++ "╭─[<unknown>:" ++
      toString place.line ++ ":" ++ toString place.column ++ "]")) ∧
    diagnostic.text = "[" ++ diagnostic.code ++ "] " ++
      toString place.line ++ ":" ++ toString place.column ++
      " - " ++ diagnostic.location.finish.text ++ " - " ++ diagnostic.message := by
  refine ⟨?_, by simp only [text, placed, Location.text, Position.text, String.append_assoc]⟩
  have size : byteCount source.toList = source.toList.length := byteCount_of_plain plain
  rw [← byteCount_toList] at inside
  have position : diagnostic.location.start = _ :=
    (congrArg Location.start located).trans (LineTable.position_eq (Nat.le_of_lt inside))
  have offset : diagnostic.location.start.offset = start := congrArg Position.offset position
  have within : diagnostic.location.start.offset < byteCount source.toList := by rwa [offset]
  obtain ⟨starts, order, ends⟩ := Stretch.ofLocation_within within
  set stretch := Stretch.ofLocation (byteCount source.toList) diagnostic.location
  rw [offset] at starts
  rw [size] at inside ends
  obtain ⟨first, line, begins, firstLines, found, lineStart⟩ := Line.find?_of_plain plain inside
  obtain ⟨last, -, finds, lastLines, -, -⟩ := Line.find?_of_plain plain ends
  rw [starts] at order
  have lines := (LineTable.begun_prefix (.ofCharacters source.toList) order).length_le
  rw [firstLines, lastLines] at lines
  rw [← starts] at begins
  obtain ⟨digits, others, body⟩ := Report.body_of_find diagnostic.message begins finds (by omega) found
  refine ⟨digits, ?_⟩
  change (Report.body (Line.ofCharacters source.toList) stretch diagnostic.message)[0]? = _
  have named : diagnostic.location.start = ⟨first + 1, start - line.start + 1, start⟩ := by
    rw [position, lineStart, ← firstLines]
    rfl
  rw [body, starts, named]
  rfl

/-- A fault in the second of two lines, with an end far behind that of the text. -/
theorem secondLine_heading_names_start :
    let source := "let m;\n1 + x;\n"
    let location := (LineTable.ofSource source).location 11 99
    let diagnostic : Diagnostic := ⟨"E2001", location, "'x' is not defined"⟩
    (∀ c ∈ source.toList, IsPlain c) ∧ 11 < source.utf8ByteSize ∧
      diagnostic.location.start = ⟨2, 5, 11⟩ ∧
      (∃ digits, (diagnostic.rows source)[1]? =
        some (Report.gutter digits ++ "╭─[<unknown>:" ++ toString 2 ++ ":" ++ toString 5 ++ "]")) ∧
      diagnostic.text = "[" ++ diagnostic.code ++ "] " ++ toString 2 ++ ":" ++ toString 5 ++
        " - " ++ diagnostic.location.finish.text ++ " - " ++ diagnostic.message := by
  intro source location diagnostic
  have checked : source.toList.all (fun c => decide (IsPlain c)) = true := by decide
  have plain : ∀ c ∈ source.toList, IsPlain c := fun c member =>
    of_decide_eq_true (List.all_eq_true.mp checked c member)
  have inside : 11 < source.utf8ByteSize := by decide
  have located : diagnostic.location = (LineTable.ofSource source).location 11 99 := rfl
  have start : diagnostic.location.start = ⟨2, 5, 11⟩ := by decide
  have heading := heading_names_start plain located inside
  rw [start] at heading
  exact ⟨plain, inside, start, heading⟩

end Diagnostic

end Quantities
