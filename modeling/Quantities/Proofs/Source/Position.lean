import Mathlib
import Quantities.Proofs.Source.Slice
import Quantities.Proofs.Token.Span

/-!
Offsets and their lines and columns. The table has one line for each line feed among the bytes and one
more, and so the offsets of a text and the pairs of a line and a column stand in the same order.
-/

namespace Quantities

/-- The bytes of a text. -/
def bytesOf (text : List Char) : List UInt8 := text.flatMap String.utf8EncodeChar

/-- The byte of a line feed. -/
def lineFeed : UInt8 := 10

theorem bytesOf_cons (c : Char) (text : List Char) :
    bytesOf (c :: text) = String.utf8EncodeChar c ++ bytesOf text := List.flatMap_cons

theorem bytesOf_toList (source : String) : bytesOf source.toList = source.toUTF8.data.toList := by
  rw [← String.ofList_toList (s := source), String.toList_ofList, String.toUTF8_eq_toByteArray,
    String.toByteArray_ofList, List.utf8Encode, List.toList_data_toByteArray]
  rfl

theorem length_bytesOf (text : List Char) : (bytesOf text).length = byteCount text := by
  induction text with
  | nil => rfl
  | cons c rest ih =>
      rw [bytesOf_cons, List.length_append, String.length_utf8EncodeChar, ih, byteCount_cons]

/-- All bytes of a character that takes several have the highest bit. -/
theorem utf8EncodeChar_ne_lineFeed {c : Char} (several : c.utf8Size ≠ 1) :
    ∀ byte ∈ String.utf8EncodeChar c, byte ≠ lineFeed := by
  have high (x mark : UInt8) (large : 10 < mark.toNat) : x ||| mark ≠ lineFeed := by
    intro same
    have bits : x.toNat ||| mark.toNat = 10 := by
      rw [← UInt8.toNat_or, same]
      rfl
    have := Nat.right_le_or (m := mark.toNat) (n := x.toNat)
    omega
  have sizes := c.utf8Size_le_four
  have some := c.utf8Size_pos
  intro byte member
  obtain two | three | four : c.utf8Size = 2 ∨ c.utf8Size = 3 ∨ c.utf8Size = 4 := by omega
  · rw [String.utf8EncodeChar_eq_cons_cons two] at member
    simp only [List.mem_cons, List.not_mem_nil, or_false] at member
    rcases member with rfl | rfl <;> exact high _ _ (by decide)
  · rw [String.utf8EncodeChar_eq_cons_cons_cons three] at member
    simp only [List.mem_cons, List.not_mem_nil, or_false] at member
    rcases member with rfl | rfl | rfl <;> exact high _ _ (by decide)
  · rw [String.utf8EncodeChar_eq_cons_cons_cons_cons four] at member
    simp only [List.mem_cons, List.not_mem_nil, or_false] at member
    rcases member with rfl | rfl | rfl | rfl <;> exact high _ _ (by decide)

theorem toUInt8_eq_lineFeed {c : Char} (single : c.utf8Size = 1) :
    c.val.toUInt8 = lineFeed ↔ c = '\n' := by
  have small : c.val.toNat ≤ 127 := UInt32.le_iff_toNat_le.mp (Char.utf8Size_eq_one_iff.mp single)
  rw [← UInt8.toNat_inj, UInt32.toNat_toUInt8, Nat.mod_eq_of_lt (by omega), ← Char.val_inj,
    ← UInt32.toNat_inj]
  rfl

namespace LineTable

/-- The offsets behind the line feeds among some bytes. -/
def startsAmong (offset : Nat) : List UInt8 → List Nat
  | [] => []
  | byte :: rest =>
    if byte = lineFeed then (offset + 1) :: startsAmong (offset + 1) rest
    else startsAmong (offset + 1) rest

theorem startsAmong_append (offset : Nat) (front rest : List UInt8) :
    startsAmong offset (front ++ rest) =
      startsAmong offset front ++ startsAmong (offset + front.length) rest := by
  induction front generalizing offset with
  | nil => rfl
  | cons byte more ih =>
      have next : offset + 1 + more.length = offset + (byte :: more).length := by
        rw [List.length_cons]
        omega
      rw [List.cons_append, startsAmong, startsAmong, ih, next]
      split <;> rfl

theorem startsAmong_of_not_mem {bytes : List UInt8} (none : ∀ byte ∈ bytes, byte ≠ lineFeed)
    (offset : Nat) : startsAmong offset bytes = [] := by
  induction bytes generalizing offset with
  | nil => rfl
  | cons byte rest ih =>
      rw [startsAmong, if_neg (none byte List.mem_cons_self)]
      exact ih (fun other member => none other (List.mem_cons_of_mem _ member)) _

theorem length_startsAmong (offset : Nat) (bytes : List UInt8) :
    (startsAmong offset bytes).length = bytes.count lineFeed := by
  induction bytes generalizing offset with
  | nil => rfl
  | cons byte rest ih =>
      rw [startsAmong, List.count_cons]
      by_cases ends : byte = lineFeed
      · rw [if_pos ends, List.length_cons, ih, if_pos (by simpa using ends)]
      · rw [if_neg ends, ih, if_neg (by simpa using ends), Nat.add_zero]

theorem bounds_of_mem_startsAmong {offset start : Nat} {bytes : List UInt8}
    (member : start ∈ startsAmong offset bytes) :
    offset < start ∧ start ≤ offset + bytes.length := by
  induction bytes generalizing offset with
  | nil => cases member
  | cons byte rest ih =>
      rw [startsAmong] at member
      rw [List.length_cons]
      split at member
      · rcases List.mem_cons.mp member with rfl | later
        · omega
        · have := ih later
          omega
      · have := ih member
        omega

theorem takeWhile_le_of_lt {values : List Nat} {limit : Nat} (behind : ∀ value ∈ values, limit < value) :
    values.takeWhile (· ≤ limit) = [] := by
  cases values with
  | nil => rfl
  | cons value others =>
      have := behind value List.mem_cons_self
      exact List.takeWhile_cons_of_neg (by simpa using this)

theorem takeWhile_le_append {front rest : List Nat} {limit : Nat}
    (before : ∀ value ∈ front, value ≤ limit) (behind : ∀ value ∈ rest, limit < value) :
    (front ++ rest).takeWhile (· ≤ limit) = front := by
  rw [List.takeWhile_append_of_pos fun value member => decide_eq_true (before value member),
    takeWhile_le_of_lt behind, List.append_nil]

theorem pairwise_startsAmong (offset : Nat) (bytes : List UInt8) :
    (startsAmong offset bytes).Pairwise (· < ·) := by
  induction bytes generalizing offset with
  | nil => exact .nil
  | cons byte rest ih =>
      rw [startsAmong]
      split
      · exact .cons (fun start member => (bounds_of_mem_startsAmong member).1) (ih _)
      · exact ih _

/-- The lines that begin up to an offset are those of the bytes before it. -/
theorem takeWhile_startsAmong (offset more : Nat) (bytes : List UInt8) :
    (startsAmong offset bytes).takeWhile (· ≤ offset + more) =
      startsAmong offset (bytes.take more) := by
  rw [← List.take_append_drop more bytes, startsAmong_append, List.take_append_drop]
  apply takeWhile_le_append
  · intro start member
    have bounds := bounds_of_mem_startsAmong member
    rw [List.length_take] at bounds
    omega
  · intro start member
    have bounds := bounds_of_mem_startsAmong member
    rw [List.length_take, List.length_drop] at bounds
    omega

theorem startsAfter_eq (offset : Nat) (text : List Char) :
    startsAfter offset text = startsAmong offset (bytesOf text) := by
  induction text generalizing offset with
  | nil => rfl
  | cons c rest ih =>
      rw [bytesOf_cons, startsAmong_append, String.length_utf8EncodeChar, ← ih, startsAfter]
      by_cases single : c.utf8Size = 1
      · rw [String.utf8EncodeChar_eq_singleton single, startsAmong]
        simp only [toUInt8_eq_lineFeed single, single]
        split <;> rfl
      · have other : c ≠ '\n' := by
          rintro rfl
          exact single rfl
        rw [if_neg other, startsAmong_of_not_mem (utf8EncodeChar_ne_lineFeed single), List.nil_append]

theorem starts_ofSource (source : String) :
    (ofSource source).starts = 0 :: startsAmong 0 source.toUTF8.data.toList := by
  rw [← bytesOf_toList, ← startsAfter_eq]
  rfl

theorem size_ofSource (source : String) :
    (ofSource source).size = source.toUTF8.data.toList.length := by
  rw [← bytesOf_toList, length_bytesOf]
  rfl

/-- What a search for an offset among ordered starts may tell: where it is, or else before how many
of them it is missing. -/
def Searched (starts : List Nat) (offset : Nat) : Except Nat Nat → Prop
  | .ok index => starts[index]? = some offset
  | .error next => next ≤ starts.length ∧ (∀ start ∈ starts.take next, start < offset) ∧
      ∀ start ∈ starts.drop next, offset < start

/-- The index of the line that such a search tells. An offset that begins no line is on the one that
begins before it. -/
def lineIndex : Except Nat Nat → Nat
  | .ok index => index
  | .error next => next - 1

theorem takeWhile_of_searched {starts : List Nat} {offset : Nat} {answer : Except Nat Nat}
    (ordered : starts.Pairwise (· < ·)) (first : starts[0]? = some 0)
    (searched : Searched starts offset answer) :
    lineIndex answer < starts.length ∧
      starts.takeWhile (· ≤ offset) = starts.take (lineIndex answer + 1) := by
  have cut {count : Nat} (before : ∀ start ∈ starts.take count, start ≤ offset)
      (behind : ∀ start ∈ starts.drop count, offset < start) :
      starts.takeWhile (· ≤ offset) = starts.take count := by
    have parts := takeWhile_le_append before behind
    rwa [List.take_append_drop] at parts
  cases answer with
  | ok index =>
      obtain ⟨within, found⟩ := List.getElem?_eq_some_iff.mp searched
      rw [← List.take_append_drop index starts, List.pairwise_append,
        List.drop_eq_getElem_cons within, found, List.pairwise_cons] at ordered
      obtain ⟨-, ⟨behind, -⟩, before⟩ := ordered
      refine ⟨within, cut (fun start member => ?_) behind⟩
      rw [lineIndex, List.take_add_one, List.getElem?_eq_getElem within, found, Option.toList_some,
        List.mem_append, List.mem_singleton] at member
      rcases member with earlier | rfl
      · exact (before start earlier offset List.mem_cons_self).le
      · exact Nat.le_refl _
  | error next =>
      obtain ⟨within, before, behind⟩ := searched
      cases next with
      | zero =>
          have := behind 0 (List.mem_of_getElem? first)
          omega
      | succ line => exact ⟨within, cut (fun start member => (before start member).le) behind⟩

/-- The lines begun up to an offset. -/
def begun (table : LineTable) (offset : Nat) : List Nat := table.starts.takeWhile (· ≤ offset)

/-- The offset at which the line of an offset begins, which is taken away from it for the column. -/
def lineStart (table : LineTable) (offset : Nat) : Nat := (table.begun offset).getLastD 0

variable {table : LineTable} {offset other : Nat}

theorem position_eq (inside : offset ≤ table.size) : table.position offset =
    ⟨(table.begun offset).length, offset - table.lineStart offset + 1, offset⟩ := by
  rw [position, Nat.min_eq_left inside]
  rfl

theorem position_min (table : LineTable) (offset : Nat) :
    table.position (min offset table.size) = table.position offset := by
  rw [position, Nat.min_assoc, Nat.min_self]
  rfl

theorem begun_ofSource (source : String) (offset : Nat) :
    (ofSource source).begun offset = 0 :: startsAmong 0 (source.toUTF8.data.toList.take offset) := by
  have begins := takeWhile_startsAmong 0 offset source.toUTF8.data.toList
  rw [Nat.zero_add] at begins
  rw [begun, starts_ofSource, List.takeWhile_cons_of_pos (by simp), begins]

/-- The position of an offset, as any search of the table tells it. -/
theorem position_of_searched (source : String) {offset : Nat} {answer : Except Nat Nat}
    (inside : offset ≤ (ofSource source).size)
    (searched : Searched (ofSource source).starts offset answer) :
    let line := lineIndex answer
    let start := (ofSource source).starts[line]?.getD 0
    (ofSource source).position offset = ⟨line + 1, offset - start + 1, offset⟩ := by
  intro line start
  have ordered : (ofSource source).starts.Pairwise (· < ·) := by
    rw [starts_ofSource]
    exact .cons (fun other member => (bounds_of_mem_startsAmong member).1) (pairwise_startsAmong _ _)
  obtain ⟨within, begun⟩ := takeWhile_of_searched ordered rfl searched
  have reached : (ofSource source).lineStart offset = start := by
    rw [lineStart, LineTable.begun, begun, List.getLastD_eq_getLast?, List.getLast?_take,
      if_neg (Nat.succ_ne_zero _), Nat.add_sub_cancel, List.getElem?_eq_getElem within,
      Option.some_or]
    exact (congrArg (Option.getD · 0) (List.getElem?_eq_getElem within)).symm
  rw [position_eq inside, reached, LineTable.begun, begun, List.length_take,
    Nat.min_eq_left (Nat.succ_le_of_lt within)]

theorem lineStart_le (table : LineTable) (offset : Nat) : table.lineStart offset ≤ offset := by
  have last : table.lineStart offset ∈ 0 :: table.begun offset := List.getLastD_mem_cons
  rcases List.mem_cons.mp last with none | member
  · rw [none]
    exact Nat.zero_le _
  · have reached := List.mem_takeWhile_imp (p := fun start => decide (start ≤ offset)) member
    exact of_decide_eq_true reached

theorem begun_prefix (table : LineTable) (before : offset ≤ other) :
    table.begun offset <+: table.begun other := by
  have shorter : table.begun offset = (table.begun other).takeWhile (· ≤ offset) := by
    rw [begun, begun, List.takeWhile_takeWhile]
    congr 1
    funext start
    simp
    omega
  rw [shorter]
  exact List.takeWhile_prefix _

/-- The line and the column of an offset, in the order in which they are read. -/
def place (table : LineTable) (offset : Nat) : Nat ×ₗ Nat :=
  toLex ((table.position offset).line, (table.position offset).column)

/-- Of two offsets the later one is on a later line, or in a later column of the same line. -/
theorem place_strictMonoOn (table : LineTable) : StrictMonoOn table.place (Set.Iic table.size) := by
  intro offset inside other otherInside before
  have lines := begun_prefix table before.le
  rw [place, place, position_eq inside, position_eq otherInside, Prod.Lex.toLex_lt_toLex]
  rcases lines.length_le.lt_or_eq with fewer | same
  · exact .inl fewer
  · have start : table.lineStart offset = table.lineStart other := by
      rw [lineStart, lineStart, lines.eq_of_length same]
    have inLine := table.lineStart_le offset
    exact .inr ⟨same, by simp only; omega⟩

/-- The line of some bytes that ends with them begins behind the last line feed, or with the first. -/
structure LineStart (before : List UInt8) (start : Nat) : Prop where
  inside : start ≤ before.length
  begins : start = 0 ∨ before[start - 1]? = some lineFeed
  within : ∀ i, start ≤ i → before[i]? ≠ some lineFeed

theorem lineStart_startsAmong (before : List UInt8) :
    LineStart before ((0 :: startsAmong 0 before).getLastD 0) := by
  induction before using List.reverseRecOn with
  | nil => exact ⟨Nat.le_refl _, .inl rfl, fun i _ => by simp⟩
  | append_singleton front byte ih =>
      rw [startsAmong_append, startsAmong]
      by_cases ends : byte = lineFeed
      · subst ends
        have last : (0 :: (startsAmong 0 front ++ [0 + front.length + 1])).getLastD 0 =
            front.length + 1 := by
          rw [← List.cons_append, List.getLastD_concat, Nat.zero_add]
        rw [if_pos rfl, startsAmong, last]
        refine ⟨by simp, .inr (by simp), fun i behind => ?_⟩
        rw [List.getElem?_eq_none (by simp; omega)]
        exact nofun
      · rw [if_neg ends, startsAmong, List.append_nil]
        obtain ⟨inside, begins, within⟩ := ih
        refine ⟨?_, begins.imp_right fun found => ?_, fun i behind found => ?_⟩
        · rw [List.length_append]
          omega
        · rw [List.getElem?_append_left (List.getElem?_eq_some_iff.mp found).1, found]
        · rcases Nat.lt_or_ge i front.length with inFront | atEnd
          · rw [List.getElem?_append_left inFront] at found
            exact within i behind found
          · rw [List.getElem?_append_right atEnd] at found
            have := List.mem_of_getElem? found
            exact ends (List.mem_singleton.mp this).symm

theorem position_congr (same : min offset table.size = min other table.size) :
    table.position offset = table.position other := by
  rw [← position_min table offset, same, position_min]

/-- The location that begins with the earlier start and ends with the later end. -/
theorem merge_location (table : LineTable) (start finish other otherFinish : Nat) :
    (table.location start finish).merge (table.location other otherFinish) =
      table.location (min start other) (max finish otherFinish) := by
  have offsets (offset : Nat) : (table.position offset).offset = min offset table.size := rfl
  rw [Location.merge, location, location, location, Location.mk.injEq]
  simp only [offsets]
  constructor
  · split
    next earlier => exact position_congr (by omega)
    next later => exact position_congr (by omega)
  · split
    next later => exact position_congr (by omega)
    next earlier => exact position_congr (by omega)

/-- A location of the text that does not end before it begins. -/
def Locates (table : LineTable) (location : Location) : Prop :=
  location.start.offset ≤ location.finish.offset ∧
    ∃ start finish, location = table.location start finish

namespace Locates

variable {location left middle right : Location}

theorem merge_comm (isLeft : table.Locates left) (isRight : table.Locates right) :
    left.merge right = right.merge left := by
  obtain ⟨-, start, finish, rfl⟩ := isLeft
  obtain ⟨-, other, otherFinish, rfl⟩ := isRight
  rw [merge_location, merge_location, Nat.min_comm, Nat.max_comm]

theorem merge_assoc (isLeft : table.Locates left) (isMiddle : table.Locates middle)
    (isRight : table.Locates right) :
    (left.merge middle).merge right = left.merge (middle.merge right) := by
  obtain ⟨-, start, finish, rfl⟩ := isLeft
  obtain ⟨-, other, otherFinish, rfl⟩ := isMiddle
  obtain ⟨-, last, lastFinish, rfl⟩ := isRight
  rw [merge_location, merge_location, merge_location, merge_location, Nat.min_assoc, Nat.max_assoc]

theorem merge_self (location : Location) : location.merge location = location := by
  simp [Location.merge]

theorem merge (isLeft : table.Locates left) (isRight : table.Locates right) :
    table.Locates (left.merge right) := by
  obtain ⟨leftOrder, start, finish, rfl⟩ := isLeft
  obtain ⟨rightOrder, other, otherFinish, rfl⟩ := isRight
  refine ⟨?_, _, _, merge_location table start finish other otherFinish⟩
  rw [merge_location]
  simp only [location, position] at leftOrder rightOrder ⊢
  omega

end Locates

end LineTable

namespace Location

variable {left right location : Location}

/-- The merged location covers both, and so does every location that it lies in. -/
theorem contains_merge_iff :
    location.Contains (left.merge right) ↔ location.Contains left ∧ location.Contains right := by
  simp only [Contains, merge]
  split <;> split <;> omega

end Location

namespace LineTable

variable {source : String} {offset : Nat}

theorem position_ofSource (source : String) (offset : Nat) :
    let before := source.toUTF8.data.toList.take offset
    let start := (ofSource source).lineStart before.length
    LineStart before start ∧ (ofSource source).position offset =
      ⟨1 + before.count lineFeed, 1 + (before.length - start), before.length⟩ := by
  intro before start
  have size := size_ofSource source
  have clamped : before.length = min offset (ofSource source).size := by
    rw [List.length_take, size]
  have same : source.toUTF8.data.toList.take before.length = before := by
    rw [List.length_take, ← List.take_take, List.take_length]
  have lines := begun_ofSource source before.length
  rw [same] at lines
  constructor
  · have begins := lineStart_startsAmong before
    rwa [← lines] at begins
  · rw [← position_min, ← clamped, position_eq (by omega), lines, List.length_cons,
      length_startsAmong, Nat.add_comm, Nat.add_comm 1 (before.length - start)]

end LineTable

/-- A position is told by the bytes before it, and no number for it takes more than 32 bits. The later
of two offsets has the later line, or the later column of one line. Merging two locations gives the
smallest one that covers both, and so it does not matter in which order they are merged. -/
theorem LineTable.positions_correspond (source : String) (short : source.utf8ByteSize < 2 ^ 32 - 1) :
    let table : LineTable := ofSource source
    let bytes := source.toUTF8.data.toList
    (∀ offset, let before := bytes.take offset
      let start := table.lineStart before.length
      LineStart before start ∧
        table.position offset =
          ⟨1 + before.count lineFeed, 1 + (before.length - start), before.length⟩ ∧
        (table.position offset).line < 2 ^ 32 ∧ (table.position offset).column < 2 ^ 32 ∧
        (table.position offset).offset < 2 ^ 32) ∧
    Set.InjOn table.place (Set.Iic bytes.length) ∧
    StrictMonoOn table.place (Set.Iic bytes.length) ∧
    ∀ left middle right, table.Locates left → table.Locates middle → table.Locates right →
      left.merge right = right.merge left ∧
      (left.merge middle).merge right = left.merge (middle.merge right) ∧
      left.merge left = left ∧
      table.Locates (left.merge right) ∧
      (left.merge right).Contains left ∧ (left.merge right).Contains right ∧
      ∀ location : Location, location.Contains left → location.Contains right →
        location.Contains (left.merge right) := by
  intro table bytes
  have size : table.size = bytes.length := size_ofSource source
  have order : StrictMonoOn table.place (Set.Iic bytes.length) := size ▸ table.place_strictMonoOn
  have limit : bytes.length < 2 ^ 32 - 1 := by
    rwa [← byteCount_toList, ← length_bytesOf, bytesOf_toList] at short
  refine ⟨fun offset => ?_, order.injOn, order, ?_⟩
  · intro before start
    obtain ⟨begins, position⟩ := position_ofSource source offset
    have shorter : before.length ≤ bytes.length := List.length_take_le' offset bytes
    have feeds : before.count lineFeed ≤ before.length := List.count_le_length
    have line : 1 + before.count lineFeed < 2 ^ 32 := by omega
    have column : 1 + (before.length - start) < 2 ^ 32 := by omega
    have last : before.length < 2 ^ 32 := by omega
    rw [position]
    exact ⟨begins, rfl, line, column, last⟩
  · intro left middle right isLeft isMiddle isRight
    have covers := Location.contains_merge_iff.mp
      (⟨Nat.le_refl _, Nat.le_refl _⟩ : (left.merge right).Contains (left.merge right))
    exact ⟨isLeft.merge_comm isRight, isLeft.merge_assoc isMiddle isRight,
      Locates.merge_self left, isLeft.merge isRight, covers.1, covers.2,
      fun location first second => Location.contains_merge_iff.mpr ⟨first, second⟩⟩

/-- A line with a character of two bytes, an empty line, one more, and what is behind the last line
feed. -/
theorem LineTable.fourLines_positions_correspond :
    let source := "π\n\nm\n"
    let table := ofSource source
    source.utf8ByteSize < 2 ^ 32 - 1 ∧
      [0, 1, 2, 3, 4, 5, 6, 7].map table.position =
        [⟨1, 1, 0⟩, ⟨1, 2, 1⟩, ⟨1, 3, 2⟩, ⟨2, 1, 3⟩, ⟨3, 1, 4⟩, ⟨3, 2, 5⟩, ⟨4, 1, 6⟩, ⟨4, 1, 6⟩] ∧
      StrictMonoOn table.place (Set.Iic 6) ∧
      (table.location 0 2).merge (table.location 4 5) =
        (table.location 4 5).merge (table.location 0 2) := by
  intro source table
  have short : source.utf8ByteSize < 2 ^ 32 - 1 := by decide
  have first : table.Locates (table.location 0 2) := ⟨by decide, 0, 2, rfl⟩
  have second : table.Locates (table.location 4 5) := ⟨by decide, 4, 5, rfl⟩
  obtain ⟨-, -, order, merges⟩ := positions_correspond source short
  have size : source.toUTF8.data.toList.length = 6 := by decide
  rw [size] at order
  exact ⟨short, by decide, order, (merges _ _ _ first first second).1⟩

end Quantities
