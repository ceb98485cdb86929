import Quantities.Source.LineTable

/-!
The slices of a text. A slice lies between two offsets in bytes, both of which are between two
characters of the text or at an end of it.
-/

namespace Quantities

@[simp]
theorem byteCount_nil : byteCount [] = 0 := rfl

@[simp]
theorem byteCount_cons (c : Char) (text : List Char) :
    byteCount (c :: text) = c.utf8Size + byteCount text := rfl

@[simp]
theorem byteCount_append (text more : List Char) :
    byteCount (text ++ more) = byteCount text + byteCount more := by
  induction text with
  | nil => simp
  | cons c rest ih => rw [List.cons_append, byteCount_cons, byteCount_cons, ih, Nat.add_assoc]

theorem byteCount_pos {text : List Char} (nonempty : text ≠ []) : 0 < byteCount text := by
  cases text with
  | nil => exact absurd rfl nonempty
  | cons c rest => exact Nat.lt_of_lt_of_le c.utf8Size_pos (Nat.le_add_right _ _)

theorem utf8ByteSize_ofList (text : List Char) :
    (String.ofList text).utf8ByteSize = byteCount text := by
  induction text with
  | nil => rfl
  | cons c rest ih =>
      have spelled : String.ofList (c :: rest) = String.singleton c ++ String.ofList rest :=
        String.toList_injective (by simp)
      rw [spelled, String.utf8ByteSize_append, String.utf8ByteSize_singleton, ih, byteCount_cons]

theorem byteCount_toList (text : String) : byteCount text.toList = text.utf8ByteSize := by
  rw [← utf8ByteSize_ofList, String.ofList_toList]

/-- The part of a text between two offsets, with what is before and behind it. -/
structure Slice (whole : List Char) (start finish : Nat) where
  before : List Char
  text : List Char
  behind : List Char
  whole_eq : whole = before ++ text ++ behind
  start_eq : start = byteCount before
  finish_eq : finish = start + byteCount text

/-- Characters take up room, so what is before an offset is one text. -/
theorem append_inj_of_byteCount {before other behind behind' : List Char}
    (same : before ++ behind = other ++ behind') (count : byteCount before = byteCount other) :
    before = other ∧ behind = behind' := by
  induction before generalizing other with
  | nil =>
      cases other with
      | nil => exact ⟨rfl, same⟩
      | cons c rest =>
          have positive := byteCount_pos (List.cons_ne_nil c rest)
          rw [← count] at positive
          cases positive
  | cons c rest ih =>
      cases other with
      | nil =>
          have positive := byteCount_pos (List.cons_ne_nil c rest)
          rw [count] at positive
          cases positive
      | cons d more =>
          obtain ⟨rfl, left⟩ := List.cons.inj same
          obtain ⟨rfl, rfl⟩ := ih left (Nat.add_left_cancel count)
          exact ⟨rfl, rfl⟩

namespace Slice

variable {whole : List Char} {start finish : Nat}

theorem eq (slice other : Slice whole start finish) : slice = other := by
  obtain ⟨before, text, behind, wholes, starts, finishes⟩ := slice
  obtain ⟨before', text', behind', wholes', starts', finishes'⟩ := other
  rw [wholes, List.append_assoc, List.append_assoc] at wholes'
  obtain ⟨rfl, left⟩ := append_inj_of_byteCount wholes' (starts.symm.trans starts')
  obtain ⟨rfl, rfl⟩ := append_inj_of_byteCount left (by omega)
  rfl

theorem finish_le (slice : Slice whole start finish) : finish ≤ byteCount whole := by
  obtain ⟨before, text, behind, rfl, rfl, rfl⟩ := slice
  simp only [byteCount_append]
  omega

end Slice

namespace LineTable

variable {table : LineTable}

theorem position_offset {offset : Nat} (inside : offset ≤ table.size) :
    (table.position offset).offset = offset := Nat.min_eq_left inside

theorem location_start {start finish : Nat} (inside : start ≤ table.size) :
    (table.location start finish).start.offset = start := position_offset inside

theorem location_finish {start finish : Nat} (inside : finish ≤ table.size) :
    (table.location start finish).finish.offset = finish := position_offset inside

end LineTable

end Quantities
