/-! Cutting a text into pieces. The pieces together are the text again, and none is empty. -/

namespace Quantities.Text

/-- Cuts a text after each character that is an end in front of what follows it. The piece begun so
far is held backwards. -/
def cutFrom (isEnd : Char → List Char → Bool) (begun : List Char) : List Char → List (List Char)
  | [] => if begun.isEmpty then [] else [begun.reverse]
  | c :: rest =>
    if isEnd c rest then (c :: begun).reverse :: cutFrom isEnd [] rest
    else cutFrom isEnd (c :: begun) rest

def cutAfter (isEnd : Char → List Char → Bool) (text : List Char) : List (List Char) :=
  cutFrom isEnd [] text

theorem flatten_cutFrom (isEnd : Char → List Char → Bool) (begun text : List Char) :
    (cutFrom isEnd begun text).flatten = begun.reverse ++ text := by
  induction text generalizing begun with
  | nil => cases begun <;> simp [cutFrom]
  | cons c rest ih =>
    rw [cutFrom]
    split <;> simp [ih]

theorem flatten_cutAfter (isEnd : Char → List Char → Bool) (text : List Char) :
    (cutAfter isEnd text).flatten = text := flatten_cutFrom isEnd [] text

theorem nil_not_mem_cutFrom (isEnd : Char → List Char → Bool) (begun text : List Char) :
    [] ∉ cutFrom isEnd begun text := by
  induction text generalizing begun with
  | nil => cases begun <;> simp [cutFrom]
  | cons c rest ih =>
    rw [cutFrom]
    split <;> simp [ih]

/-- Cuts a text after each line feed. -/
def cutLines (text : List Char) : List (List Char) := cutAfter (fun c _ => c == '\n') text

/-- A line without its end, which is a line feed or a carriage return and a line feed. -/
def withoutEnd (line : List Char) : List Char :=
  match line.reverse with
  | '\n' :: '\r' :: rest => rest.reverse
  | '\n' :: rest => rest.reverse
  | _ => line

end Quantities.Text
