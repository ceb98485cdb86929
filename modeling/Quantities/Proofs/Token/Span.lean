import Quantities.Token

/-!
The locations of tokens that stand in order, and the locations that cover rows of them.
-/

namespace Quantities

namespace Token

def start (token : Token) : Nat := token.location.start.offset

def finish (token : Token) : Nat := token.location.finish.offset

/-- The kind of a token and the offsets between which it stands. -/
def span (token : Token) : TokenKind × Nat × Nat := (token.kind, token.start, token.finish)

/-- The tokens take up room, one behind the other. -/
structure InOrder (tokens : List Token) : Prop where
  nonempty : ∀ token ∈ tokens, token.start < token.finish
  ordered : tokens.Pairwise fun token later => token.finish ≤ later.start

namespace InOrder

variable {tokens some : List Token}

theorem sublist (inOrder : InOrder tokens) (part : some.Sublist tokens) : InOrder some :=
  ⟨fun token member => inOrder.nonempty token (part.subset member), inOrder.ordered.sublist part⟩

theorem first_le {first : Token} {more : List Token} (inOrder : InOrder (first :: more))
    {token : Token} (member : token ∈ first :: more) : first.start ≤ token.start := by
  rcases List.mem_cons.mp member with rfl | later
  · exact Nat.le_refl _
  · have order := List.rel_of_pairwise_cons inOrder.ordered later
    have room := inOrder.nonempty first List.mem_cons_self
    omega

theorem le_last {last : Token} {front : List Token} (inOrder : InOrder (front ++ [last]))
    {token : Token} (member : token ∈ front ++ [last]) : token.finish ≤ last.finish := by
  rcases List.mem_append.mp member with before | same
  · have order := (List.pairwise_append.mp inOrder.ordered).2.2 token before last List.mem_cons_self
    have room := inOrder.nonempty last (by simp)
    omega
  · obtain rfl := List.mem_singleton.mp same
    exact Nat.le_refl _

end InOrder

end Token

/-- The location goes from the first of the tokens to the last. -/
structure Location.Covers (location : Location) (used : List Token) : Prop where
  start : used.head?.map (·.location.start) = some location.start
  finish : used.getLast?.map (·.location.finish) = some location.finish

namespace Location

/-- The one location ends before the other one begins. -/
def Before (location later : Location) : Prop := location.finish.offset ≤ later.start.offset

/-- The other location begins and ends in this one. -/
def Contains (location inner : Location) : Prop :=
  location.start.offset ≤ inner.start.offset ∧ inner.finish.offset ≤ location.finish.offset

namespace Covers

variable {left right location inner : Location} {first between second used : List Token}

theorem exists_first (covers : location.Covers used) :
    ∃ token more, used = token :: more ∧ token.location.start = location.start := by
  obtain ⟨token, found, same⟩ := Option.map_eq_some_iff.mp covers.start
  obtain ⟨more, rfl⟩ := List.head?_eq_some_iff.mp found
  exact ⟨token, more, rfl, same⟩

theorem exists_last (covers : location.Covers used) :
    ∃ token front, used = front ++ [token] ∧ token.location.finish = location.finish := by
  obtain ⟨token, found, same⟩ := Option.map_eq_some_iff.mp covers.finish
  obtain ⟨front, rfl⟩ := List.getLast?_eq_some_iff.mp found
  exact ⟨token, front, rfl, same⟩

theorem before (lefts : left.Covers first) (rights : right.Covers second)
    (inOrder : Token.InOrder (first ++ (between ++ second))) : left.Before right := by
  obtain ⟨last, front, rfl, finish⟩ := lefts.exists_last
  obtain ⟨next, more, rfl, start⟩ := rights.exists_first
  rw [Before, ← finish, ← start]
  exact (List.pairwise_append.mp inOrder.ordered).2.2 last (by simp) next (by simp)

theorem contains (covers : location.Covers used) (inners : inner.Covers second)
    (inOrder : Token.InOrder used) (part : second.Sublist used) : location.Contains inner := by
  constructor
  · obtain ⟨token, more, rfl, start⟩ := inners.exists_first
    obtain ⟨first, others, rfl, whole⟩ := covers.exists_first
    rw [← start, ← whole]
    exact inOrder.first_le (part.subset List.mem_cons_self)
  · obtain ⟨token, front, rfl, finish⟩ := inners.exists_last
    obtain ⟨last, others, rfl, whole⟩ := covers.exists_last
    rw [← finish, ← whole]
    exact inOrder.le_last (part.subset (by simp))

theorem start_lt_finish (covers : location.Covers used) (inOrder : Token.InOrder used) :
    location.start.offset < location.finish.offset := by
  obtain ⟨token, more, rfl, start⟩ := covers.exists_first
  obtain ⟨last, front, same, finish⟩ := covers.exists_last
  have room := inOrder.nonempty token List.mem_cons_self
  rw [same] at inOrder
  have inside := inOrder.le_last (same ▸ List.mem_cons_self)
  rw [← start, ← finish]
  exact Nat.lt_of_lt_of_le room inside

theorem merge (lefts : left.Covers first) (rights : right.Covers second)
    (inOrder : Token.InOrder (first ++ (between ++ second))) :
    (left.merge right).Covers (first ++ (between ++ second)) := by
  have order : left.finish.offset ≤ right.start.offset := lefts.before rights inOrder
  have leftRoom := lefts.start_lt_finish (inOrder.sublist (List.sublist_append_left _ _))
  have rightRoom := rights.start_lt_finish
    (inOrder.sublist ((List.sublist_append_right _ _).trans (List.sublist_append_right _ _)))
  have starts : ¬ right.start.offset < left.start.offset := by omega
  have finishes : left.finish.offset < right.finish.offset := by omega
  constructor
  · obtain ⟨token, more, rfl, start⟩ := lefts.exists_first
    simp [Location.merge, starts, start]
  · obtain ⟨last, front, rfl, finish⟩ := rights.exists_last
    simp [Location.merge, finishes, finish]

end Covers

end Location

end Quantities
