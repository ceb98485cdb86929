import Quantities.Proofs.Grammar.Locations
import Quantities.Proofs.Grammar.Sorts
import Quantities.Proofs.Grammar.StatementStuck

/-!
Where a text is refused. The error is at the first token with which the text does not begin as a
program does, or at the end of a text that is the beginning of a program.
-/

namespace Quantities

namespace Tokens

/-- The kinds of the tokens, and at the end of the text no kind. -/
def ended (tokens : Tokens) : List (Option TokenKind) := tokens.kinds.map some ++ [none]

def sorts (tokens : Tokens) : List (Option TokenKind) := tokens.ended.map (·.map TokenKind.sort)

def locations (tokens : Tokens) : List Location := tokens.items.map (·.location) ++ [tokens.finish]

variable {source : String} {tokens other : Tokens} {used left : List Token}

theorem nodup_locations (source : String) : (ofSource source).locations.Nodup := by
  have munch := maximalMunch_ofSource source
  rw [locations, List.nodup_append]
  refine ⟨?_, by simp, ?_⟩
  · rw [List.Nodup, List.pairwise_map]
    refine munch.ordered.imp_of_mem fun {token later} member _ order same => ?_
    have room := munch.nonempty token member
    have starts : token.start = later.start := congrArg (·.start.offset) same
    omega
  · intro location member last isLast same
    obtain ⟨token, inside, rfl⟩ := List.mem_map.mp member
    obtain rfl := List.mem_singleton.mp isLast
    obtain ⟨slice, -⟩ := munch.munched token inside
    have room := munch.nonempty token inside
    have within := slice.finish_le
    have starts : token.start = (ofSource source).finish.start.offset :=
      congrArg (·.start.offset) same
    rw [munch.finish.1, ← byteCount_toList] at starts
    omega

theorem spellable_front (items : (ofSource source).items = used ++ left) :
    Spellable (used.map (·.kind)) := by
  have row := Lexeme.Munched.of_scanFrom 0 source.toList
  rw [items_ofSource] at items
  obtain ⟨front, later, whole, rfl, -⟩ := List.map_eq_append_iff.mp items
  rw [whole] at row
  obtain ⟨before, -, -, -, alone, -⟩ := row.split
  refine ⟨before, ?_⟩
  rw [alone.kinds_eq, List.map_map]
  rfl

theorem take_of_ended {α : Type} {row others : List α} {k : Nat} (inside : k ≤ row.length)
    (same : (others.map some ++ [none]).take (k + 1) = (row.map some ++ [none]).take (k + 1)) :
    others.take (k + 1) = row.take (k + 1) := by
  induction k generalizing row others with
  | zero => cases row <;> cases others <;> simp_all
  | succ k ih =>
      cases row with
      | nil => simp at inside
      | cons first row =>
          cases others with
          | nil => simp at same
          | cons other others =>
              simp only [List.map_cons, List.cons_append, List.take_succ_cons, List.cons.injEq,
                Option.some.injEq] at same
              obtain ⟨rfl, same⟩ := same
              rw [List.take_succ_cons, ih (Nat.le_of_succ_le_succ inside) same,
                List.take_succ_cons]

theorem sameSorts_of_take {k : Nat} (inside : k ≤ tokens.kinds.length)
    (same : other.sorts.take (k + 1) = tokens.sorts.take (k + 1)) :
    SameSorts (other.kinds.take (k + 1)) (tokens.kinds.take (k + 1)) := by
  have sorts (tokens : Tokens) :
      tokens.sorts = (tokens.kinds.map TokenKind.sort).map some ++ [none] := by
    simp [Tokens.sorts, ended, Function.comp_def]
  rw [sorts, sorts] at same
  have front := take_of_ended (by rwa [List.length_map]) same
  rwa [← List.map_take, ← List.map_take] at front

end Tokens

theorem Grammar.not_sameSorts_of_stuck {c : Cursor} {e : ParseError} {used left : List Token}
    {Completes : List TokenKind → Prop} (stuck : StuckAt (Fails statements) Completes c e used left)
    (d : ProgramDerivation)
    (sorts : SameSorts (d.yield.take (used.length + 1)) (c.kinds.take (used.length + 1))) :
    False := by
  have front : c.kinds.take (used.length + 1) =
      used.map (·.kind) ++ (left.map (·.kind)).take 1 := by
    rw [Cursor.kinds, stuck.rest, List.map_append, List.take_append]
    simp
  rw [front] at sorts
  -- With the very tokens of the row in front it is a program still, and the reading is stuck there.
  obtain ⟨other, yield⟩ : ∃ other : ProgramDerivation, other.yield =
      used.map (·.kind) ++ ((left.map (·.kind)).take 1 ++ d.yield.drop (used.length + 1)) := by
    apply d.exists_of_sorts
    rw [← List.append_assoc, SameSorts, List.map_append, ← sorts, ← List.map_append,
      List.take_append_drop]
  have begins : ((left.map (·.kind)).take 1 ++ d.yield.drop (used.length + 1)).head? =
      left.head?.map (·.kind) := by
    cases left with
    | cons token more => rfl
    | nil =>
        have lengths := congrArg List.length sorts
        have nothing : d.yield.drop (used.length + 1) = [] := by
          simp at lengths ⊢
          omega
        rw [nothing]
        rfl
  let again : Cursor := ⟨other.yield.map (⟨·, c.finish⟩), c.finish, c.passed⟩
  have kinds : again.kinds = other.yield := by simp [again, Cursor.kinds, Function.comp_def]
  obtain ⟨program, read, -⟩ := statements_complete other kinds
  obtain ⟨failure, failed⟩ := stuck.fails again _ (kinds.trans yield) begins
  rw [read] at failed
  cases failed

theorem Cursor.location_of_rest {tokens : Tokens} {there : Cursor} {used : List Token}
    (items : tokens.items = used ++ there.rest) (finish : there.finish = tokens.finish) :
    tokens.locations[used.length]? = some there.location := by
  rw [Tokens.locations, items, List.map_append, List.append_assoc,
    List.getElem?_append_right (by simp), List.length_map, Nat.sub_self, location]
  cases there.rest with
  | nil => simp [finish]
  | cons token more => rfl

theorem Tokens.ended_of_rest {tokens : Tokens} {there : Cursor} {used : List Token}
    (items : tokens.items = used ++ there.rest) : tokens.ended[used.length]? = some there.kind? := by
  rw [ended, kinds, items, List.map_append, List.map_append, List.append_assoc,
    List.getElem?_append_right (by simp), List.length_map, List.length_map, Nat.sub_self]
  cases rest : there.rest with
  | nil => simp [Cursor.kind?, rest]
  | cons token more => simp [Cursor.kind?, rest]

theorem ParseCause.of_eq_invalidCharacter {wanted : Wanted} {found : Option TokenKind} :
    of wanted found = .invalidCharacter ↔ found = some .invalid := by
  unfold of
  split
  next => simp
  next other =>
      simp only [reduceCtorEq, false_iff]
      exact other

namespace Program

/-- The text is refused at the token with this number, with the end of the text as the last one. Some
program begins with the tokens in front of it, and none with these and it, or others of their sorts. -/
structure RefusedAt (source : String) (e : ParseError) (k : Nat) : Prop where
  located : ∀ i, (Tokens.ofSource source).locations[i]? = some e.location ↔ i = k
  viable : ∃ other program, ofSource other = .ok program ∧
    (Tokens.ofSource other).ended.take k = (Tokens.ofSource source).ended.take k
  refused : ∀ other, (Tokens.ofSource other).sorts.take (k + 1) =
    (Tokens.ofSource source).sorts.take (k + 1) → ∃ failure, ofSource other = .error failure
  invalid : e.cause = .invalidCharacter ↔
    (Tokens.ofSource source).ended[k]? = some (some .invalid)

theorem error_refusedAt {source : String} {e : ParseError} (failed : ofSource source = .error e) :
    ∃ k, RefusedAt source e k := by
  obtain ⟨used, left, stuck⟩ := Grammar.statements_stuck failed (Node.inOrder_ofSource source)
  obtain ⟨there, wanted, rfl, finish, rfl⟩ := stuck.refused
  obtain ⟨more, ⟨text, rfl⟩, d, yield⟩ := stuck.viable
  have items : (Tokens.ofSource source).items = used ++ there.rest := stuck.rest
  have kinds : (Tokens.ofSource source).kinds =
      used.map (·.kind) ++ there.rest.map (·.kind) := by
    rw [Tokens.kinds, items, List.map_append]
  refine ⟨used.length, ?_, ?_, ?_, ?_⟩
  · intro i
    have found := Cursor.location_of_rest items finish
    constructor
    · intro same
      have inside := (List.getElem?_eq_some_iff.mp found).1
      have distinct := Tokens.nodup_locations source
      exact ((List.getElem?_inj inside distinct).mp (found.trans same.symm)).symm
    · rintro rfl
      exact found
  · obtain ⟨front, frontKinds⟩ := Tokens.spellable_front items
    have spelled := Lexeme.kinds_append_lineFeed front text
    rw [frontKinds] at spelled
    have others : (Tokens.ofSource (String.ofList (front ++ '\n' :: text))).kinds = d.yield := by
      rw [Tokens.kinds_ofSource, String.toList_ofList, spelled, yield]
    obtain ⟨program, read, -⟩ := ofTokens_of_yield others.symm
    refine ⟨_, program, read, ?_⟩
    rw [Tokens.ended, Tokens.ended, others, yield, kinds]
    simp
  · intro other same
    cases read : ofSource other with
    | error failure => exact ⟨failure, rfl⟩
    | ok program =>
        obtain ⟨d, derived, -⟩ := exists_derivation read
        have inside : used.length ≤ (Tokens.ofSource source).kinds.length := by simp [kinds]
        have sorts := Tokens.sameSorts_of_take inside same
        rw [← derived] at sorts
        exact (Grammar.not_sameSorts_of_stuck stuck d sorts).elim
  · rw [Tokens.ended_of_rest items, Option.some.injEq]
    exact ParseCause.of_eq_invalidCharacter

theorem brace_refusedAt :
    ∃ e, ofSource "\x7d x" = .error e ∧ ∃ k, RefusedAt "\x7d x" e k := by
  have kinds : (Tokens.ofSource "\x7d x").kinds = [.mark .rightBrace, .name "x"] := by
    decide +kernel
  have notFirst {cut closed : Bool} (d : StmtDerivation cut closed) (behind : List TokenKind) :
      d.yield ++ behind ≠ [.mark .rightBrace, .name "x"] := by
    intro same
    obtain ⟨kind, more, yield, other, -⟩ := d.yield_eq_cons
    rw [yield] at same
    exact other (List.cons.inj same).1
  cases read : ofSource "\x7d x" with
  | error e => exact ⟨e, rfl, error_refusedAt read⟩
  | ok program =>
      obtain ⟨d, yield, -⟩ := exists_derivation read
      rw [kinds] at yield
      match d with
      | .whole (.cons first rest) => exact (notFirst first rest.yield yield).elim
      | .cut .nil last => exact (notFirst last [] (by rwa [List.append_nil])).elim
      | .cut (.cons first rest) last =>
          refine (notFirst first (rest.yield ++ last.yield) ?_).elim
          rw [← List.append_assoc]
          exact yield

end Program

end Quantities
