import Quantities.Proofs.Grammar.Program
import Quantities.Proofs.Token.Munch

/-!
What stands between the tokens of a text. A token is found again wherever its text stands in front of
a blank, whatever stood behind it at first, so a text may be spaced out, with comments too, and
neither its tokens nor what is read from it are other ones.
-/

namespace Quantities

theorem isBreak_of_isBlank {c : Char} (blank : isBlank c = true) : isBreak c = true := by
  simp only [isBlank, Bool.or_eq_true, beq_iff_eq] at blank
  rcases blank with (((rfl | rfl) | rfl) | rfl) | rfl <;> decide

/-- A blank, or a comment with the line feed that ends it. -/
inductive Filler where
  | blank (c : Char) (isBlank : isBlank c = true)
  | comment (line : List Char) (within : '\n' ∉ line)

def Filler.text : Filler → List Char
  | blank c _ => [c]
  | comment line _ => '/' :: '/' :: (line ++ ['\n'])

/-- What sets two tokens apart: a blank, and any blanks and comments behind it. -/
structure Spacing where
  blank : Char
  isBlank : isBlank blank = true
  fillers : List Filler

namespace Spacing

def text (spacing : Spacing) : List Char := spacing.blank :: spacing.fillers.flatMap Filler.text

theorem gap_fillers (behind : List Char) (fillers : List Filler) :
    Gap behind (fillers.flatMap Filler.text) := by
  induction fillers with
  | nil => exact .nil
  | cons filler more ih =>
      rw [List.flatMap_cons]
      cases filler with
      | blank c isBlank => exact .blank isBlank ih
      | comment line within =>
          rw [Filler.text, List.cons_append, List.cons_append, List.append_assoc,
            List.singleton_append]
          refine .comment within (fun c found => ?_) (.blank rfl ih)
          cases found
          rfl

theorem gap (spacing : Spacing) (behind : List Char) : Gap behind spacing.text :=
  .blank spacing.isBlank (gap_fillers behind spacing.fillers)

theorem breaks (spacing : Spacing) (behind : List Char) : Breaks (spacing.text ++ behind) :=
  .cons (isBreak_of_isBlank spacing.isBlank) _

end Spacing

/-- The pieces in order. The spacing with a piece's number stands in front of it, and the next one
behind the last piece. -/
def spaced (spacing : Nat → Spacing) : List (List Char) → List Char
  | [] => (spacing 0).text
  | piece :: rest => (spacing 0).text ++ (piece ++ spaced (spacing ∘ Nat.succ) rest)

theorem breaks_spaced (spacing : Nat → Spacing) (pieces : List (List Char)) :
    Breaks (spaced spacing pieces) := by
  cases pieces with
  | nil =>
      rw [spaced, ← List.append_nil (spacing 0).text]
      exact (spacing 0).breaks []
  | cons piece rest => exact (spacing 0).breaks _

namespace Lexeme

variable {offset : Nat} {kind : TokenKind} {text gap behind later whole : List Char}
  {lexemes : List Lexeme}

theorem kinds_gap (isGap : Gap behind gap) : kinds (gap ++ behind) = kinds behind := by
  rw [kinds, scanFrom_gap isGap]
  exact map_kind_scanFrom _ _ behind

/-- A token is read from its text alone, and so it is read in front of any text that goes on no
token. What stood behind it where it was found does not matter. -/
theorem kinds_munched (munches : kind.Munches behind text) (breaks : Breaks later) :
    kinds (text ++ later) = kind :: kinds later := by
  have alone := munches.of_prefix List.nil_prefix
  obtain ⟨c, more, rfl⟩ := List.exists_cons_of_ne_nil alone.text_ne_nil
  have notBlank := alone.not_isBlank
  have notComment := alone.not_startsComment
  have whole : c :: more.take (TokenKind.atStart c more).2 ++
      more.drop (TokenKind.atStart c more).2 = c :: more ++ [] := by
    rw [List.cons_append, List.take_append_drop, List.append_nil]
  rw [List.append_nil] at notComment
  obtain ⟨sameKind, -, left⟩ :=
    (TokenKind.atStart_munches notBlank notComment).unique alone whole
  rw [← startsComment_append breaks.parts c more] at notComment
  rw [List.cons_append, kinds_of_token notBlank notComment, TokenKind.atStart_append breaks,
    List.drop_append_of_le_length (TokenKind.atStart_length c more), sameKind, left,
    List.nil_append]

/-- By induction on the row of tokens. The spacings stand where the gaps between them stood. -/
theorem Munched.kinds_spaced (munched : Munched offset whole lexemes) (spacing : Nat → Spacing) :
    kinds (spaced spacing (lexemes.map (·.text))) = lexemes.map (·.kind) := by
  induction munched generalizing spacing with
  | finish isGap =>
      have nothing := kinds_gap ((spacing 0).gap [])
      rwa [List.append_nil, kinds_nil] at nothing
  | token isGap munches more ih =>
      rw [List.map_cons, spaced, kinds_gap ((spacing 0).gap _),
        kinds_munched munches (breaks_spaced _ _), ih, List.map_cons]

end Lexeme

namespace Tokens

/-- The texts of the tokens in a source, in order. -/
def texts (source : String) : List (List Char) := (Lexeme.scanFrom 0 source.toList).map (·.text)

theorem slices_texts (source : String) :
    List.Forall₂ (fun token text => ∃ slice : Slice source.toList token.start token.finish,
      slice.text = text) (ofSource source).items (texts source) := by
  rw [items_ofSource, texts, List.forall₂_map_left_iff, List.forall₂_map_right_iff,
    List.forall₂_same]
  intro lexeme member
  obtain ⟨before, behind, whole, start, -⟩ :=
    (Lexeme.Munched.of_scanFrom 0 source.toList).token_of_mem member
  rw [(offsets_token member).1, (offsets_token member).2]
  exact ⟨⟨before, lexeme.text, behind, whole, by omega, rfl⟩, rfl⟩

/-- The source with its tokens spaced out. -/
def respaced (source : String) (spacing : Nat → Spacing) : String :=
  String.ofList (spaced spacing (texts source))

theorem kinds_respaced (source : String) (spacing : Nat → Spacing) :
    (ofSource (respaced source spacing)).kinds = (ofSource source).kinds := by
  have row := Lexeme.Munched.of_scanFrom 0 source.toList
  rw [kinds_ofSource, kinds_ofSource, respaced, String.toList_ofList, texts,
    row.kinds_spaced spacing]
  rfl

end Tokens

section

variable {tokens other : Tokens}

theorem Program.ofTokens_of_kinds {program : List Stmt} (same : tokens.kinds = other.kinds)
    (read : ofTokens tokens = .ok program) :
    ∃ again, ofTokens other = .ok again ∧ again.map Stmt.bare = program.map Stmt.bare := by
  obtain ⟨d, yields, trees⟩ := exists_derivation read
  obtain ⟨again, readAgain, otherTrees⟩ := ofTokens_of_yield (yields.trans same)
  exact ⟨again, readAgain, otherTrees.trans trees.symm⟩

theorem Expr.ofTokens_of_kinds {e : Expr} (same : tokens.kinds = other.kinds)
    (read : ofTokens tokens = .ok e) :
    ∃ again, ofTokens other = .ok again ∧ again.bare = e.bare := by
  obtain ⟨d, yields, tree⟩ := exists_derivation read
  obtain ⟨again, readAgain, otherTree⟩ := ofTokens_of_yield (yields.trans same)
  exact ⟨again, readAgain, otherTree.trans tree.symm⟩

end

/-- Layout is of no account. A source whose tokens are spaced out anew has the same tokens, and the
same program or expression is read from it, locations aside, if one is read at all. -/
theorem respaced_reads_same (source : String) (spacing : Nat → Spacing) :
    List.Forall₂ (fun token text => ∃ slice : Slice source.toList token.start token.finish,
      slice.text = text) (Tokens.ofSource source).items (Tokens.texts source) ∧
    (Tokens.ofSource (Tokens.respaced source spacing)).kinds = (Tokens.ofSource source).kinds ∧
    (Program.ofSource (Tokens.respaced source spacing)).toOption.map (·.map Stmt.bare) =
      (Program.ofSource source).toOption.map (·.map Stmt.bare) ∧
    (Expr.ofSource (Tokens.respaced source spacing)).toOption.map Expr.bare =
      (Expr.ofSource source).toOption.map Expr.bare := by
  have same := Tokens.kinds_respaced source spacing
  refine ⟨Tokens.slices_texts source, same, ?_, ?_⟩
  · exact Result.toOption_map_eq (fun _ => Program.ofTokens_of_kinds same)
      fun _ => Program.ofTokens_of_kinds same.symm
  · exact Result.toOption_map_eq (fun _ => Expr.ofTokens_of_kinds same)
      fun _ => Expr.ofTokens_of_kinds same.symm

end Quantities
