import Quantities.Proofs.Source.Slice
import Quantities.Proofs.Token.Pattern
import Quantities.Proofs.Token.Span

/-!
A text as a row of tokens with gaps of blanks and comments between them. There is one such row for
each text, and it is the one that is read.
-/

namespace Quantities

/-- Blanks and comments. A comment runs up to a line feed or to the end of the text. -/
inductive Gap (behind : List Char) : List Char → Prop where
  | nil : Gap behind []
  | blank {c : Char} {text : List Char} (isBlank : isBlank c = true) (gap : Gap behind text) :
      Gap behind (c :: text)
  | comment {line text : List Char} (within : '\n' ∉ line)
      (ends : ∀ c, (text ++ behind).head? = some c → c = '\n') (gap : Gap behind text) :
      Gap behind ('/' :: '/' :: (line ++ text))

theorem Gap.of_prefix {behind shorter gap : List Char} (isGap : Gap behind gap)
    (start : shorter <+: behind) : Gap shorter gap := by
  obtain ⟨others, rfl⟩ := start
  induction isGap with
  | nil => exact .nil
  | blank isBlank gap ih => exact .blank isBlank ih
  | comment within ends gap ih =>
      refine .comment within (fun c found => ends c ?_) ih
      rw [← List.append_assoc, List.head?_append, found]
      rfl

namespace Lexeme

variable {offset : Nat} {kind : TokenKind} {c : Char}
  {gap text rest whole behind line : List Char} {lexemes front later : List Lexeme}

theorem scanFrom_of_blank (blank : isBlank c = true) :
    scanFrom offset (c :: rest) = scanFrom (offset + c.utf8Size) rest := by
  rw [scanFrom, if_pos blank]

theorem scanFrom_of_comment (within : '\n' ∉ line)
    (ends : ∀ c, rest.head? = some c → c = '\n') :
    scanFrom offset ('/' :: '/' :: (line ++ rest)) =
      scanFrom (offset + byteCount ('/' :: '/' :: line)) rest := by
  have comment : startsComment ('/' :: '/' :: (line ++ rest)) = true :=
    startsComment_of_prefix (List.prefix_append ('/' :: '/' :: line) rest)
  have taken : ('/' :: (line ++ rest)).takeWhile (· != '\n') = '/' :: line := by
    have parts : ∀ c ∈ '/' :: line, (c != '\n') = true := by
      intro c member
      rw [bne_iff_ne]
      rintro rfl
      rcases List.mem_cons.mp member with same | inLine
      · cases same
      · exact within inLine
    have stops : rest.takeWhile (· != '\n') = [] := by
      cases rest with
      | nil => rfl
      | cons d more =>
          obtain rfl := ends d rfl
          rfl
    rw [← List.cons_append, List.takeWhile_append_of_pos parts, stops, List.append_nil]
  rw [scanFrom, if_neg (by decide), if_pos comment]
  simp only [taken, List.length_cons, List.drop_succ_cons, List.drop_left]

theorem takeWhile_of_startsComment (comment : startsComment (c :: rest) = true) :
    ∃ line, c :: rest.takeWhile (· != '\n') = '/' :: '/' :: line ∧ '\n' ∉ line := by
  obtain ⟨behind, same⟩ := List.isPrefixOf_iff_prefix.mp comment
  obtain ⟨rfl, rfl⟩ := List.cons.inj same
  refine ⟨behind.takeWhile (· != '\n'), rfl, fun member => ?_⟩
  have other := List.all_eq_true.mp (@List.all_takeWhile _ (· != '\n') behind) '\n' member
  simp at other

theorem scanFrom_gap (isGap : Gap behind gap) (offset : Nat) :
    scanFrom offset (gap ++ behind) = scanFrom (offset + byteCount gap) behind := by
  induction isGap generalizing offset with
  | nil => rfl
  | blank isBlank gap ih =>
      rw [List.cons_append, scanFrom_of_blank isBlank, ih, byteCount_cons, Nat.add_assoc]
  | comment within ends gap ih =>
      rw [List.cons_append, List.cons_append, List.append_assoc, scanFrom_of_comment within ends, ih,
        ← List.cons_append, ← List.cons_append, byteCount_append, Nat.add_assoc]

theorem scanFrom_token (munches : kind.Munches rest text) (offset : Nat) :
    scanFrom offset (text ++ rest) =
      ⟨kind, offset, text⟩ :: scanFrom (offset + byteCount text) rest := by
  obtain ⟨c, more, rfl⟩ := List.exists_cons_of_ne_nil munches.text_ne_nil
  have notBlank := munches.not_isBlank
  have notComment := munches.not_startsComment
  have whole : c :: (more ++ rest).take (TokenKind.atStart c (more ++ rest)).2 ++
      (more ++ rest).drop (TokenKind.atStart c (more ++ rest)).2 = c :: more ++ rest := by
    rw [List.cons_append, List.take_append_drop, List.cons_append]
  obtain ⟨sameKind, sameText, left⟩ :=
    (TokenKind.atStart_munches notBlank notComment).unique munches whole
  rw [List.cons_append, scanFrom, if_neg notBlank, if_neg notComment]
  simp only [sameKind, sameText, left]
  rfl

/-- A text that starts at an offset is a row of tokens, with gaps around them. -/
inductive Munched : Nat → List Char → List Lexeme → Prop where
  | finish {offset : Nat} {gap : List Char} (isGap : Gap [] gap) : Munched offset gap []
  | token {offset : Nat} {kind : TokenKind} {gap text rest : List Char} {lexemes : List Lexeme}
      (isGap : Gap (text ++ rest) gap) (munches : kind.Munches rest text)
      (more : Munched (offset + byteCount gap + byteCount text) rest lexemes) :
      Munched offset (gap ++ (text ++ rest)) (⟨kind, offset + byteCount gap, text⟩ :: lexemes)

namespace Munched

theorem eq_scanFrom (munched : Munched offset whole lexemes) : lexemes = scanFrom offset whole := by
  induction munched with
  | finish isGap =>
      have passed := scanFrom_gap isGap
      simp only [List.append_nil] at passed
      rw [passed, scanFrom]
  | token isGap munches more ih => rw [scanFrom_gap isGap, scanFrom_token munches, ih]

theorem of_gap (front : List Char) (munched : Munched (offset + byteCount front) whole lexemes)
    (isGap : ∀ {behind gap : List Char}, whole = gap ++ behind → Gap behind gap →
      Gap behind (front ++ gap)) :
    Munched offset (front ++ whole) lexemes := by
  cases munched with
  | finish inner => exact .finish (isGap (List.append_nil _).symm inner)
  | @token _ kind gap text rest lexemes inner munches more =>
      have moved : offset + byteCount front + byteCount gap = offset + byteCount (front ++ gap) := by
        rw [byteCount_append, Nat.add_assoc]
      rw [moved] at more ⊢
      rw [← List.append_assoc]
      exact .token (isGap rfl inner) munches more

theorem of_scanFrom (offset : Nat) (whole : List Char) :
    Munched offset whole (scanFrom offset whole) := by
  induction offset, whole using scanFrom.induct with
  | case1 offset =>
      rw [scanFrom]
      exact .finish .nil
  | case2 offset c rest blank ih =>
      rw [scanFrom_of_blank blank]
      have one : offset + c.utf8Size = offset + byteCount [c] := rfl
      rw [one] at ih ⊢
      exact ih.of_gap [c] fun _ gap => .blank blank gap
  | case3 offset c rest notBlank comment skipped ih =>
      obtain ⟨line, same, within⟩ := takeWhile_of_startsComment comment
      have whole : c :: skipped ++ rest.drop skipped.length = c :: rest := by
        rw [List.cons_append, drop_takeWhile, List.takeWhile_append_dropWhile]
      rw [scanFrom, if_neg notBlank, if_pos comment]
      have longer := ih.of_gap (c :: skipped) fun {behind gap} left isGap => by
        rw [same]
        refine .comment within (fun d found => ?_) isGap
        rw [← left, drop_takeWhile] at found
        have stops := List.head?_dropWhile_not (· != '\n') rest
        rw [found] at stops
        simpa using stops
      rwa [whole] at longer
  | case4 offset c rest notBlank notComment kind more found lexeme ih =>
      have whole : [] ++ (c :: rest.take more ++ rest.drop more) = c :: rest := by
        rw [List.nil_append, List.cons_append, List.take_append_drop]
      have munches := TokenKind.atStart_munches notBlank notComment
      rw [found] at munches
      have row := Munched.token .nil munches ih
      rw [scanFrom, if_neg notBlank, if_neg notComment]
      simp only [found]
      rwa [whole] at row

theorem token_of_mem (munched : Munched offset whole lexemes) {lexeme : Lexeme}
    (member : lexeme ∈ lexemes) :
    ∃ before behind, whole = before ++ lexeme.text ++ behind ∧
      lexeme.start = offset + byteCount before ∧ lexeme.kind.Munches behind lexeme.text := by
  induction munched with
  | finish isGap => cases member
  | @token offset kind gap text rest lexemes isGap munches more ih =>
      rcases List.mem_cons.mp member with rfl | later
      · exact ⟨gap, rest, (List.append_assoc gap text rest).symm, rfl, munches⟩
      · obtain ⟨before, behind, rfl, start, inside⟩ := ih later
        refine ⟨gap ++ (text ++ before), behind, by simp, ?_, inside⟩
        simp only [start, byteCount_append, Nat.add_assoc]

/-- No token of the row begins before the one in front of it has ended. -/
theorem ordered (munched : Munched offset whole lexemes) :
    lexemes.Pairwise fun lexeme later => lexeme.finish ≤ later.start := by
  induction munched with
  | finish isGap => exact .nil
  | token isGap munches more ih =>
      refine .cons (fun later member => ?_) ih
      obtain ⟨before, behind, -, start, -⟩ := more.token_of_mem member
      rw [start]
      exact Nat.le_add_right _ _

/-- Between two neighbours a row falls into two rows, and there is a gap between these. -/
theorem split (munched : Munched offset whole (front ++ later)) :
    ∃ before gap behind, whole = before ++ (gap ++ behind) ∧ Munched offset before front ∧
      Gap behind gap ∧ Munched (offset + byteCount before + byteCount gap) behind later ∧
        (front.map Lexeme.finish).getLastD offset = offset + byteCount before ∧
          (later.map (·.start)).headD (offset + byteCount whole) =
            offset + byteCount before + byteCount gap := by
  induction front generalizing offset whole with
  | nil =>
      rw [List.nil_append] at munched
      cases munched with
      | finish isGap => exact ⟨[], whole, [], by simp, .finish .nil, isGap, .finish .nil, rfl, rfl⟩
      | @token _ kind gap text rest lexemes isGap munches more =>
          exact ⟨[], gap, text ++ rest, rfl, .finish .nil, isGap, .token .nil munches more, rfl, rfl⟩
  | cons lexeme front ih =>
      cases munched with
      | @token _ kind gap text rest lexemes isGap munches more =>
          obtain ⟨before, gap', behind, rfl, fronts, isGap', laters, finish, start⟩ := ih more
          have shorter : before <+: before ++ (gap' ++ behind) := List.prefix_append _ _
          have longer : text ++ before <+: text ++ (before ++ (gap' ++ behind)) :=
            (List.prefix_append_right_inj text).mpr shorter
          refine ⟨gap ++ (text ++ before), gap', behind, by simp,
            .token (isGap.of_prefix longer) (munches.of_prefix shorter) fronts, isGap', ?_, ?_, ?_⟩
          · simpa [Nat.add_assoc] using laters
          · rw [List.map_cons, List.getLastD_cons]
            exact finish.trans (by simp [Nat.add_assoc])
          · have size : offset + byteCount gap + byteCount text +
                byteCount (before ++ (gap' ++ behind)) =
                offset + byteCount (gap ++ (text ++ (before ++ (gap' ++ behind)))) := by
              simp [Nat.add_assoc]
            rw [← size, start]
            simp [Nat.add_assoc]

end Munched

theorem munched_iff : Munched offset whole lexemes ↔ lexemes = scanFrom offset whole :=
  ⟨Munched.eq_scanFrom, fun read => read ▸ Munched.of_scanFrom offset whole⟩

end Lexeme

namespace Tokens

/-- The tokens are the longest that there are, each where the gap behind the last one ends. -/
structure MaximalMunch (source : String) (tokens : Tokens) : Prop where
  nonempty : ∀ token ∈ tokens.items, token.start < token.finish
  ordered : tokens.items.Pairwise fun token later => token.finish ≤ later.start
  munched : ∀ token ∈ tokens.items, ∃ slice : Slice source.toList token.start token.finish,
    token.kind.Munches slice.behind slice.text
  gaps : ∀ front later, tokens.items = front ++ later →
    ∃ slice : Slice source.toList ((front.map Token.finish).getLastD 0)
        ((later.map Token.start).headD source.utf8ByteSize),
      Gap slice.behind slice.text
  finish : tokens.finish.start.offset = source.utf8ByteSize ∧
    tokens.finish.finish.offset = source.utf8ByteSize

def spans (tokens : Tokens) : List (TokenKind × Nat × Nat) := tokens.items.map Token.span

end Tokens

namespace Lexeme

def span (lexeme : Lexeme) : TokenKind × Nat × Nat := (lexeme.kind, lexeme.start, lexeme.finish)

def token (source : String) (lexeme : Lexeme) : Token :=
  ⟨lexeme.kind, (LineTable.ofSource source).location lexeme.start lexeme.finish⟩

end Lexeme

namespace Tokens

variable {source : String} {tokens other : Tokens}

theorem items_ofSource (source : String) :
    (ofSource source).items = (Lexeme.scanFrom 0 source.toList).map (Lexeme.token source) := rfl

theorem offsets_token {lexeme : Lexeme} (member : lexeme ∈ Lexeme.scanFrom 0 source.toList) :
    (lexeme.token source).start = lexeme.start ∧ (lexeme.token source).finish = lexeme.finish := by
  obtain ⟨before, behind, whole, start, -⟩ :=
    (Lexeme.Munched.of_scanFrom 0 source.toList).token_of_mem member
  have inside : lexeme.finish ≤ (LineTable.ofSource source).size := by
    simp only [LineTable.ofSource, LineTable.ofCharacters, Lexeme.finish, start, whole,
      byteCount_append]
    omega
  exact ⟨LineTable.location_start (Nat.le_trans (Nat.le_add_right _ _) inside),
    LineTable.location_finish inside⟩

theorem map_start_token {lexemes : List Lexeme}
    (members : lexemes ⊆ Lexeme.scanFrom 0 source.toList) :
    (lexemes.map (Lexeme.token source)).map Token.start = lexemes.map (·.start) := by
  rw [List.map_map]
  exact List.map_congr_left fun lexeme member => (offsets_token (members member)).1

theorem map_finish_token {lexemes : List Lexeme}
    (members : lexemes ⊆ Lexeme.scanFrom 0 source.toList) :
    (lexemes.map (Lexeme.token source)).map Token.finish = lexemes.map Lexeme.finish := by
  rw [List.map_map]
  exact List.map_congr_left fun lexeme member => (offsets_token (members member)).2

theorem maximalMunch_ofSource (source : String) : (ofSource source).MaximalMunch source := by
  have row := Lexeme.Munched.of_scanFrom 0 source.toList
  refine ⟨?_, ?_, ?_, ?_, ?_⟩
  · intro token member
    rw [items_ofSource] at member
    obtain ⟨lexeme, inside, rfl⟩ := List.mem_map.mp member
    obtain ⟨before, behind, -, -, munches⟩ := row.token_of_mem inside
    obtain ⟨start, finish⟩ := offsets_token inside
    rw [start, finish]
    exact Nat.lt_add_of_pos_right (byteCount_pos munches.text_ne_nil)
  · rw [items_ofSource, List.pairwise_map]
    refine row.ordered.imp_of_mem fun {lexeme later} inside laterInside inOrder => ?_
    rwa [(offsets_token inside).2, (offsets_token laterInside).1]
  · intro token member
    rw [items_ofSource] at member
    obtain ⟨lexeme, inside, rfl⟩ := List.mem_map.mp member
    obtain ⟨before, behind, whole, start, munches⟩ := row.token_of_mem inside
    rw [(offsets_token inside).1, (offsets_token inside).2]
    exact ⟨⟨before, lexeme.text, behind, whole, by omega, rfl⟩, munches⟩
  · intro front later same
    rw [items_ofSource] at same
    obtain ⟨lexemes, others, split, rfl, rfl⟩ := List.map_eq_append_iff.mp same
    rw [split] at row
    obtain ⟨before, gap, behind, whole, -, isGap, -, finish, start⟩ := row.split
    rw [map_finish_token (split ▸ List.subset_append_left _ _),
      map_start_token (split ▸ List.subset_append_right _ _), ← byteCount_toList]
    simp only [Nat.zero_add] at finish start
    rw [finish, start]
    exact ⟨⟨before, gap, behind, by rw [whole, List.append_assoc], rfl, rfl⟩, isGap⟩
  · rw [← byteCount_toList]
    exact ⟨LineTable.location_start (Nat.le_refl _), LineTable.location_finish (Nat.le_refl _)⟩

namespace MaximalMunch

/-- By induction on the tokens that are left. What is in front of them ends where the last token in
front of them does. -/
theorem munched_behind (munch : tokens.MaximalMunch source) {before rest : List Char}
    {front later : List Token} (whole : source.toList = before ++ rest)
    (items : tokens.items = front ++ later)
    (ends : (front.map Token.finish).getLastD 0 = byteCount before) :
    ∃ lexemes, Lexeme.Munched (byteCount before) rest lexemes ∧
      later.map Token.span = lexemes.map Lexeme.span := by
  induction later generalizing before rest front with
  | nil =>
      obtain ⟨⟨before', text, behind, whole', start, finish⟩, isGap⟩ := munch.gaps front [] items
      rw [whole, List.append_assoc] at whole'
      obtain ⟨rfl, rfl⟩ := append_inj_of_byteCount whole' (ends.symm.trans start)
      have nothing : byteCount behind = 0 := by
        have size := byteCount_toList source
        rw [whole, byteCount_append, byteCount_append] at size
        rw [ends] at finish
        change source.utf8ByteSize = _ at finish
        omega
      have empty : behind = [] := by
        by_contra more
        exact Nat.lt_irrefl _ (nothing ▸ byteCount_pos more)
      subst empty
      rw [List.append_nil]
      exact ⟨[], .finish isGap, rfl⟩
  | cons token later ih =>
      obtain ⟨⟨before', text, behind, whole', start, finish⟩, isGap⟩ :=
        munch.gaps front (token :: later) items
      rw [whole, List.append_assoc] at whole'
      obtain ⟨rfl, rfl⟩ := append_inj_of_byteCount whole' (ends.symm.trans start)
      have member : token ∈ tokens.items := by simp [items]
      obtain ⟨⟨before', own, behind', whole', start', finish'⟩, munches⟩ := munch.munched token member
      have begins : token.start = byteCount (before ++ text) := by
        rw [byteCount_append, ← ends]
        exact finish
      rw [whole, ← List.append_assoc, List.append_assoc before'] at whole'
      obtain ⟨rfl, rfl⟩ := append_inj_of_byteCount whole' (begins.symm.trans start')
      have split : source.toList = before ++ (text ++ own) ++ behind' := by simp [whole]
      have others : tokens.items = front ++ [token] ++ later := by simp [items]
      have stops : ((front ++ [token]).map Token.finish).getLastD 0 =
          byteCount (before ++ (text ++ own)) := by
        rw [List.map_append, List.map_singleton, List.getLastD_concat, finish', start',
          ← List.append_assoc, byteCount_append (before ++ text)]
      obtain ⟨lexemes, more, spans⟩ := ih split others stops
      rw [byteCount_append, byteCount_append, ← Nat.add_assoc] at more
      refine ⟨_, .token isGap munches more, ?_⟩
      rw [List.map_cons, List.map_cons, spans, Token.span, finish', begins, byteCount_append]
      rfl

theorem spans_eq (munch : tokens.MaximalMunch source) : tokens.spans = (ofSource source).spans := by
  obtain ⟨lexemes, row, spans⟩ := munch.munched_behind (List.nil_append _).symm
    (List.nil_append _).symm rfl
  rw [Lexeme.munched_iff.mp row] at spans
  rw [Tokens.spans, spans, Tokens.spans, items_ofSource, List.map_map]
  refine List.map_congr_left fun lexeme member => ?_
  obtain ⟨start, finish⟩ := offsets_token member
  simp only [Function.comp, Token.span, start, finish]
  rfl

end MaximalMunch

/-- The tokens of a source are its row of longest tokens, and there is no other one. -/
theorem ofSource_munches (source : String) :
    (ofSource source).MaximalMunch source ∧
      ∀ tokens : Tokens, tokens.MaximalMunch source → tokens.spans = (ofSource source).spans :=
  ⟨maximalMunch_ofSource source, fun _ munch => munch.spans_eq⟩

end Tokens

end Quantities
