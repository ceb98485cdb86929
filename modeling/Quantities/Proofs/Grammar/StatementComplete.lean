import Quantities.Proofs.Grammar.ExpressionComplete
import Quantities.Proofs.Grammar.StatementSound

/-!
Every derivation of statements is found. A statement that is cut needs the end of the text behind
it, and one that is not closed must not have an `else` behind it.
-/

namespace Quantities

theorem Ends.ending {levels : List Level} {cut : Bool} {rest : List TokenKind}
    (last : cut = true → rest = []) : Ends levels (ending cut ++ rest) := by
  apply Ends.of_mark
  intro kind found
  cases cut with
  | true =>
      rw [last rfl] at found
      cases found
  | false =>
      cases found
      exact .inl rfl

/-- The reading gave the statement and left the tokens. -/
structure Parsed.GivesStatement {c : Cursor} (p : Parsed Stmt c) (tree : Stmt)
    (rest : List TokenKind) : Prop where
  tree : p.value.bare = tree
  kinds : p.next.kinds = rest

namespace Grammar

variable {α : Type} {c : Cursor} {rest : List TokenKind}

theorem terminated_complete {p : Parsed α c} {cut : Bool} (last : cut = true → rest = [])
    (kinds : p.next.kinds = ending cut ++ rest) :
    ∃ q, terminated p = .ok q ∧ q.value = p.value ∧ q.next.kinds = rest := by
  cases cut with
  | true =>
      have empty := last rfl
      subst empty
      exact ⟨p, if_pos (p.next.atEnd_iff.mpr kinds), rfl, kinds⟩
  | false =>
      have going : ¬ p.next.atEnd = true := by
        rw [Cursor.atEnd_iff, kinds]
        simp [ending]
      obtain ⟨closing, taken, left⟩ := Cursor.takeMark?_of_kinds kinds
      refine ⟨p.followedBy closing p.value, ?_, rfl, left⟩
      rw [terminated, if_neg going, Cursor.needMark_eq_ok.mpr taken]
      rfl

theorem needAfter_complete {sign : Mark} (d : Phrase)
    (kinds : c.kinds = .mark sign :: (d.yield ++ rest)) (ends : Ends Level.all rest) :
    ∃ p, needAfter sign c = .ok p ∧ p.value.bare = d.tree ∧ p.next.kinds = rest := by
  obtain ⟨mark, taken, next⟩ := Cursor.takeMark?_of_kinds kinds
  obtain ⟨e, read, tree, left⟩ := expression_complete d next ends
  refine ⟨mark.followedBy e e.value, ?_, tree, left⟩
  exact Result.bind_eq_ok.mpr ⟨mark, Cursor.needMark_eq_ok.mpr taken,
    Result.bind_eq_ok.mpr ⟨e, read, rfl⟩⟩

theorem optionalAfter_complete {sign : Mark} {p : Parsed α c} (phrase? : Option Phrase)
    (kinds : p.next.kinds = optionalYield sign phrase? ++ rest) (ends : Ends Level.all rest)
    (other : rest.head? ≠ some (.mark sign)) :
    ∃ q, optionalAfter sign p = .ok q ∧ q.value.1 = p.value ∧
      q.value.2.map Expr.bare = phrase?.map ExprDerivation.tree ∧ q.next.kinds = rest := by
  cases phrase? with
  | none =>
      have missing : p.next.takeMark? sign = none := by
        apply Cursor.takeMark?_eq_none
        rw [kinds]
        exact other
      refine ⟨p.map fun value => (value, none), ?_, rfl, rfl, kinds⟩
      rw [optionalAfter, missing]
      rfl
  | some d =>
      obtain ⟨mark, taken, next⟩ := Cursor.takeMark?_of_kinds kinds
      obtain ⟨e, read, tree, left⟩ := expression_complete d next ends
      refine ⟨p.followedBy (mark.followedBy e ()) (p.value, some e.value), ?_, rfl, ?_, left⟩
      · rw [optionalAfter, taken]
        simp only [read]
        rfl
      · simp [Parsed.followedBy, tree]

theorem condition_complete (head : Parsed α c) (d : Phrase)
    (kinds : head.next.kinds = .mark .leftParen :: (d.yield ++ .mark .rightParen :: rest)) :
    ∃ p, condition head = .ok p ∧ p.value.bare = d.tree ∧ p.next.kinds = rest := by
  obtain ⟨opening, opened, next⟩ := Cursor.takeMark?_of_kinds kinds
  obtain ⟨e, read, tree, left⟩ := expression_complete d next .paren
  obtain ⟨closing, closed, last⟩ := Cursor.takeMark?_of_kinds left
  refine ⟨head.followedBy (opening.followedBy (e.followedBy closing ()) ()) e.value, ?_, tree, last⟩
  exact Result.bind_eq_ok.mpr ⟨opening, Cursor.needMark_eq_ok.mpr opened,
    Result.bind_eq_ok.mpr ⟨e, read,
      Result.bind_eq_ok.mpr ⟨closing, Cursor.needMark_eq_ok.mpr closed, rfl⟩⟩⟩

theorem needName_complete {name : String} (kinds : c.kinds = .name name :: rest) :
    ∃ p, c.needName = .ok p ∧ p.value = name ∧ p.next.kinds = rest := by
  obtain ⟨p, taken, value, left⟩ :=
    Cursor.take?_of_kinds kinds (Cursor.acceptName_eq_some.mpr rfl)
  exact ⟨p, Cursor.need_eq_ok.mpr taken, value, left⟩

section

variable {head : Parsed α c} {cut : Bool}

theorem head?_ending_ne {sign : Mark} (last : cut = true → rest = []) (other : sign ≠ .semicolon) :
    (ending cut ++ rest).head? ≠ some (.mark sign) := by
  cases cut with
  | true => simp [ending, last rfl]
  | false => simpa [ending] using other.symm

theorem varStatement_complete (name : String) (declared initial : Option Phrase)
    (last : cut = true → rest = [])
    (kinds : head.next.kinds = .name name :: (optionalYield .colon declared ++
      (optionalYield .equal initial ++ (ending cut ++ rest)))) :
    ∃ p, varStatement head = .ok p ∧ p.GivesStatement
      (.var .nowhere name (declared.map ExprDerivation.tree) (initial.map ExprDerivation.tree))
      rest := by
  obtain ⟨nameParsed, nameRead, rfl, next⟩ := needName_complete kinds
  have initialEnds : Ends Level.all (optionalYield .equal initial ++ (ending cut ++ rest)) := by
    cases initial with
    | none => exact .ending last
    | some d =>
        apply Ends.of_mark
        intro kind found
        cases found
        exact .inr (.inr rfl)
  have noColon : (optionalYield .equal initial ++ (ending cut ++ rest)).head? ≠
      some (.mark .colon) := by
    cases initial with
    | none => exact head?_ending_ne last (by decide)
    | some d => simp [optionalYield]
  obtain ⟨declaredParsed, declaredRead, declaredName, declaredTree, declaredNext⟩ :=
    optionalAfter_complete (p := head.followedBy nameParsed nameParsed.value) declared next
      initialEnds noColon
  obtain ⟨initialParsed, initialRead, initialValue, initialTree, initialNext⟩ :=
    optionalAfter_complete (p := declaredParsed) initial declaredNext (.ending last)
      (head?_ending_ne last (by decide))
  obtain ⟨whole, wholeRead, value, left⟩ := terminated_complete last initialNext
  refine ⟨_, Result.bind_eq_ok.mpr ⟨nameParsed, nameRead, Result.bind_eq_ok.mpr
    ⟨declaredParsed, declaredRead, Result.bind_eq_ok.mpr ⟨initialParsed, initialRead,
      Result.bind_eq_ok.mpr ⟨whole, wholeRead, rfl⟩⟩⟩⟩, ?_, left⟩
  simp only [place, Parsed.map, Stmt.bare, value, initialValue, declaredName, declaredTree,
    initialTree, Parsed.followedBy]

theorem unitStatement_complete (name : String) (definition : Option Phrase)
    (last : cut = true → rest = [])
    (kinds : head.next.kinds =
      .name name :: (optionalYield .equal definition ++ (ending cut ++ rest))) :
    ∃ p, unitStatement head = .ok p ∧
      p.GivesStatement (.unit .nowhere name (definition.map ExprDerivation.tree)) rest := by
  obtain ⟨nameParsed, nameRead, rfl, next⟩ := needName_complete kinds
  obtain ⟨parsed, read, parsedName, tree, parsedNext⟩ :=
    optionalAfter_complete (p := head.followedBy nameParsed nameParsed.value) definition next
      (.ending last) (head?_ending_ne last (by decide))
  obtain ⟨whole, wholeRead, value, left⟩ := terminated_complete last parsedNext
  refine ⟨_, Result.bind_eq_ok.mpr ⟨nameParsed, nameRead, Result.bind_eq_ok.mpr
    ⟨parsed, read, Result.bind_eq_ok.mpr ⟨whole, wholeRead, rfl⟩⟩⟩, ?_, left⟩
  simp only [place, Parsed.map, Stmt.bare, value, parsedName, tree, Parsed.followedBy]

theorem constantStatement_complete (name : String) (rhs : Phrase) (last : cut = true → rest = [])
    (kinds : head.next.kinds = .name name :: .mark .equal :: (rhs.yield ++ (ending cut ++ rest))) :
    ∃ p, constantStatement head = .ok p ∧
      p.GivesStatement (.constant .nowhere name rhs.tree) rest := by
  obtain ⟨nameParsed, nameRead, rfl, next⟩ := needName_complete kinds
  obtain ⟨parsed, read, tree, parsedNext⟩ := needAfter_complete rhs next (.ending last)
  obtain ⟨whole, wholeRead, value, left⟩ := terminated_complete
    (p := head.followedBy (nameParsed.followedBy parsed ()) (nameParsed.value, parsed.value))
    last parsedNext
  refine ⟨_, Result.bind_eq_ok.mpr ⟨nameParsed, nameRead, Result.bind_eq_ok.mpr
    ⟨parsed, read, Result.bind_eq_ok.mpr ⟨whole, wholeRead, rfl⟩⟩⟩, ?_, left⟩
  simp only [place, Parsed.map, Stmt.bare, value, tree, Parsed.followedBy]

theorem assignment_complete {target : Parsed String c} (rhs : Phrase)
    (last : cut = true → rest = [])
    (kinds : target.next.kinds = rhs.yield ++ (ending cut ++ rest)) :
    ∃ p, assignment target = .ok p ∧
      p.GivesStatement (.assign .nowhere target.value rhs.tree) rest := by
  obtain ⟨parsed, read, tree, parsedNext⟩ := expression_complete rhs kinds (.ending last)
  obtain ⟨whole, wholeRead, value, left⟩ := terminated_complete
    (p := target.followedBy parsed (target.value, parsed.value)) last parsedNext
  refine ⟨_, Result.bind_eq_ok.mpr ⟨parsed, read, Result.bind_eq_ok.mpr ⟨whole, wholeRead, rfl⟩⟩,
    ?_, left⟩
  simp only [place, Parsed.map, Stmt.bare, value, tree, Parsed.followedBy]

theorem expressionStatement_complete (phrase : Phrase) (last : cut = true → rest = [])
    (kinds : c.kinds = phrase.yield ++ (ending cut ++ rest)) :
    ∃ p, expressionStatement c = .ok p ∧ p.GivesStatement (.expr .nowhere phrase.tree) rest := by
  obtain ⟨parsed, read, tree, parsedNext⟩ := expression_complete phrase kinds (.ending last)
  obtain ⟨whole, wholeRead, value, left⟩ := terminated_complete last parsedNext
  refine ⟨_, Result.bind_eq_ok.mpr ⟨parsed, read, Result.bind_eq_ok.mpr ⟨whole, wholeRead, rfl⟩⟩,
    ?_, left⟩
  simp only [place, Parsed.map, Stmt.bare, value, tree]

end

theorem take?_head (head : StatementHead) (kinds : c.kinds = head.kind :: rest) :
    ∃ p, c.take? StatementHead.ofToken? = some p ∧ p.value = head ∧ p.next.kinds = rest :=
  Cursor.take?_of_kinds kinds (StatementHead.ofToken?_eq_some.mpr rfl)

section

variable {head : Parsed StatementHead c} (taken : c.take? StatementHead.ofToken? = some head)

include taken

theorem statement_var (found : head.value = .var) : statement c = varStatement head := by
  rw [statement, taken]
  simp only [found]

theorem statement_unit (found : head.value = .unit) : statement c = unitStatement head := by
  rw [statement, taken]
  simp only [found]

theorem statement_constant (found : head.value = .constant) :
    statement c = constantStatement head := by
  rw [statement, taken]
  simp only [found]

end

/-- A statement whose first token leaves the rest of it to one reading. -/
theorem headed_complete {sort : StatementHead} {tree : Stmt} {more : List TokenKind}
    {run : Parsed StatementHead c → Except ParseError (Parsed Stmt c)}
    (runs : ∀ {head : Parsed StatementHead c},
      c.take? StatementHead.ofToken? = some head → head.value = sort → statement c = run head)
    (kinds : c.kinds = sort.kind :: more)
    (inner : ∀ {head : Parsed StatementHead c}, head.next.kinds = more →
      ∃ p, run head = .ok p ∧ p.GivesStatement tree rest) :
    ∃ p, statement c = .ok p ∧ p.GivesStatement tree rest := by
  obtain ⟨head, taken, found, next⟩ := take?_head sort kinds
  rw [runs taken found]
  exact inner next

theorem takeTarget?_of_kinds {name : String}
    (kinds : c.kinds = .name name :: .mark .assign :: rest) :
    ∃ p, c.takeTarget? = some p ∧ p.value = name ∧ p.next.kinds = rest := by
  obtain ⟨target, taken, value, next⟩ :=
    Cursor.take?_of_kinds kinds (Cursor.acceptName_eq_some.mpr rfl)
  obtain ⟨mark, markTaken, left⟩ := Cursor.takeMark?_of_kinds next
  refine ⟨target.followedBy mark target.value, ?_, value, left⟩
  rw [Cursor.takeTarget?, taken]
  change (target.next.takeMark? .assign).bind _ = _
  rw [markTaken]
  rfl

theorem expression_not_head {kind : TokenKind} (inside : kind.inExpression = true) :
    StatementHead.ofToken? kind = none := by
  cases found : StatementHead.ofToken? kind with
  | none => rfl
  | some head =>
      rw [← StatementHead.ofToken?_eq_some.mp found] at inside
      cases head <;> cases inside

theorem expression_not_target (phrase : Phrase) {cut : Bool} (last : cut = true → rest = [])
    (kinds : c.kinds = phrase.yield ++ (ending cut ++ rest)) : c.takeTarget? = none := by
  cases taken : c.takeTarget? with
  | none => rfl
  | some p =>
      have start := Cursor.takeTarget?_kinds taken
      rw [kinds] at start
      obtain ⟨kind, more, yield, -⟩ := phrase.yield_eq_cons
      rw [yield] at start
      obtain ⟨-, second⟩ := List.cons.inj start
      cases more with
      | nil =>
          cases cut with
          | true =>
              rw [last rfl] at second
              cases second
          | false => cases second
      | cons next later =>
          obtain ⟨rfl, -⟩ := List.cons.inj second
          have inside := phrase.inExpression (.mark .assign) (by simp [yield])
          cases inside

mutual

theorem statement_complete {cut closed : Bool} (d : StmtDerivation cut closed) :
    ∀ {c : Cursor} {rest : List TokenKind}, c.kinds = d.yield ++ rest → (cut = true → rest = []) →
      (closed = false → rest.head? ≠ some (.keyword .else)) →
        ∃ p, statement c = .ok p ∧ p.GivesStatement d.tree rest := by
  intro c rest kinds last noElse
  match d with
  | .empty =>
      obtain ⟨head, taken, value, next⟩ := take?_head .empty kinds
      refine ⟨emptyStatement head, ?_, rfl, next⟩
      rw [statement, taken]
      simp only [value]
      rfl
  | .block body =>
      have openKinds : c.kinds = StatementHead.block.kind ::
          (body.yield ++ .mark .rightBrace :: rest) := by
        rw [kinds]
        simp [StmtDerivation.yield, StatementHead.kind]
      obtain ⟨head, taken, value, next⟩ := take?_head .block openKinds
      obtain ⟨parsed, read, trees, left⟩ := blockBody_complete body next
      refine ⟨place (head.followedBy parsed parsed.value) fun location body =>
        .block location body, ?_, ?_, left⟩
      · rw [statement, taken]
        simp only [value]
        exact Result.bind_eq_ok.mpr ⟨parsed, read, rfl⟩
      · simp only [place, Parsed.map, Stmt.bare, Stmt.bareAll_eq_map, trees, Parsed.followedBy,
          StmtDerivation.tree]
  | .loop condition body =>
      have headKinds : c.kinds = StatementHead.loop.kind :: .mark .leftParen ::
          (condition.yield ++ .mark .rightParen :: (body.yield ++ rest)) := by
        rw [kinds]
        simp [StmtDerivation.yield, conditionYield, StatementHead.kind]
      obtain ⟨head, taken, value, next⟩ := take?_head .loop headKinds
      obtain ⟨test, testRead, testTree, testNext⟩ := condition_complete head condition next
      obtain ⟨parsed, read, gives⟩ := statement_complete body testNext last noElse
      refine ⟨place (test.followedBy parsed (test.value, parsed.value)) fun location (test, body) =>
        .loop location test body, ?_, ?_, gives.kinds⟩
      · rw [statement, taken]
        simp only [value]
        exact Result.bind_eq_ok.mpr ⟨test, testRead, Result.bind_eq_ok.mpr ⟨parsed, read, rfl⟩⟩
      · simp only [place, Parsed.map, Stmt.bare, testTree, gives.tree, Parsed.followedBy,
          StmtDerivation.tree]
  | .branch condition yes =>
      have headKinds : c.kinds = StatementHead.branch.kind :: .mark .leftParen ::
          (condition.yield ++ .mark .rightParen :: (yes.yield ++ rest)) := by
        rw [kinds]
        simp [StmtDerivation.yield, conditionYield, StatementHead.kind]
      have noOther := noElse rfl
      obtain ⟨head, taken, value, next⟩ := take?_head .branch headKinds
      obtain ⟨test, testRead, testTree, testNext⟩ := condition_complete head condition next
      obtain ⟨parsed, read, gives⟩ := statement_complete yes testNext last noElse
      -- A statement that is not closed has no `else` behind it that it could take.
      have missing : parsed.next.take? (Cursor.acceptKeyword .else) = none := by
        apply Cursor.take?_eq_none
        intro kind found
        rw [gives.kinds] at found
        cases accepted : Cursor.acceptKeyword .else kind with
        | none => rfl
        | some other =>
            rw [Cursor.acceptKeyword_eq_some.mp accepted] at found
            exact absurd found noOther
      refine ⟨place (test.followedBy parsed (test.value, parsed.value)) fun location (test, yes) =>
        .branch location test yes none, ?_, ?_, gives.kinds⟩
      · rw [statement, taken]
        simp only [value]
        refine Result.bind_eq_ok.mpr ⟨test, testRead, Result.bind_eq_ok.mpr ⟨parsed, read, ?_⟩⟩
        simp only [Parsed.followedBy, missing]
        rfl
      · simp only [place, Parsed.map, Stmt.bare, testTree, gives.tree, Parsed.followedBy,
          StmtDerivation.tree]
  | .choice condition yes no =>
      have headKinds : c.kinds = StatementHead.branch.kind :: .mark .leftParen ::
          (condition.yield ++ .mark .rightParen ::
            (yes.yield ++ .keyword .else :: (no.yield ++ rest))) := by
        rw [kinds]
        simp [StmtDerivation.yield, conditionYield, StatementHead.kind]
      obtain ⟨head, taken, value, next⟩ := take?_head .branch headKinds
      obtain ⟨test, testRead, testTree, testNext⟩ := condition_complete head condition next
      -- What stands in front of an `else` is closed and not cut.
      obtain ⟨parsed, read, gives⟩ := statement_complete yes testNext nofun nofun
      obtain ⟨other, otherTaken, -, otherNext⟩ :=
        Cursor.take?_of_kinds gives.kinds (Cursor.acceptKeyword_eq_some.mpr rfl)
      obtain ⟨ending, endingRead, endingGives⟩ := statement_complete no otherNext last noElse
      refine ⟨place ((test.followedBy parsed (test.value, parsed.value)).followedBy
        (other.followedBy ending ()) ((test.value, parsed.value), ending.value))
          fun location ((test, yes), no) => .branch location test yes (some no), ?_, ?_,
        endingGives.kinds⟩
      · rw [statement, taken]
        simp only [value]
        refine Result.bind_eq_ok.mpr ⟨test, testRead, Result.bind_eq_ok.mpr ⟨parsed, read, ?_⟩⟩
        simp only [Parsed.followedBy, otherTaken]
        exact Result.bind_eq_ok.mpr ⟨ending, endingRead, rfl⟩
      · simp only [place, Parsed.map, Stmt.bare, testTree, gives.tree, endingGives.tree,
          Parsed.followedBy, StmtDerivation.tree]
  | .var name declared initial =>
      refine headed_complete statement_var ?_ fun next =>
        varStatement_complete name declared initial last next
      rw [kinds]
      simp [StmtDerivation.yield, StatementHead.kind]
  | .unit name definition =>
      refine headed_complete statement_unit ?_ fun next =>
        unitStatement_complete name definition last next
      rw [kinds]
      simp [StmtDerivation.yield, StatementHead.kind]
  | .assign name rhs =>
      have targetKinds : c.kinds = .name name :: .mark .assign ::
          (rhs.yield ++ (ending cut ++ rest)) := by
        rw [kinds]
        simp [StmtDerivation.yield]
      have noHead : c.take? StatementHead.ofToken? = none := by
        apply Cursor.take?_eq_none
        intro kind found
        rw [targetKinds] at found
        cases found
        rfl
      obtain ⟨target, taken, rfl, next⟩ := takeTarget?_of_kinds targetKinds
      obtain ⟨p, read, gives⟩ := assignment_complete rhs last next
      refine ⟨p, ?_, gives⟩
      rw [statement, noHead, taken]
      exact read
  | .constant name rhs =>
      refine headed_complete statement_constant ?_ fun next =>
        constantStatement_complete name rhs last next
      rw [kinds]
      simp [StmtDerivation.yield, StatementHead.kind]
  | .expr phrase =>
      have phraseKinds : c.kinds = phrase.yield ++ (ending cut ++ rest) := by
        rw [kinds]
        simp [StmtDerivation.yield]
      have noHead : c.take? StatementHead.ofToken? = none := by
        apply Cursor.take?_eq_none
        intro kind found
        obtain ⟨first, more, yield, -⟩ := phrase.yield_eq_cons
        rw [phraseKinds, yield] at found
        cases found
        exact expression_not_head (phrase.inExpression _ (by simp [yield]))
      obtain ⟨p, read, gives⟩ := expressionStatement_complete phrase last phraseKinds
      refine ⟨p, ?_, gives⟩
      rw [statement, noHead, expression_not_target phrase last phraseKinds]
      exact read

theorem blockBody_complete (body : BodyDerivation) {c : Cursor} {rest : List TokenKind}
    (kinds : c.kinds = body.yield ++ .mark .rightBrace :: rest) :
    ∃ p, blockBody c = .ok p ∧ p.value.map Stmt.bare = body.tree ∧ p.next.kinds = rest := by
  cases body with
  | nil =>
      obtain ⟨closing, taken, next⟩ := Cursor.takeMark?_of_kinds kinds
      refine ⟨closing.map fun _ => [], ?_, rfl, next⟩
      rw [blockBody, taken]
      rfl
  | cons first others =>
      have firstKinds :
          c.kinds = first.yield ++ (others.yield ++ .mark .rightBrace :: rest) := by
        rw [kinds]
        simp [BodyDerivation.yield]
      obtain ⟨kind, more, yield, noBrace, -⟩ := first.yield_eq_cons
      have missed : c.takeMark? .rightBrace = none := by
        apply Cursor.takeMark?_eq_none
        rw [firstKinds, yield]
        simpa using noBrace
      have going : ¬ c.atEnd = true := by
        rw [Cursor.atEnd_iff, firstKinds, yield]
        simp
      obtain ⟨p, read, gives⟩ := statement_complete first firstKinds nofun fun _ =>
        others.head?_yield_ne (by simp)
      obtain ⟨q, othersRead, trees, left⟩ := blockBody_complete others gives.kinds
      refine ⟨p.followedBy q (p.value :: q.value), ?_, ?_, left⟩
      · rw [blockBody, missed]
        simp only [if_neg going]
        exact Result.bind_eq_ok.mpr ⟨p, read, Result.bind_eq_ok.mpr ⟨q, othersRead, rfl⟩⟩
      · simp only [Parsed.followedBy, List.map_cons, gives.tree, trees, BodyDerivation.tree]

end

theorem statements_append (body : BodyDerivation) {c : Cursor} {rest : List TokenKind}
    {trees : List Stmt} (kinds : c.kinds = body.yield ++ rest)
    (noElse : rest.head? ≠ some (.keyword .else))
    (tail : ∀ behind : Cursor, behind.kinds = rest →
      ∃ program, statements behind = .ok program ∧ program.map Stmt.bare = trees) :
    ∃ program, statements c = .ok program ∧ program.map Stmt.bare = body.tree ++ trees := by
  cases body with
  | nil => exact tail c kinds
  | cons first others =>
      have firstKinds : c.kinds = first.yield ++ (others.yield ++ rest) := by
        rw [kinds]
        simp [BodyDerivation.yield]
      obtain ⟨kind, more, yield, -⟩ := first.yield_eq_cons
      have going : ¬ c.atEnd = true := by
        rw [Cursor.atEnd_iff, firstKinds, yield]
        simp
      obtain ⟨p, read, gives⟩ := statement_complete first firstKinds nofun fun _ =>
        others.head?_yield_ne noElse
      obtain ⟨program, programRead, programTrees⟩ :=
        statements_append others gives.kinds noElse tail
      refine ⟨p.value :: program, ?_, ?_⟩
      · rw [statements, if_neg going]
        exact Result.bind_eq_ok.mpr ⟨p, read, Result.bind_eq_ok.mpr ⟨program, programRead, rfl⟩⟩
      · simp only [List.map_cons, gives.tree, programTrees, BodyDerivation.tree, List.cons_append]

theorem statements_of_empty {c : Cursor} (kinds : c.kinds = []) : statements c = .ok [] := by
  rw [statements, if_pos (c.atEnd_iff.mpr kinds)]
  rfl

theorem statements_complete (d : ProgramDerivation) {c : Cursor} (kinds : c.kinds = d.yield) :
    ∃ program, statements c = .ok program ∧ program.map Stmt.bare = d.tree := by
  cases d with
  | whole body =>
      have wholeKinds : c.kinds = body.yield ++ [] := by
        rw [List.append_nil]
        exact kinds
      obtain ⟨program, read, trees⟩ := statements_append body wholeKinds (by simp)
        fun behind empty => ⟨[], statements_of_empty empty, rfl⟩
      exact ⟨program, read, trees.trans (List.append_nil _)⟩
  | cut body last =>
      obtain ⟨kind, more, yield, -, noElse⟩ := last.yield_eq_cons
      refine statements_append body kinds (by rw [yield]; simpa using noElse) ?_
      intro behind left
      have going : ¬ behind.atEnd = true := by
        rw [Cursor.atEnd_iff, left, yield]
        simp
      have lastKinds : behind.kinds = last.yield ++ [] := by rw [left, List.append_nil]
      obtain ⟨p, read, gives⟩ := statement_complete last lastKinds (fun _ => rfl) (fun _ => by simp)
      refine ⟨[p.value], ?_, by rw [List.map_singleton, gives.tree]⟩
      rw [statements, if_neg going]
      exact Result.bind_eq_ok.mpr ⟨p, read,
        Result.bind_eq_ok.mpr ⟨[], statements_of_empty gives.kinds, rfl⟩⟩

end Grammar

end Quantities
