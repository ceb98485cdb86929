import Quantities.Proofs.Grammar.Calls
import Quantities.Proofs.Grammar.ExpressionCut
import Mathlib.Logic.Relation

/-!
Why reading comes to an end. A production that gives something has gone on by at least one token of the
text, and a production that is called before a token is taken is a lower one. So no call comes back to its
production at the same token, and the number of tokens bounds how deep the calls go.
-/

namespace Quantities

/-- Tokens of the first cursor, or none, lie between the two. -/
structure Cursor.Reaches (c later : Cursor) : Prop where
  suffix : later.rest <:+ c.rest
  finish : later.finish = c.finish

/-- At least one token lies between the two. -/
structure Cursor.AdvancesTo (c later : Cursor) : Prop extends c.Reaches later where
  consumes : later.rest.length < c.rest.length

section

variable {α : Type} {c mid later : Cursor}

theorem Cursor.Reaches.refl (c : Cursor) : c.Reaches c := ⟨List.suffix_rfl, rfl⟩

theorem Cursor.Reaches.trans (first : c.Reaches mid) (second : mid.Reaches later) :
    c.Reaches later :=
  ⟨second.suffix.trans first.suffix, second.finish.trans first.finish⟩

theorem Cursor.Reaches.length_le (reaches : c.Reaches later) :
    later.rest.length ≤ c.rest.length :=
  reaches.suffix.length_le

theorem Cursor.AdvancesTo.trans (first : c.AdvancesTo mid) (second : mid.Reaches later) :
    c.AdvancesTo later :=
  ⟨first.toReaches.trans second, Nat.lt_of_le_of_lt second.length_le first.consumes⟩

theorem Parsed.Took.advances {p : Parsed α c} {used : List Token} (took : p.Took used) :
    c.AdvancesTo p.next :=
  ⟨⟨⟨used, took.rest.symm⟩, took.finish⟩, p.shorter⟩

theorem Cursor.take?_advances {accept : TokenKind → Option α} {p : Parsed α c}
    (taken : c.take? accept = some p) : c.AdvancesTo p.next :=
  have ⟨_, took, _⟩ := Cursor.take?_took taken
  took.advances

theorem Cursor.need_advances {wanted : Wanted} {accept : TokenKind → Option α} {p : Parsed α c}
    (found : c.need wanted accept = .ok p) : c.AdvancesTo p.next :=
  Cursor.take?_advances (Cursor.need_eq_ok.mp found)

theorem Cursor.takeTarget?_advances {p : Parsed String c} (taken : c.takeTarget? = some p) :
    c.AdvancesTo p.next := by
  obtain ⟨name, nameTaken, taken⟩ := Option.bind_eq_some_iff.mp taken
  obtain ⟨mark, markTaken, taken⟩ := Option.bind_eq_some_iff.mp taken
  cases taken
  exact (Cursor.take?_advances nameTaken).trans (Cursor.take?_advances markTaken).toReaches

theorem Grammar.exponent_advances {p : Parsed Float c} (read : exponent c = .ok p) :
    c.AdvancesTo p.next :=
  have ⟨_, took⟩ := exponent_took read
  took.advances

theorem Grammar.terminated_advances {p q : Parsed α c} (advances : c.AdvancesTo p.next)
    (closed : terminated p = .ok q) : c.AdvancesTo q.next := by
  unfold terminated at closed
  split at closed
  · cases closed
    exact advances
  · obtain ⟨closing, found, closed⟩ := Result.bind_eq_ok.mp closed
    cases closed
    exact advances.trans (Cursor.need_advances found).toReaches

end

/-- A production, without the place where it is called. -/
inductive Production where
  | level (levels : List Level)
  | chain (first : Level) (tighter : List Level)
  | signed
  | ascribed
  | units
  | power
  | powers
  | primary
  | statement
  | blockBody
  | statements
  | whole
deriving Repr, DecidableEq

/-- Where no token is taken, a production only calls lower ones. -/
@[simp]
def Production.height : Production → Nat
  | level levels => 2 * levels.length + 4
  | chain _ tighter => 2 * tighter.length + 5
  | signed => 3
  | ascribed | units => 2
  | power => 1
  | powers | primary => 0
  | statement | whole => 17
  | blockBody | statements => 18

namespace Call

@[simp]
def production : Call → Production
  | level levels _ _ => .level levels
  | chain first tighter _ _ => .chain first tighter
  | signed _ => .signed
  | ascribed _ => .ascribed
  | units _ => .units
  | power _ => .power
  | powers _ => .powers
  | primary _ => .primary
  | statement _ => .statement
  | blockBody _ => .blockBody
  | statements _ => .statements
  | whole _ => .whole

/-- Where the call goes on reading. -/
@[simp]
def cursor : Call → Cursor
  | chain _ _ _ left => left.next
  | units operand => operand.next
  | powers base => base.next
  | level _ _ c | signed c | ascribed c | power c | primary c | statement c | blockBody c
  | statements c | whole c => c

/-- How far the call has read when it gives the value. A loop may go on by no token, and each statement
of a program has taken one. -/
def Advances : (call : Call) → call.Value → Prop
  | level _ _ c, p | signed c, p | ascribed c, p | power c, p | primary c, p =>
    c.AdvancesTo (Parsed.next p)
  | statement c, p => c.AdvancesTo (Parsed.next p)
  | blockBody c, p => c.AdvancesTo (Parsed.next p)
  | chain _ _ _ left, p => left.next.Reaches (Parsed.next p)
  | units operand, p => operand.next.Reaches (Parsed.next p)
  | powers base, p => base.next.Reaches (Parsed.next p)
  | statements c, program => List.length program ≤ c.rest.length
  | whole c, _ => 0 < c.rest.length

/-- The second call is later in the text, or it is of a lower production. -/
structure Descends (call other : Call) : Prop where
  reaches : call.cursor.Reaches other.cursor
  lower : other.cursor.rest.length < call.cursor.rest.length ∨
    other.production.height < call.production.height

/-- How deep the calls below a call can go. -/
def weight (call : Call) : Nat := 19 * call.cursor.rest.length + call.production.height

theorem height_lt (call : Call) : call.production.height < 19 := by
  match call with
  | level levels within _ =>
      have short : levels.length ≤ 6 := within.length_le
      simp only [production, Production.height]
      omega
  | chain first tighter within _ =>
      have short : tighter.length + 1 ≤ 6 := within.length_le
      simp only [production, Production.height]
      omega
  | signed _ | ascribed _ | units _ | power _ | powers _ | primary _ | statement _ | blockBody _
  | statements _ | whole _ => simp

namespace Descends

variable {call other last : Call}

theorem trans (first : call.Descends other) (second : other.Descends last) :
    call.Descends last where
  reaches := first.reaches.trans second.reaches
  lower := by
    have lower := first.lower
    have lowest := second.lower
    have fewer := first.reaches.length_le
    have fewest := second.reaches.length_le
    omega

theorem weight_lt (descends : call.Descends other) : other.weight < call.weight := by
  have lower := descends.lower
  have fewer := descends.reaches.length_le
  have bound := other.height_lt
  simp only [weight]
  omega

end Descends

end Call

namespace Steps

variable {α β : Type}

/-- As long as productions advance, the step makes only such calls and gives only such values. -/
def Keeps (Calls : Call → Prop) (Gives : α → Prop) : Steps α → Prop
  | done result => ∀ value, result = .ok value → Gives value
  | call production next =>
    Calls production ∧ ∀ value, production.Advances value → (next value).Keeps Calls Gives

namespace Keeps

variable {Calls : Call → Prop} {Gives : α → Prop} {steps : Steps α}

theorem done {result : Except ParseError α} (gives : ∀ value, result = .ok value → Gives value) :
    (Steps.done result).Keeps Calls Gives := gives

theorem error {failure : ParseError} : (Steps.done (.error failure)).Keeps Calls Gives := by
  intro _ succeeded
  cases succeeded

theorem pure {value : α} (gives : Gives value) :
    (Pure.pure value : Steps α).Keeps Calls Gives := by
  rintro _ ⟨⟩
  exact gives

theorem bind {More : β → Prop} {next : α → Steps β} (first : steps.Keeps Calls Gives)
    (second : ∀ value, Gives value → (next value).Keeps Calls More) :
    (steps >>= next).Keeps Calls More := by
  induction steps with
  | done result =>
      cases result with
      | error e => exact .error
      | ok value => exact second value (first value rfl)
  | call production more ih =>
      exact ⟨first.1, fun value advances => ih value (first.2 value advances)⟩

theorem ask {production : Call} {Gives : production.Value → Prop} (allowed : Calls production)
    (gives : ∀ value, production.Advances value → Gives value) :
    production.ask.Keeps Calls Gives :=
  ⟨allowed, fun value advances => pure (gives value advances)⟩

variable (sound : ∀ call, Calls call → ∀ value, call.answer = .ok value → call.Advances value)

include sound

theorem gives (keeps : steps.Keeps Calls Gives) :
    ∀ value, steps.run = .ok value → Gives value := by
  induction steps with
  | done result => exact keeps
  | call production next ih =>
      intro value given
      obtain ⟨first, answered, given⟩ := Result.bind_eq_ok.mp given
      exact ih first (keeps.2 first (sound production keeps.1 first answered)) value given

theorem calls (keeps : steps.Keeps Calls Gives) {other : Call} (made : steps.Makes other) :
    Calls other := by
  induction steps with
  | done result => exact made.elim
  | call production next ih =>
      obtain rfl | ⟨first, answered, made⟩ := made
      · exact keeps.1
      · exact ih first (keeps.2 first (sound production keeps.1 first answered)) made

end Keeps

end Steps

namespace Call

theorem descends_of_advances {call other : Call}
    (advances : call.cursor.AdvancesTo other.cursor) : call.Descends other :=
  ⟨advances.toReaches, .inl advances.consumes⟩

theorem descends_of_lower {call other : Call} (here : other.cursor = call.cursor)
    (lower : other.production.height < call.production.height) : call.Descends other :=
  ⟨here ▸ Cursor.Reaches.refl _, .inr lower⟩

end Call

namespace Grammar

open Steps

variable {α : Type} {c : Cursor}

/-- What a statement and its parts keep. -/
def StatementKeeps {β : Type} (steps : Steps (Parsed β c)) : Prop :=
  steps.Keeps (Call.statement c).Descends fun p => c.AdvancesTo p.next

theorem expressionSteps_keeps {call : Call} {next : Cursor}
    (advances : call.cursor.AdvancesTo next) :
    (expressionSteps next).Keeps call.Descends fun e => next.AdvancesTo e.next :=
  .ask (Call.descends_of_advances advances) fun _ advances => advances

theorem optionalAfterSteps_keeps (sign : Mark) {p : Parsed α c} (advances : c.AdvancesTo p.next) :
    StatementKeeps (optionalAfterSteps sign p) := by
  unfold optionalAfterSteps
  split
  next => exact .pure advances
  next mark taken =>
    have marked := advances.trans (Cursor.take?_advances taken).toReaches
    exact .bind (expressionSteps_keeps marked) fun e further =>
      .pure (marked.trans further.toReaches)

theorem needAfterSteps_keeps (sign : Mark) {call : Call} {next : Cursor}
    (advances : call.cursor.AdvancesTo next) :
    (needAfterSteps sign next).Keeps call.Descends fun e => next.AdvancesTo e.next := by
  refine .bind (.done fun _ => Cursor.need_advances) fun mark marked => ?_
  exact .bind (expressionSteps_keeps (advances.trans marked.toReaches)) fun e read =>
    .pure (marked.trans read.toReaches)

theorem conditionSteps_keeps {head : Parsed α c} (advances : c.AdvancesTo head.next) :
    StatementKeeps (conditionSteps head) := by
  refine .bind (.done fun _ => Cursor.need_advances) fun opening opened => ?_
  have opened := advances.trans opened.toReaches
  refine .bind (expressionSteps_keeps opened) fun e read => ?_
  have read := opened.trans read.toReaches
  refine .bind (.done fun _ => Cursor.need_advances) fun closing closed => ?_
  exact .pure (read.trans closed.toReaches)

theorem terminated_keeps {p : Parsed α c} (advances : c.AdvancesTo p.next)
    (make : Location → α → Stmt) :
    StatementKeeps do
      let whole ← done (terminated p)
      return place whole make :=
  .bind (.done fun _ => terminated_advances advances) fun _ closed => .pure closed

theorem varSteps_keeps {head : Parsed α c} (advances : c.AdvancesTo head.next) :
    StatementKeeps (varSteps head) := by
  refine .bind (.done fun _ => Cursor.need_advances) fun name named => ?_
  refine .bind (optionalAfterSteps_keeps _ (advances.trans named.toReaches)) fun _ declared => ?_
  refine .bind (optionalAfterSteps_keeps _ declared) fun _ initial => ?_
  exact terminated_keeps initial _

theorem unitSteps_keeps {head : Parsed α c} (advances : c.AdvancesTo head.next) :
    StatementKeeps (unitSteps head) := by
  refine .bind (.done fun _ => Cursor.need_advances) fun name named => ?_
  refine .bind (optionalAfterSteps_keeps _ (advances.trans named.toReaches)) fun _ defined => ?_
  exact terminated_keeps defined _

theorem constantSteps_keeps {head : Parsed α c} (advances : c.AdvancesTo head.next) :
    StatementKeeps (constantSteps head) := by
  refine .bind (.done fun _ => Cursor.need_advances) fun name named => ?_
  have named := advances.trans named.toReaches
  refine .bind (needAfterSteps_keeps _ named) fun rhs read => ?_
  exact terminated_keeps (p := head.followedBy (name.followedBy rhs ()) _) (named.trans read.toReaches) _

theorem assignmentSteps_keeps {target : Parsed String c} (advances : c.AdvancesTo target.next) :
    StatementKeeps (assignmentSteps target) := by
  refine .bind (expressionSteps_keeps advances) fun rhs read => ?_
  exact terminated_keeps (p := target.followedBy rhs _) (advances.trans read.toReaches) _

theorem expressionStatementSteps_keeps (c : Cursor) :
    StatementKeeps (expressionStatementSteps c) := by
  refine .bind (.ask (Call.descends_of_lower rfl (by simp [Level.all])) fun _ read => read)
    fun e read => ?_
  exact terminated_keeps read _

end Grammar

namespace Call

open Steps

section

variable {α : Type} {call other : Call} {next : other.Value → Steps α} {Gives : α → Prop}

theorem keeps_behind (advances : call.cursor.AdvancesTo other.cursor)
    (later : ∀ value, other.Advances value → (next value).Keeps call.Descends Gives) :
    (other.ask >>= next).Keeps call.Descends Gives :=
  .bind (.ask (descends_of_advances advances) fun _ read => read) later

theorem keeps_lower (here : other.cursor = call.cursor)
    (lower : other.production.height < call.production.height)
    (later : ∀ value, other.Advances value → (next value).Keeps call.Descends Gives) :
    (other.ask >>= next).Keeps call.Descends Gives :=
  .bind (.ask (descends_of_lower here lower) fun _ read => read) later

end

theorem statement_keeps (c : Cursor) :
    (statement c).steps.Keeps (statement c).Descends (statement c).Advances := by
  rw [steps]
  cases taken : c.take? StatementHead.ofToken? with
  | none =>
      dsimp only
      cases named : c.takeTarget? with
      | some target => exact Grammar.assignmentSteps_keeps (Cursor.takeTarget?_advances named)
      | none => exact Grammar.expressionStatementSteps_keeps c
  | some head =>
      have taken := Cursor.take?_advances taken
      dsimp only
      cases head.value with
      | empty => exact .pure taken
      | var => exact Grammar.varSteps_keeps taken
      | unit => exact Grammar.unitSteps_keeps taken
      | constant => exact Grammar.constantSteps_keeps taken
      | block => exact keeps_behind taken fun body read => .pure (taken.trans read.toReaches)
      | loop =>
          refine .bind (Grammar.conditionSteps_keeps taken) fun test tested => ?_
          exact keeps_behind tested fun body read => .pure (tested.trans read.toReaches)
      | branch =>
          refine .bind (Grammar.conditionSteps_keeps taken) fun test tested => ?_
          refine keeps_behind tested fun yes read => ?_
          have read := tested.trans read.toReaches
          split
          next => exact .pure read
          next other found =>
            have found := read.trans (Cursor.take?_advances found).toReaches
            exact keeps_behind found fun no last => .pure (found.trans last.toReaches)

/-- One step of a production only makes calls that are later or lower, and advances if they do. -/
theorem steps_keep (call : Call) : call.steps.Keeps call.Descends call.Advances := by
  match call with
  | level [] _ c => exact .ask (descends_of_lower rfl (by simp)) fun _ read => read
  | level (first :: tighter) within c =>
      refine keeps_lower rfl (by simp) fun left read => ?_
      exact .ask (descends_of_advances read) fun _ further => read.trans further
  | chain first tighter within left =>
      rw [steps]
      cases taken : left.next.take? first.connector? with
      | none => exact .pure (Cursor.Reaches.refl _)
      | some connector =>
          have taken := Cursor.take?_advances taken
          refine keeps_behind taken fun right read => ?_
          have joined := taken.trans read.toReaches
          exact .ask (descends_of_advances joined) fun _ further => joined.toReaches.trans further
  | signed c =>
      rw [steps]
      cases taken : c.take? SignOp.ofToken? with
      | none => exact .ask (descends_of_lower rfl (by simp)) fun _ read => read
      | some op =>
          have taken := Cursor.take?_advances taken
          exact keeps_behind taken fun operand read => .pure (taken.trans read.toReaches)
  | ascribed c =>
      refine keeps_lower rfl (by simp) fun operand read => ?_
      exact .ask (descends_of_advances read) fun _ further => read.trans further
  | units operand =>
      rw [steps]
      split
      next =>
        refine keeps_lower rfl (by simp) fun unit read => ?_
        exact .ask (descends_of_advances read) fun _ further => read.toReaches.trans further
      next => exact .pure (Cursor.Reaches.refl _)
  | power c =>
      refine keeps_lower rfl (by simp) fun base read => ?_
      exact .ask (descends_of_advances read) fun _ further => read.trans further
  | powers base =>
      rw [steps]
      cases taken : base.next.takeMark? .caret with
      | none => exact .pure (Cursor.Reaches.refl _)
      | some caret =>
          have taken := Cursor.take?_advances taken
          refine .bind (.done fun _ => Grammar.exponent_advances) fun size read => ?_
          have raised := taken.trans read.toReaches
          exact .ask (descends_of_advances raised) fun _ further => raised.toReaches.trans further
  | primary c =>
      rw [steps]
      cases taken : c.takeMark? .leftParen with
      | some opening =>
          have taken := Cursor.take?_advances taken
          refine .bind (Grammar.expressionSteps_keeps taken) fun inner read => ?_
          have read := taken.trans read.toReaches
          refine .bind (.done fun _ => Cursor.need_advances) fun closing closed => ?_
          exact .pure (read.trans closed.toReaches)
      | none => exact .bind (.done fun _ => Cursor.need_advances) fun atom read => .pure read
  | statement c => exact statement_keeps c
  | blockBody c =>
      rw [steps]
      cases taken : c.takeMark? .rightBrace with
      | some closing =>
          have taken := Cursor.take?_advances taken
          exact .pure taken
      | none =>
          dsimp only
          split
          next => exact .error
          next =>
            refine keeps_lower rfl (by simp) fun first read => ?_
            exact keeps_behind read fun rest further => .pure (read.trans further.toReaches)
  | statements c =>
      rw [steps]
      split
      next => exact .pure (Nat.zero_le _)
      next =>
        refine keeps_lower rfl (by simp) fun first read => ?_
        exact keeps_behind read fun rest further => .pure (Nat.lt_of_le_of_lt further read.consumes)
  | whole c =>
      refine keeps_lower rfl (by simp [Level.all]) fun e read => ?_
      split
      next => exact .pure (Nat.zero_lt_of_lt read.consumes)
      next => exact .error

/-- What one step keeps is kept in a whole run. -/
theorem advances_of_answer (call : Call) (value : call.Value) (answered : call.answer = .ok value) :
    call.Advances value := by
  rw [← run_steps] at answered
  -- The calls that the step makes have less weight, and so they advance.
  exact (steps_keep call).gives (fun other _ => advances_of_answer other) value answered
termination_by call.weight
decreasing_by exact Descends.weight_lt ‹_›

/-- A step of the first call makes the second one. -/
def Calls (call other : Call) : Prop := call.steps.Makes other

section

variable {call other : Call}

theorem Calls.descends (calls : call.Calls other) : call.Descends other :=
  (steps_keep call).calls (fun other _ => advances_of_answer other) calls

theorem descends_of_chain (chain : Relation.TransGen Calls call other) : call.Descends other := by
  induction chain with
  | single calls => exact calls.descends
  | tail _ calls ih => exact ih.trans calls.descends

/-- A cycle of productions, or a turn of a loop, takes a token. -/
theorem advances_of_cycle (chain : Relation.TransGen Calls call other)
    (again : other.production = call.production) : call.cursor.AdvancesTo other.cursor := by
  have descends := descends_of_chain chain
  refine ⟨descends.reaches, descends.lower.resolve_right ?_⟩
  rw [again]
  exact Nat.lt_irrefl _

end

/-- The answer when calls may only be nested so deep, or none if they go deeper. -/
def within : Nat → (call : Call) → Option (Except ParseError call.Value)
  | 0, _ => none
  | depth + 1, production => production.steps.runWith (within depth)

end Call

theorem Steps.runWith_eq {α : Type} {steps : Steps α}
    {answers : (call : Call) → Option (Except ParseError call.Value)}
    (answered : ∀ call, steps.Makes call → answers call = some call.answer) :
    steps.runWith answers = some steps.run := by
  induction steps with
  | done result => rfl
  | call production next ih =>
      rw [runWith, run, answered production (.inl rfl)]
      cases given : production.answer with
      | error e => rfl
      | ok value => exact ih value fun other made => answered other (.inr ⟨value, given, made⟩)

theorem Call.within_eq {call : Call} {depth : Nat} (enough : call.weight < depth) :
    call.within depth = some call.answer := by
  induction depth generalizing call with
  | zero => exact absurd enough (Nat.not_lt_zero _)
  | succ depth ih =>
      rw [within, ← run_steps]
      refine Steps.runWith_eq fun other made => ih ?_
      exact Nat.lt_of_lt_of_le (Calls.descends made).weight_lt (Nat.le_of_lt_succ enough)

/-- Reading ends within the tokens. Productions that give something have taken a token of the text, loops
take one in each turn, and so does every cycle of calls. Calls that may only be nested to a depth that grows
with the number of tokens are always answered, with a tree or with an error, as without a limit. -/
theorem readings_end_within_tokens :
    (∀ call : Call, call.steps.run = call.answer ∧
      ∀ value, call.answer = .ok value → call.Advances value) ∧
    (∀ call other : Call, Relation.TransGen Call.Calls call other →
      other.production = call.production → call.cursor.AdvancesTo other.cursor) ∧
    (∀ (call : Call) (depth : Nat), call.weight < depth → call.within depth = some call.answer) ∧
    ∀ tokens : Tokens, let depth := 19 * (tokens.items.length + 1)
      (Call.statements (.ofTokens tokens)).within depth = some (Program.ofTokens tokens) ∧
        (Call.whole (.ofTokens tokens)).within depth = some (Expr.ofTokens tokens) := by
  refine ⟨fun call => ⟨call.run_steps, call.advances_of_answer⟩, fun _ _ => Call.advances_of_cycle,
    fun _ _ => Call.within_eq, fun tokens => ⟨Call.within_eq ?_, Call.within_eq ?_⟩⟩
  · simp +arith [Call.weight, Cursor.ofTokens]
  · simp +arith [Call.weight, Cursor.ofTokens]

end Quantities
