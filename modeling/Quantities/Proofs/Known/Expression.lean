import Quantities.Proofs.Exact.Operations

/-!
Expressions of known names. Where every name has the same known value for checking and for running,
the two compute the same value or find the same problem at the same node. The connectives are left
out, since running looks at their right operand only when the left one does not decide.
-/

namespace Quantities

namespace Problem

variable {Operand : Type}

/-- The problem with its operands left out. -/
def outline : Problem Operand → Problem Unit
  | nameNotDefined name => nameNotDefined name
  | notBoolean _ => notBoolean ()
  | notNumber _ => notNumber ()
  | notNumberOrUnit _ => notNumberOrUnit ()
  | notScalar _ => notScalar ()
  | notUnit _ => notUnit ()
  | baseMismatch _ _ => baseMismatch () ()
  | typeMismatch _ _ => typeMismatch () ()
  | operationNotDefined symbol _ _ => operationNotDefined symbol () ()
  | nothingDeclared => nothingDeclared
  | operationFailed reason => operationFailed reason
  | unitNotStatic _ => unitNotStatic ()

/-- The problem as checking tells it, which names the types of what does not match. -/
def typed : Problem Value → Problem Value
  | typeMismatch left right => typeMismatch left.abstractType right.abstractType
  | problem => problem

theorem outline_typed (problem : Problem Value) : problem.typed.outline = problem.outline := by
  cases problem <;> rfl

theorem number_typed (problem : Problem Value) : problem.typed.number = problem.number := by
  cases problem <;> rfl

theorem length_number (problem : Problem Operand) : problem.number.length = 2 := by
  cases problem <;> simp only [number] <;> decide

theorem code_typing (problem : Problem Operand) :
    problem.code .typing = "E2" ++ ("0" ++ problem.number) := by
  have phase : problem.codePhase .typing = .typing := by cases problem <;> rfl
  rw [code, phase, ← String.append_assoc]
  rfl

theorem code_running {problem : Problem Operand} (phase : problem.codePhase .running = .running) :
    problem.code .running = "E6" ++ ("0" ++ problem.number) := by
  rw [code, phase, ← String.append_assoc]
  rfl

end Problem

def Fault.typed (fault : Fault) : Fault := ⟨fault.location, fault.problem.typed⟩

/-- Checking gives what running gives, with the problem told in its own way. A result fits, and a
problem is one that running has a code for. -/
structure SameOutcome {α : Type} (fits : α → Prop) (checked ran : Except Fault α) : Prop where
  checked_eq : checked = ran.mapError Fault.typed
  result : ∀ v, ran = .ok v → fits v
  phase : ∀ fault, ran = .error fault → fault.problem.codePhase .running = .running

namespace SameOutcome

variable {α β : Type} {fits : α → Prop} {fitsNext : β → Prop}

theorem ok {v : α} (result : fits v) : SameOutcome fits (.ok v) (.ok v) where
  checked_eq := rfl
  result w same := by
    cases same
    exact result
  phase fault failed := by cases failed

theorem refuse {location : Location} {told problem : Problem Value} (typed : told = problem.typed)
    (phase : problem.codePhase .running = .running) :
    SameOutcome fits (Quantities.refuse location told) (Quantities.refuse location problem) where
  checked_eq := by
    rw [typed]
    rfl
  result w succeeded := by cases succeeded
  phase fault failed := by
    cases failed
    exact phase

theorem bind {checked ran : Except Fault α} {check run : α → Except Fault β}
    (first : SameOutcome fits checked ran)
    (next : ∀ v, fits v → SameOutcome fitsNext (check v) (run v)) :
    SameOutcome fitsNext (checked >>= check) (ran >>= run) := by
  rw [first.checked_eq]
  cases ran with
  | ok v => exact next v (first.result v rfl)
  | error fault =>
      refine ⟨rfl, ?_, ?_⟩
      · intro v succeeded
        cases succeeded
      · intro other failed
        cases failed
        exact first.phase fault rfl

theorem ite {condition : Prop} [Decidable condition] {checked ran checkedElse ranElse : Except Fault α}
    (holds : SameOutcome fits checked ran) (fails : SameOutcome fits checkedElse ranElse) :
    SameOutcome fits (if condition then checked else checkedElse)
      (if condition then ran else ranElse) := by
  split
  · exact holds
  · exact fails

end SameOutcome

namespace Value

variable {left right result : Value}

abbrev Known (v : Value) : Prop := v.isKnown = true

theorem known_of_negate (known : left.Known) (found : left.negate = some result) :
    result.Known := by
  cases left with
  | quantity q | unitConstructor unit =>
      cases found
      rfl
  | boolean truth | booleanConstructor => cases found
  | _ => cases known

theorem known_of_power {n : Float} (known : left.Known) (found : left.power n = some result) :
    result.Known := by
  cases left with
  | quantity q | unitConstructor unit =>
      cases found
      rfl
  | boolean truth | booleanConstructor => cases found
  | _ => cases known

theorem known_of_binary {op : BinaryOp} (leftKnown : left.Known) (rightKnown : right.Known)
    (found : binary op left right = some result) : result.Known := by
  obtain ⟨v, same, known⟩ := binary_known leftKnown rightKnown (kind_binary found)
  rw [found] at same
  cases same
  exact known

theorem known_of_ascribe {q : Quantity} (found : (quantity q).ascribe right = some result) :
    result.Known := by
  cases right with
  | unitConstructor unit =>
      obtain ⟨given, -, rfl⟩ := Option.map_eq_some_iff.mp found
      rfl
  | _ => cases found

theorem known_of_convert {q : Quantity} (found : (quantity q).convert right = some result) :
    result.Known := by
  cases right with
  | unitConstructor unit =>
      obtain ⟨given, -, rfl⟩ := Option.map_eq_some_iff.mp found
      rfl
  | _ => cases found

end Value

open Value

section

variable {location leftLocation rightLocation : Location} {left right : Value}

theorem defined_same (location : Location) {found : Option Value} (known : ∀ v, found = some v → v.Known) :
    SameOutcome Known (defined location found) (defined location found) := by
  cases found with
  | none => exact .refuse rfl rfl
  | some v => exact .ok (known v rfl)

theorem sign_same {op : SignOp} (known : left.Known) :
    SameOutcome Known (Typing.sign location leftLocation op left)
      (Evaluation.sign location leftLocation op left) := by
  cases op with
  | not =>
      cases left with
      | boolean truth => exact .ok rfl
      | quantity q | booleanConstructor | unitConstructor unit => exact .refuse rfl rfl
      | _ => cases known
  | plus =>
      cases left with
      | quantity q | unitConstructor unit => exact .ok rfl
      | boolean truth | booleanConstructor => exact .refuse rfl rfl
      | _ => cases known
  | minus =>
      cases left with
      | quantity q | unitConstructor unit =>
          exact defined_same location fun v found => known_of_negate known found
      | boolean truth | booleanConstructor => exact .refuse rfl rfl
      | _ => cases known

theorem power_same {n : Float} (known : left.Known) :
    SameOutcome Known (Typing.power location leftLocation left n)
      (Evaluation.power location leftLocation left n) := by
  cases left with
  | quantity q | unitConstructor unit =>
      exact defined_same location fun v found => known_of_power known found
  | boolean truth | booleanConstructor => exact .refuse rfl rfl
  | _ => cases known

/-- Only two numbers, or a number and a unit, can be refused before the operation. -/
theorem checkOperands_same {op : BinaryOp} (leftKnown : left.Known) (rightKnown : right.Known) :
    SameOutcome (fun _ => True)
      (Typing.checkOperands location leftLocation rightLocation op left right)
      (Evaluation.checkOperands location leftLocation rightLocation op left right) := by
  cases left with
  | quantity x =>
      cases right with
      | quantity y => exact .ite (.refuse rfl rfl) (.ok trivial)
      | unitConstructor unit => exact .ite (.refuse rfl rfl) (.ok trivial)
      | boolean truth | booleanConstructor => exact .ok trivial
      | _ => cases rightKnown
  | unitConstructor unit =>
      cases right with
      | quantity y => exact .ite (.refuse rfl rfl) (.ok trivial)
      | boolean truth | booleanConstructor | unitConstructor other => exact .ok trivial
      | _ => cases rightKnown
  | boolean truth | booleanConstructor =>
      cases right with
      | quantity y | boolean truth | booleanConstructor | unitConstructor unit => exact .ok trivial
      | _ => cases rightKnown
  | _ => cases leftKnown

theorem binary_same {op : BinaryOp} (leftKnown : left.Known) (rightKnown : right.Known) :
    SameOutcome Known (Typing.binary location leftLocation rightLocation op left right)
      (Evaluation.binary location leftLocation rightLocation op left right) := by
  refine (checkOperands_same leftKnown rightKnown).bind fun _ _ => ?_
  cases found : Value.binary op left right with
  | none => exact .refuse rfl rfl
  | some v => exact .ok (known_of_binary leftKnown rightKnown found)

theorem ascription_same (leftKnown : left.Known) :
    SameOutcome Known (Typing.ascription location leftLocation rightLocation left right)
      (Evaluation.ascription location leftLocation rightLocation left right) := by
  cases left with
  | quantity q =>
      exact .ite (.refuse rfl rfl) (.ite (.refuse rfl rfl)
        (defined_same location fun v found => known_of_ascribe found))
  | boolean truth | booleanConstructor | unitConstructor unit => exact .refuse rfl rfl
  | _ => cases leftKnown

theorem conversion_same (leftKnown : left.Known) :
    SameOutcome Known (Typing.conversion location leftLocation rightLocation left right)
      (Evaluation.conversion location leftLocation rightLocation left right) := by
  cases left with
  | quantity q =>
      cases right with
      | unitConstructor target =>
          exact .ite (.refuse rfl rfl) (defined_same location fun v found => known_of_convert found)
      | _ => exact .refuse rfl rfl
  | boolean truth | booleanConstructor | unitConstructor unit => exact .refuse rfl rfl
  | _ => cases leftKnown

end

namespace Expr

/-- Whether two truths are connected anywhere in an expression. -/
def hasConnective : Expr → Bool
  | number .. | bool .. | typeWord .. | name .. => false
  | paren _ part | sign _ _ part | power _ part _ => part.hasConnective
  | binary _ _ left right | ascription _ left right | conversion _ left right =>
    left.hasConnective || right.hasConnective
  | logical .. => true

/-- Each name has one known value for both, or is bound for neither. -/
def BoundAlike (types values : String → Option Value) : Prop :=
  ∀ name, (types name = none ∧ values name = none) ∨
    ∃ v : Value, v.Known ∧ types name = some v ∧ values name = some v

variable {types values : String → Option Value}

theorem infer_same (alike : BoundAlike types values) {e : Expr}
    (unconnected : e.hasConnective = false) : SameOutcome Known (e.infer types) (e.eval values) := by
  induction e with
  | number location x | bool location truth => exact .ok rfl
  | typeWord location word => cases word <;> exact .ok rfl
  | name location text =>
      rcases alike text with ⟨noType, noValue⟩ | ⟨v, known, type, value⟩
      · rw [infer, eval, noType, noValue]
        exact .refuse rfl rfl
      · have bare : v.unwrap = v := by
          cases v with
          | hole name type => cases known
          | _ => rfl
        rw [infer, eval, type, value]
        simp only [bare]
        exact .ok known
  | paren location inner ih => exact ih unconnected
  | sign location op operand ih => exact (ih unconnected).bind fun v known => sign_same known
  | power location base exponent ih =>
      exact (ih unconnected).bind fun v known => power_same known
  | binary location op left right leftIh rightIh =>
      obtain ⟨leftFree, rightFree⟩ := Bool.or_eq_false_iff.mp unconnected
      exact (leftIh leftFree).bind fun v known => (rightIh rightFree).bind fun w rightKnown =>
        binary_same known rightKnown
  | logical location op left right leftIh rightIh => cases unconnected
  | ascription location operand unit operandIh unitIh =>
      obtain ⟨operandFree, unitFree⟩ := Bool.or_eq_false_iff.mp unconnected
      exact (operandIh operandFree).bind fun v known => (unitIh unitFree).bind fun w _ =>
        ascription_same known
  | conversion location operand unit operandIh unitIh =>
      obtain ⟨operandFree, unitFree⟩ := Bool.or_eq_false_iff.mp unconnected
      exact (operandIh operandFree).bind fun v known => (unitIh unitFree).bind fun w _ =>
        conversion_same known

/-- Checking and running an expression of known names come to one value, or they fail at one node
with one problem, and the two codes differ in the first digit alone. -/
theorem infer_agrees_eval (alike : BoundAlike types values) {e : Expr}
    (unconnected : e.hasConnective = false) :
    (∃ v, e.infer types = .ok v ∧ e.eval values = .ok v) ∨
      ∃ checked ran : Fault, e.infer types = .error checked ∧ e.eval values = .error ran ∧
        checked.location = ran.location ∧ checked.problem.outline = ran.problem.outline ∧
          ∃ digits : String, digits.length = 3 ∧ checked.problem.code .typing = "E2" ++ digits ∧
            ran.problem.code .running = "E6" ++ digits := by
  have same := infer_same alike unconnected
  cases evaluated : e.eval values with
  | ok v =>
      refine .inl ⟨v, ?_, rfl⟩
      rw [same.checked_eq, evaluated]
      rfl
  | error fault =>
      refine .inr ⟨fault.typed, fault, ?_, rfl, rfl, fault.problem.outline_typed,
        "0" ++ fault.problem.number, ?_, ?_, Problem.code_running (same.phase fault evaluated)⟩
      · rw [same.checked_eq, evaluated]
        rfl
      · rw [String.length_append, Problem.length_number]
        rfl
      · rw [Problem.code_typing, Fault.typed, Problem.number_typed]

/-- Three kilometres and a second do not add up, whether they are checked or run. -/
theorem kilometres_plus_second_agrees :
    let units (name : String) : Option Value :=
      if name = "km" then some (.unitConstructor ⟨.single "km", .single "m", 1000⟩)
      else if name = "s" then some (.unitConstructor (.fresh "s")) else none
    let sum : Expr := .binary .nowhere .plus
      (.ascription .nowhere (.number .nowhere 3) (.name .nowhere "km"))
      (.ascription .nowhere (.number .nowhere 1) (.name .nowhere "s"))
    BoundAlike units units ∧ sum.hasConnective = false ∧
    ((∃ v, sum.infer units = .ok v ∧ sum.eval units = .ok v) ∨
      ∃ checked ran : Fault, sum.infer units = .error checked ∧ sum.eval units = .error ran ∧
        checked.location = ran.location ∧ checked.problem.outline = ran.problem.outline ∧
          ∃ digits : String, digits.length = 3 ∧ checked.problem.code .typing = "E2" ++ digits ∧
            ran.problem.code .running = "E6" ++ digits) := by
  intro units sum
  have alike : BoundAlike units units := by
    intro name
    by_cases kilometre : name = "km"
    · exact .inr ⟨_, rfl, if_pos kilometre, if_pos kilometre⟩
    · by_cases second : name = "s"
      · have bound : units name = some (.unitConstructor (.fresh "s")) :=
          (if_neg kilometre).trans (if_pos second)
        exact .inr ⟨_, rfl, bound, bound⟩
      · have unbound : units name = none := (if_neg kilometre).trans (if_neg second)
        exact .inl ⟨unbound, unbound⟩
  exact ⟨alike, rfl, infer_agrees_eval alike rfl⟩

end Expr

end Quantities
