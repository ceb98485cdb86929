import Mathlib.Logic.ExistsUnique
import Quantities.Proofs.Fault.Rules
import Quantities.Proofs.Kind.Evaluation
import Quantities.Proofs.Tree.Node

/-!
The node to which a fault is due. Checking and evaluating an expression look at its operands from left
to right, and the first that fails hands its fault on as it is. A fault therefore comes from one node,
the innermost one on the left that fails although all its operands have results.
-/

namespace Quantities

open Fault (Accounted)

namespace Expr

section

variable (run : Expr → Except Fault Value) (operands : Expr → List Expr)

def Settled (es : List Expr) : Prop := ∀ e ∈ es, ∃ v, run e = .ok v

/-- The way from an expression to a node in it. Everything to the left of the way has a result. -/
inductive LeadsTo (node : Expr) : Expr → Prop where
  | here : LeadsTo node node
  | inside {e operand : Expr} {before after : List Expr}
      (split : operands e = before ++ operand :: after) (settled : Settled run before)
      (inner : LeadsTo node operand) : LeadsTo node e

/-- The node fails with this fault although its operands have results, and the fault is placed at the
node or at one of them. -/
structure FailsAlone (fault : Fault) (node : Expr) : Prop where
  failed : run node = .error fault
  settled : Settled run (operands node)
  placed : fault.location ∈ node.location :: (operands node).map location

/-- The operands of a node are looked at from left to right and before the node itself. -/
structure LeftToRight : Prop where
  within : ∀ e, operands e ⊆ e.children
  handsOn : ∀ {e operand : Expr} {before after : List Expr} {fault : Fault},
    operands e = before ++ operand :: after → Settled run before → run operand = .error fault →
      run e = .error fault
  accounted : ∀ {e : Expr}, Settled run (operands e) →
    FailsOnly (Accounted (e.location :: (operands e).map location)) (run e)

end

variable {run : Expr → Except Fault Value} {operands : Expr → List Expr} {fault : Fault}

theorem settled_or_first_fails (run : Expr → Except Fault Value) (es : List Expr) :
    Settled run es ∨ ∃ before e after fault,
      es = before ++ e :: after ∧ Settled run before ∧ run e = .error fault := by
  induction es with
  | nil => exact .inl nofun
  | cons first rest ih =>
      cases outcome : run first with
      | error fault => exact .inr ⟨[], first, rest, fault, rfl, nofun, outcome⟩
      | ok v =>
          rcases ih with settled | ⟨before, e, after, fault, rfl, settled, failed⟩
          · exact .inl (List.forall_mem_cons.mpr ⟨⟨v, outcome⟩, settled⟩)
          · exact .inr ⟨first :: before, e, after, fault, rfl,
              List.forall_mem_cons.mpr ⟨⟨v, outcome⟩, settled⟩, failed⟩

theorem Settled.not_error {es : List Expr} {e : Expr} (settled : Settled run es) (member : e ∈ es) :
    run e ≠ .error fault := by
  intro failed
  obtain ⟨v, succeeded⟩ := settled e member
  rw [failed] at succeeded
  cases succeeded

theorem by_children {property : Expr → Prop}
    (step : ∀ e : Expr, (∀ child ∈ e.children, property child) → property e) (e : Expr) :
    property e := by
  induction e with
  | number | bool | typeWord | name => exact step _ nofun
  | paren _ _ ih | sign _ _ _ ih | power _ _ _ ih => exact step _ (by simp [children, ih])
  | binary _ _ _ _ leftIh rightIh | logical _ _ _ _ leftIh rightIh | ascription _ _ _ leftIh rightIh
  | conversion _ _ _ leftIh rightIh => exact step _ (by simp [children, leftIh, rightIh])

namespace LeftToRight

variable {e node other : Expr} (ordered : LeftToRight run operands)

include ordered

theorem exists_origin (e : Expr) {fault : Fault} (failed : run e = .error fault) :
    ∃ node, LeadsTo run operands node e ∧ FailsAlone run operands fault node := by
  induction e using by_children generalizing fault with
  | step e ih =>
      rcases settled_or_first_fails run (operands e) with
        settled | ⟨before, operand, after, given, split, settled, operandFailed⟩
      · exact ⟨e, .here, failed, settled, (ordered.accounted settled fault failed).placed⟩
      · have same := ordered.handsOn split settled operandFailed
        rw [failed] at same
        cases same
        have child : operand ∈ e.children := ordered.within e (by simp [split])
        obtain ⟨node, leads, alone⟩ := ih operand child operandFailed
        exact ⟨node, .inside split settled leads, alone⟩

/-- A fault comes all the way back from the node. -/
theorem failed_of_leadsTo (leads : LeadsTo run operands node e) (failed : run node = .error fault) :
    run e = .error fault := by
  induction leads with
  | here => exact failed
  | inside split settled inner ih => exact ordered.handsOn split settled ih

/-- By induction on the one way, along which the other one has to go: an operand that fails is neither
to the left of a way nor an operand of its last node. -/
theorem origin_unique {otherFault : Fault} (leads : LeadsTo run operands node e)
    (alone : FailsAlone run operands fault node) (leadsToo : LeadsTo run operands other e)
    (aloneToo : FailsAlone run operands otherFault other) : other = node := by
  induction leads with
  | here =>
      cases leadsToo with
      | here => rfl
      | inside split settled inner =>
          have failed := ordered.failed_of_leadsTo inner aloneToo.failed
          exact absurd failed (alone.settled.not_error (by simp [split]))
  | @inside e operand before after split settled inner ih =>
      have failed := ordered.failed_of_leadsTo inner alone.failed
      cases leadsToo with
      | here => exact absurd failed (aloneToo.settled.not_error (by simp [split]))
      | @inside _ otherOperand front back otherSplit otherSettled otherInner =>
          have otherFailed := ordered.failed_of_leadsTo otherInner aloneToo.failed
          -- Both ways go on through the first operand that fails.
          have same : operand = otherOperand := by
            rcases List.append_eq_append_iff.mp (split.symm.trans otherSplit) with
              ⟨between, rfl, behind⟩ | ⟨between, rfl, behind⟩
            · cases between with
              | nil => exact (List.cons.inj behind).1
              | cons first rest =>
                  obtain ⟨rfl, -⟩ := List.cons.inj behind
                  exact absurd failed (otherSettled.not_error (by simp))
            · cases between with
              | nil => exact (List.cons.inj behind).1.symm
              | cons first rest =>
                  obtain ⟨rfl, -⟩ := List.cons.inj behind
                  exact absurd otherFailed (settled.not_error (by simp))
          subst same
          exact ih otherInner

/-- A fault says what is wrong, as the rule does that it comes from. -/
theorem explained (e : Expr) : FailsOnly Fault.Explained (run e) := by
  intro fault failed
  obtain ⟨node, -, alone⟩ := ordered.exists_origin e failed
  exact (ordered.accounted alone.settled fault alone.failed).explained

theorem error_iff : run e = .error fault ↔
    ∃! node, LeadsTo run operands node e ∧ FailsAlone run operands fault node := by
  constructor
  · intro failed
    obtain ⟨node, leads, alone⟩ := ordered.exists_origin e failed
    exact ⟨node, ⟨leads, alone⟩, fun other ⟨leadsToo, aloneToo⟩ =>
      ordered.origin_unique leads alone leadsToo aloneToo⟩
  · rintro ⟨node, ⟨leads, alone⟩, -⟩
    exact ordered.failed_of_leadsTo leads alone.failed

end LeftToRight

end Expr

namespace Expr

section

variable {run : Expr → Except Fault Value} {e operand only left right : Expr}
  {before after : List Expr} {fault : Fault}

theorem Settled.failsOnly {es : List Expr} {faults : Fault → Prop} (settled : Settled run es)
    (member : e ∈ es) : FailsOnly faults (run e) :=
  fun _ failed => absurd failed (settled.not_error member)

theorem eq_of_split_one (split : [only] = before ++ operand :: after) : operand = only := by
  cases before with
  | nil => exact (List.cons.inj split).1.symm
  | cons first rest => simp at split

theorem handsOn_one {combine : Value → Except Fault Value} (runs : run e = (run only >>= combine))
    (split : [only] = before ++ operand :: after) (failed : run operand = .error fault) :
    run e = .error fault := by
  rw [eq_of_split_one split] at failed
  rw [runs]
  exact Result.bind_error_first failed

theorem handsOn_two {combine : Value → Value → Except Fault Value}
    (runs : run e = (do combine (← run left) (← run right)))
    (split : [left, right] = before ++ operand :: after) (settled : Settled run before)
    (failed : run operand = .error fault) : run e = .error fault := by
  rw [runs]
  cases before with
  | nil =>
      rw [← (List.cons.inj split).1] at failed
      exact Result.bind_error_first failed
  | cons first rest =>
      obtain ⟨same, split⟩ := List.cons.inj split
      obtain ⟨lhs, succeeded⟩ := settled left (same ▸ List.mem_cons_self)
      rw [eq_of_split_one split] at failed
      exact Result.bind_error_next succeeded (Result.bind_error_first failed)

/-- Where all operands that are looked at have results, the second one is among them. -/
theorem accounted_two {operands : Expr → List Expr} {combine : Value → Value → Except Fault Value}
    (runs : run e = (do combine (← run left) (← run right))) (begins : left ∈ operands e)
    (goesOn : ∀ v, run left = .ok v → operands e = [left, right])
    (settled : Settled run (operands e))
    (accounted : ∀ lhs rhs, run left = .ok lhs →
      FailsOnly (Accounted [e.location, left.location, right.location]) (combine lhs rhs)) :
    FailsOnly (Accounted (e.location :: (operands e).map location)) (run e) := by
  obtain ⟨lhs, succeeded⟩ := settled left begins
  rw [goesOn lhs succeeded] at settled ⊢
  rw [runs]
  exact .bind (settled.failsOnly (by simp)) fun lhs leftRan =>
    .bind (settled.failsOnly (by simp)) fun rhs _ => accounted lhs rhs leftRan

end

variable {types values : String → Option Value}

theorem infer_leftToRight (types : String → Option Value) : LeftToRight (infer types) children where
  within e := List.Subset.refl _
  handsOn := by
    intro e operand before after fault split settled failed
    cases e with
    | number | bool | typeWord | name => simp [children] at split
    | paren location inner => exact eq_of_split_one split ▸ failed
    | sign location op inner => exact handsOn_one rfl split failed
    | power location base exponent => exact handsOn_one rfl split failed
    | binary location op left right => exact handsOn_two rfl split settled failed
    | logical location op left right => exact handsOn_two rfl split settled failed
    | ascription location inner unit => exact handsOn_two rfl split settled failed
    | conversion location inner unit => exact handsOn_two rfl split settled failed
  accounted := by
    intro e settled
    cases e with
    | number | bool => exact .ok
    | typeWord location word => cases word <;> exact .ok
    | name location text =>
        rw [infer]
        split
        · exact .ok
        · exact .refuse ⟨List.mem_cons_self, rfl⟩
    | paren location inner => exact settled.failsOnly (e := inner) (by simp [children])
    | sign location op inner =>
        exact .bind (settled.failsOnly (by simp [children])) fun _ inferred =>
          Typing.sign_accounted (unwrap_of_infer inferred)
    | power location base exponent =>
        exact .bind (settled.failsOnly (by simp [children])) fun _ inferred =>
          Typing.power_accounted (unwrap_of_infer inferred)
    | binary location op left right =>
        exact accounted_two rfl (by simp [children]) (fun _ _ => rfl) settled
          fun _ _ _ => Typing.binary_accounted
    | logical location op left right =>
        exact accounted_two rfl (by simp [children]) (fun _ _ => rfl) settled
          fun _ _ _ => Typing.logical_accounted
    | ascription location inner unit =>
        exact accounted_two rfl (by simp [children]) (fun _ _ => rfl) settled
          fun _ _ inferred => Typing.ascription_accounted (unwrap_of_infer inferred)
    | conversion location inner unit =>
        exact accounted_two rfl (by simp [children]) (fun _ _ => rfl) settled
          fun _ _ inferred => Typing.conversion_accounted (unwrap_of_infer inferred)

theorem reached_subset (values : String → Option Value) (e : Expr) :
    e.reached values ⊆ e.children := by
  cases e with
  | number | bool | typeWord | name | paren | sign | power => exact List.Subset.refl _
  | binary location op left right | ascription location left right
  | conversion location left right =>
      simp only [reached, children]
      split <;> simp
  | logical location op left right =>
      simp only [reached, children]
      split
      · split <;> simp
      · simp

/-- Behind a truth that does not decide, a connective needs both operands like the other nodes. -/
theorem eval_logical_of_open {location : Location} {op : LogicalOp} {left right : Expr} {known : Bool}
    (truth : left.eval values = .ok (.boolean known)) (goesOn : ¬ Evaluation.decides op known = true) :
    (logical location op left right).eval values = (do
      let _ ← left.eval values
      let rhs ← right.eval values
      return .boolean (← Evaluation.truth right.location rhs)) := by
  rw [eval, truth]
  exact if_neg goesOn

theorem eval_leftToRight (values : String → Option Value) :
    LeftToRight (eval values) (reached values) where
  within := reached_subset values
  handsOn := by
    intro e operand before after fault split settled failed
    cases e with
    | number | bool | typeWord | name => simp [reached] at split
    | paren location inner => exact eq_of_split_one split ▸ failed
    | sign location op inner => exact handsOn_one rfl split failed
    | power location base exponent => exact handsOn_one rfl split failed
    | binary location op left right | ascription location left right
    | conversion location left right =>
        simp only [reached] at split
        split at split
        · exact handsOn_two rfl split settled failed
        · exact handsOn_one rfl split failed
    | logical location op left right =>
        simp only [reached] at split
        split at split
        next known truth =>
          split at split
          next => exact handsOn_one rfl split failed
          next goesOn =>
            exact handsOn_two (eval_logical_of_open truth goesOn) split settled failed
        next => exact handsOn_one rfl split failed
  accounted := by
    intro e settled
    cases e with
    | number | bool => exact .ok
    | typeWord location word => cases word <;> exact .ok
    | name location text =>
        rw [eval]
        split
        · exact .ok
        · exact .refuse ⟨List.mem_cons_self, rfl⟩
    | paren location inner => exact settled.failsOnly (e := inner) (by simp [reached])
    | sign location op inner =>
        exact .bind (settled.failsOnly (by simp [reached])) fun _ _ => Evaluation.sign_accounted
    | power location base exponent =>
        exact .bind (settled.failsOnly (by simp [reached])) fun _ _ => Evaluation.power_accounted
    | binary location op left right =>
        exact accounted_two rfl (by simp only [reached]; split <;> simp)
          (fun _ succeeded => by simp only [reached, succeeded]) settled
          fun _ _ _ => Evaluation.binary_accounted
    | ascription location inner unit =>
        exact accounted_two rfl (by simp only [reached]; split <;> simp)
          (fun _ succeeded => by simp only [reached, succeeded]) settled
          fun _ _ _ => Evaluation.ascription_accounted
    | conversion location inner unit =>
        exact accounted_two rfl (by simp only [reached]; split <;> simp)
          (fun _ succeeded => by simp only [reached, succeeded]) settled
          fun _ _ _ => Evaluation.conversion_accounted
    | logical location op left right =>
        have begins : left ∈ (logical location op left right).reached values := by
          simp only [reached]
          split
          · split <;> simp
          · simp
        refine .bind (settled.failsOnly begins) fun lhs succeeded =>
          .bind (Evaluation.truth_accounted.imp fun fault accounted => ?_) fun known truth => ?_
        · obtain ⟨place, explained⟩ := accounted
          refine ⟨List.mem_cons_of_mem _ (List.mem_map.mpr ⟨left, begins, ?_⟩), explained⟩
          exact (List.mem_singleton.mp place).symm
        · obtain rfl := Evaluation.truth_eq_ok.mp truth
          refine .ite (fun _ => .ok) fun goesOn => ?_
          simp only [reached, succeeded, goesOn, if_false, Bool.false_eq_true] at settled ⊢
          exact .bind (settled.failsOnly (by simp)) fun rhs _ =>
            .bind (Evaluation.truth_accounted.imp fun fault accounted =>
              ⟨by simp [List.mem_singleton.mp accounted.placed], accounted.explained⟩) fun _ _ => .ok

/-- A fault in checking or in evaluation is due to one node: it fails with this fault, all of its
operands that are looked at have results, and so does everything to the left of the way to it. -/
theorem fault_origin (e : Expr) (fault : Fault) :
    (∀ types : String → Option Value, e.infer types = .error fault ↔
      ∃! node, LeadsTo (infer types) children node e ∧
        FailsAlone (infer types) children fault node) ∧
    ∀ values : String → Option Value, e.eval values = .error fault ↔
      ∃! node, LeadsTo (eval values) (reached values) node e ∧
        FailsAlone (eval values) (reached values) fault node :=
  ⟨fun types => (infer_leftToRight types).error_iff,
    fun values => (eval_leftToRight values).error_iff⟩

/-- Both operands of the sum fail, and its fault is due to one node. -/
theorem sum_fault_origin :
    let types (_ : String) : Option Value := none
    let left : Expr := .name .nowhere "x"
    let sum : Expr := .binary .nowhere .plus left (.name .nowhere "y")
    ∃! node, LeadsTo (infer types) children node sum ∧
      FailsAlone (infer types) children ⟨.nowhere, .nameNotDefined "x"⟩ node := by
  intro types left sum
  have failed : sum.infer types = .error ⟨.nowhere, .nameNotDefined "x"⟩ := rfl
  exact ((fault_origin sum _).1 types).mp failed

end Expr

end Quantities
