import Quantities.Proofs.Grammar.StatementDerivation

/-!
The sorts of tokens. What numbers and names there are does not tell whether tokens are derived.
-/

namespace Quantities

namespace TokenKind

/-- The kind without the number or the name that comes with it. -/
def sort : TokenKind → TokenKind
  | number _ => number 0
  | name _ => name ""
  | kind => kind

variable {kind : TokenKind}

theorem sort_eq_mark {sign : Mark} : kind.sort = .mark sign ↔ kind = .mark sign := by
  cases kind <;> simp [sort]

theorem sort_eq_keyword {word : Keyword} : kind.sort = .keyword word ↔ kind = .keyword word := by
  cases kind <;> simp [sort]

theorem sort_eq_number {x : Float} (same : kind.sort = (number x).sort) : ∃ y, kind = .number y := by
  cases kind with
  | number y => exact ⟨y, rfl⟩
  | _ => cases same

theorem sort_eq_name {text : String} (same : kind.sort = (name text).sort) :
    ∃ other, kind = .name other := by
  cases kind with
  | name other => exact ⟨other, rfl⟩
  | _ => cases same

end TokenKind

/-- The tokens are of the same sorts. -/
def SameSorts (kinds others : List TokenKind) : Prop :=
  kinds.map TokenKind.sort = others.map TokenKind.sort

namespace SameSorts

variable {kinds first second rest : List TokenKind}

theorem append_inv (sorts : SameSorts kinds (first ++ second)) :
    ∃ front behind, kinds = front ++ behind ∧ SameSorts front first ∧ SameSorts behind second := by
  rw [SameSorts, List.map_append] at sorts
  exact List.map_eq_append_iff.mp sorts

theorem cons_inv {kind : TokenKind} (sorts : SameSorts kinds (kind :: rest)) :
    ∃ other more, kinds = other :: more ∧ other.sort = kind.sort ∧ SameSorts more rest := by
  rw [SameSorts, List.map_cons] at sorts
  exact List.map_eq_cons_iff.mp sorts

theorem mark_inv {sign : Mark} (sorts : SameSorts kinds (.mark sign :: rest)) :
    ∃ more, kinds = .mark sign :: more ∧ SameSorts more rest := by
  obtain ⟨other, more, rfl, same, behind⟩ := sorts.cons_inv
  exact ⟨more, by rw [TokenKind.sort_eq_mark.mp same], behind⟩

theorem keyword_inv {word : Keyword} (sorts : SameSorts kinds (.keyword word :: rest)) :
    ∃ more, kinds = .keyword word :: more ∧ SameSorts more rest := by
  obtain ⟨other, more, rfl, same, behind⟩ := sorts.cons_inv
  exact ⟨more, by rw [TokenKind.sort_eq_keyword.mp same], behind⟩

theorem name_inv {text : String} (sorts : SameSorts kinds (.name text :: rest)) :
    ∃ other more, kinds = .name other :: more ∧ SameSorts more rest := by
  obtain ⟨kind, more, rfl, same, behind⟩ := sorts.cons_inv
  obtain ⟨other, rfl⟩ := TokenKind.sort_eq_name same
  exact ⟨other, more, rfl, behind⟩

theorem number_inv {x : Float} (sorts : SameSorts kinds (.number x :: rest)) :
    ∃ y more, kinds = .number y :: more ∧ SameSorts more rest := by
  obtain ⟨kind, more, rfl, same, behind⟩ := sorts.cons_inv
  obtain ⟨y, rfl⟩ := TokenKind.sort_eq_number same
  exact ⟨y, more, rfl, behind⟩

theorem nil_inv (sorts : SameSorts kinds []) : kinds = [] := List.map_eq_nil_iff.mp sorts

end SameSorts

variable {kinds : List TokenKind}

theorem Connector.eq_of_sort {connector : Connector} {kind : TokenKind}
    (same : kind.sort = connector.kind.sort) : kind = connector.kind := by
  cases connector with
  | logical op => cases op <;> exact TokenKind.sort_eq_mark.mp same
  | binary op => cases op <;> exact TokenKind.sort_eq_mark.mp same
  | conversion => exact TokenKind.sort_eq_keyword.mp same

theorem SignOp.eq_of_sort {op : SignOp} {kind : TokenKind} (same : kind.sort = op.kind.sort) :
    kind = op.kind := by
  cases op <;> exact TokenKind.sort_eq_mark.mp same

theorem Atom.exists_of_sorts (single : Atom) {kind : TokenKind} (same : kind.sort = single.kind.sort) :
    ∃ other : Atom, other.kind = kind ∧ other.isUnit = single.isUnit := by
  cases single with
  | number x =>
      obtain ⟨y, rfl⟩ := TokenKind.sort_eq_number same
      exact ⟨.number y, rfl, rfl⟩
  | name text =>
      obtain ⟨other, rfl⟩ := TokenKind.sort_eq_name same
      exact ⟨.name other, rfl, rfl⟩
  | truth value =>
      refine ⟨.truth value, ?_, rfl⟩
      cases value <;> exact (TokenKind.sort_eq_keyword.mp same).symm
  | word type =>
      refine ⟨.word type, ?_, rfl⟩
      cases type <;> exact (TokenKind.sort_eq_keyword.mp same).symm

theorem Exponent.exists_of_sorts (size : Exponent) (sorts : SameSorts kinds size.yield) :
    ∃ other : Exponent, other.yield = kinds := by
  cases size with
  | plain x =>
      obtain ⟨y, more, rfl, behind⟩ := sorts.number_inv
      obtain rfl := behind.nil_inv
      exact ⟨.plain y, rfl⟩
  | plus x =>
      obtain ⟨rest, rfl, restSorts⟩ := sorts.mark_inv
      obtain ⟨y, more, rfl, behind⟩ := restSorts.number_inv
      obtain rfl := behind.nil_inv
      exact ⟨.plus y, rfl⟩
  | minus x =>
      obtain ⟨rest, rfl, restSorts⟩ := sorts.mark_inv
      obtain ⟨y, more, rfl, behind⟩ := restSorts.number_inv
      obtain rfl := behind.nil_inv
      exact ⟨.minus y, rfl⟩

theorem ExprDerivation.exists_of_sorts {stratum : Stratum} (d : ExprDerivation stratum)
    (sorts : SameSorts kinds d.yield) : ∃ other : ExprDerivation stratum, other.yield = kinds := by
  induction d generalizing kinds with
  | tighter inner ih =>
      obtain ⟨other, yield⟩ := ih sorts
      exact ⟨.tighter other, yield⟩
  | join connector atLevel left right leftIh rightIh =>
      obtain ⟨front, rest, rfl, frontSorts, restSorts⟩ := sorts.append_inv
      obtain ⟨kind, behind, rfl, same, behindSorts⟩ := restSorts.cons_inv
      obtain ⟨first, rfl⟩ := leftIh frontSorts
      obtain ⟨second, rfl⟩ := rightIh behindSorts
      exact ⟨.join connector atLevel first second, by rw [connector.eq_of_sort same]; rfl⟩
  | signed inner ih =>
      obtain ⟨other, yield⟩ := ih sorts
      exact ⟨.signed other, yield⟩
  | sign op operand ih =>
      obtain ⟨kind, behind, rfl, same, behindSorts⟩ := sorts.cons_inv
      obtain ⟨other, rfl⟩ := ih behindSorts
      exact ⟨.sign op other, by rw [op.eq_of_sort same]; rfl⟩
  | ascribed inner ih =>
      obtain ⟨other, yield⟩ := ih sorts
      exact ⟨.ascribed other, yield⟩
  | plain inner ih =>
      obtain ⟨other, yield⟩ := ih sorts
      exact ⟨.plain other, yield⟩
  | ascribe operand unit operandIh unitIh =>
      obtain ⟨front, behind, rfl, frontSorts, behindSorts⟩ := sorts.append_inv
      obtain ⟨first, rfl⟩ := operandIh frontSorts
      obtain ⟨second, rfl⟩ := unitIh behindSorts
      exact ⟨.ascribe first second, rfl⟩
  | primary inner ih =>
      obtain ⟨other, yield⟩ := ih sorts
      exact ⟨.primary other, yield⟩
  | power base exponent ih =>
      obtain ⟨front, rest, rfl, frontSorts, restSorts⟩ := sorts.append_inv
      obtain ⟨behind, rfl, behindSorts⟩ := restSorts.mark_inv
      obtain ⟨other, rfl⟩ := ih frontSorts
      obtain ⟨size, rfl⟩ := exponent.exists_of_sorts behindSorts
      exact ⟨.power other size, rfl⟩
  | atom single fits =>
      obtain ⟨kind, behind, rfl, same, behindSorts⟩ := sorts.cons_inv
      obtain ⟨other, rfl, isUnit⟩ := single.exists_of_sorts same
      obtain rfl := behindSorts.nil_inv
      exact ⟨.atom other (isUnit ▸ fits), rfl⟩
  | paren inner ih =>
      obtain ⟨rest, rfl, restSorts⟩ := sorts.mark_inv
      obtain ⟨front, behind, rfl, frontSorts, behindSorts⟩ := restSorts.append_inv
      obtain ⟨last, rfl, lastSorts⟩ := behindSorts.mark_inv
      obtain ⟨other, rfl⟩ := ih frontSorts
      obtain rfl := lastSorts.nil_inv
      exact ⟨.paren other, rfl⟩

theorem optionalYield_of_sorts {sign : Mark} (phrase? : Option Phrase)
    (sorts : SameSorts kinds (optionalYield sign phrase?)) :
    ∃ other? : Option Phrase, optionalYield sign other? = kinds := by
  cases phrase? with
  | none => exact ⟨none, sorts.nil_inv.symm⟩
  | some phrase =>
      obtain ⟨more, rfl, behind⟩ := sorts.mark_inv
      obtain ⟨other, rfl⟩ := phrase.exists_of_sorts behind
      exact ⟨some other, rfl⟩

theorem ending_of_sorts {cut : Bool} (sorts : SameSorts kinds (ending cut)) : kinds = ending cut := by
  cases cut with
  | true => exact sorts.nil_inv
  | false =>
      obtain ⟨more, rfl, behind⟩ := sorts.mark_inv
      rw [behind.nil_inv]
      rfl

theorem conditionYield_of_sorts {word : Keyword} {condition : Phrase} {body : List TokenKind}
    (sorts : SameSorts kinds (conditionYield word condition ++ body)) :
    ∃ (other : Phrase) (behind : List TokenKind), kinds = conditionYield word other ++ behind ∧
      SameSorts behind body := by
  obtain ⟨head, behind, rfl, headSorts, bodySorts⟩ := sorts.append_inv
  obtain ⟨rest, rfl, restSorts⟩ := headSorts.keyword_inv
  obtain ⟨more, rfl, moreSorts⟩ := restSorts.mark_inv
  obtain ⟨inner, last, rfl, innerSorts, lastSorts⟩ := moreSorts.append_inv
  obtain ⟨nothing, rfl, nothingSorts⟩ := lastSorts.mark_inv
  obtain ⟨other, rfl⟩ := condition.exists_of_sorts innerSorts
  obtain rfl := nothingSorts.nil_inv
  exact ⟨other, behind, rfl, bodySorts⟩

mutual

theorem StmtDerivation.exists_of_sorts {cut closed : Bool} (d : StmtDerivation cut closed) :
    ∀ {kinds : List TokenKind}, SameSorts kinds d.yield →
      ∃ other : StmtDerivation cut closed, other.yield = kinds := by
  intro kinds sorts
  match cut, closed, d with
  | _, _, .empty =>
      obtain ⟨more, rfl, behind⟩ := sorts.mark_inv
      exact ⟨.empty, by rw [behind.nil_inv]; rfl⟩
  | _, _, .block body =>
      obtain ⟨rest, rfl, restSorts⟩ := sorts.mark_inv
      obtain ⟨inner, last, rfl, innerSorts, lastSorts⟩ := restSorts.append_inv
      obtain ⟨nothing, rfl, nothingSorts⟩ := lastSorts.mark_inv
      obtain ⟨other, rfl⟩ := body.exists_of_sorts innerSorts
      obtain rfl := nothingSorts.nil_inv
      exact ⟨.block other, rfl⟩
  | _, _, .loop condition body =>
      obtain ⟨test, behind, rfl, behindSorts⟩ := conditionYield_of_sorts sorts
      obtain ⟨other, rfl⟩ := body.exists_of_sorts behindSorts
      exact ⟨.loop test other, rfl⟩
  | _, _, .branch condition yes =>
      obtain ⟨test, behind, rfl, behindSorts⟩ := conditionYield_of_sorts sorts
      obtain ⟨other, rfl⟩ := yes.exists_of_sorts behindSorts
      exact ⟨.branch test other, rfl⟩
  | _, _, .choice condition yes no =>
      obtain ⟨test, rest, rfl, restSorts⟩ := conditionYield_of_sorts sorts
      obtain ⟨front, behind, rfl, frontSorts, behindSorts⟩ := restSorts.append_inv
      obtain ⟨last, rfl, lastSorts⟩ := behindSorts.keyword_inv
      obtain ⟨first, rfl⟩ := yes.exists_of_sorts frontSorts
      obtain ⟨second, rfl⟩ := no.exists_of_sorts lastSorts
      exact ⟨.choice test first second, rfl⟩
  | _, _, .var name declared initial =>
      obtain ⟨named, rfl, namedSorts⟩ := sorts.keyword_inv
      obtain ⟨other, rest, rfl, restSorts⟩ := namedSorts.name_inv
      obtain ⟨front, more, rfl, frontSorts, moreSorts⟩ := restSorts.append_inv
      obtain ⟨behind, last, rfl, behindSorts, lastSorts⟩ := moreSorts.append_inv
      obtain ⟨type?, rfl⟩ := optionalYield_of_sorts declared frontSorts
      obtain ⟨value?, rfl⟩ := optionalYield_of_sorts initial behindSorts
      obtain rfl := ending_of_sorts lastSorts
      exact ⟨.var other type? value?, rfl⟩
  | _, _, .unit name definition =>
      obtain ⟨named, rfl, namedSorts⟩ := sorts.keyword_inv
      obtain ⟨other, rest, rfl, restSorts⟩ := namedSorts.name_inv
      obtain ⟨front, last, rfl, frontSorts, lastSorts⟩ := restSorts.append_inv
      obtain ⟨value?, rfl⟩ := optionalYield_of_sorts definition frontSorts
      obtain rfl := ending_of_sorts lastSorts
      exact ⟨.unit other value?, rfl⟩
  | _, _, .assign name rhs =>
      obtain ⟨other, rest, rfl, restSorts⟩ := sorts.name_inv
      obtain ⟨behind, rfl, behindSorts⟩ := restSorts.mark_inv
      obtain ⟨front, last, rfl, frontSorts, lastSorts⟩ := behindSorts.append_inv
      obtain ⟨value, rfl⟩ := rhs.exists_of_sorts frontSorts
      obtain rfl := ending_of_sorts lastSorts
      exact ⟨.assign other value, rfl⟩
  | _, _, .constant name rhs =>
      obtain ⟨named, rfl, namedSorts⟩ := sorts.keyword_inv
      obtain ⟨other, rest, rfl, restSorts⟩ := namedSorts.name_inv
      obtain ⟨behind, rfl, behindSorts⟩ := restSorts.mark_inv
      obtain ⟨front, last, rfl, frontSorts, lastSorts⟩ := behindSorts.append_inv
      obtain ⟨value, rfl⟩ := rhs.exists_of_sorts frontSorts
      obtain rfl := ending_of_sorts lastSorts
      exact ⟨.constant other value, rfl⟩
  | _, _, .expr phrase =>
      obtain ⟨front, last, rfl, frontSorts, lastSorts⟩ := sorts.append_inv
      obtain ⟨other, rfl⟩ := phrase.exists_of_sorts frontSorts
      obtain rfl := ending_of_sorts lastSorts
      exact ⟨.expr other, rfl⟩

theorem BodyDerivation.exists_of_sorts (body : BodyDerivation) :
    ∀ {kinds : List TokenKind}, SameSorts kinds body.yield →
      ∃ other : BodyDerivation, other.yield = kinds := by
  intro kinds sorts
  match body with
  | .nil => exact ⟨.nil, sorts.nil_inv.symm⟩
  | .cons first rest =>
      obtain ⟨front, behind, rfl, frontSorts, behindSorts⟩ := sorts.append_inv
      obtain ⟨other, rfl⟩ := first.exists_of_sorts frontSorts
      obtain ⟨others, rfl⟩ := rest.exists_of_sorts behindSorts
      exact ⟨.cons other others, rfl⟩

end

theorem ProgramDerivation.exists_of_sorts (d : ProgramDerivation) (sorts : SameSorts kinds d.yield) :
    ∃ other : ProgramDerivation, other.yield = kinds := by
  cases d with
  | whole body =>
      obtain ⟨other, yield⟩ := body.exists_of_sorts sorts
      exact ⟨.whole other, yield⟩
  | cut body last =>
      obtain ⟨front, behind, rfl, frontSorts, behindSorts⟩ := sorts.append_inv
      obtain ⟨others, rfl⟩ := body.exists_of_sorts frontSorts
      obtain ⟨other, rfl⟩ := last.exists_of_sorts behindSorts
      exact ⟨.cut others other, rfl⟩

end Quantities
