import Quantities.Proofs.Number.Distinct
import Quantities.Proofs.Written.Value

/-!
What the text of a quantity tells. Labels are words and numbers are digits, and so the text falls into
its parts in one way only: the magnitude, the labels with their exponents, and the factor if there is
one. A factor that is not shown is not told.
-/

namespace Quantities

theorem eq_of_append_cons {α : Type} {mark : α} {front other rest more : List α}
    (absent : mark ∉ front) (otherAbsent : mark ∉ other)
    (same : front ++ mark :: rest = other ++ mark :: more) : front = other ∧ rest = more := by
  induction front generalizing other with
  | nil =>
      cases other with
      | nil => exact ⟨rfl, List.tail_eq_of_cons_eq same⟩
      | cons first others =>
          have first := List.head_eq_of_cons_eq same
          exact absurd (first ▸ List.mem_cons_self) otherAbsent
  | cons first front ih =>
      cases other with
      | nil =>
          have first := List.head_eq_of_cons_eq same
          exact absurd (first ▸ List.mem_cons_self) absent
      | cons second other =>
          have first := List.head_eq_of_cons_eq same
          subst first
          obtain ⟨rfl, rest⟩ := ih (fun member => absent (List.mem_cons_of_mem _ member))
            (fun member => otherAbsent (List.mem_cons_of_mem _ member))
            (List.tail_eq_of_cons_eq same)
          exact ⟨rfl, rest⟩

theorem toList_intercalate_factors (first second : String) (rest : List String) :
    (" * ".intercalate (first :: second :: rest)).toList =
      first.toList ++ ' ' :: '*' :: ' ' :: (" * ".intercalate (second :: rest)).toList := by
  rw [String.intercalate_cons_cons, String.toList_append, String.toList_append, List.append_assoc]
  rfl

theorem ne_intercalate_factors {text : String} (closed : ' ' ∉ text.toList) (first second : String)
    (rest : List String) : text ≠ " * ".intercalate (first :: second :: rest) := by
  rintro rfl
  rw [toList_intercalate_factors] at closed
  simp at closed

theorem eq_of_intercalate {texts others : List String} (nonempty : texts ≠ [])
    (otherNonempty : others ≠ []) (closed : ∀ text ∈ texts, ' ' ∉ text.toList)
    (otherClosed : ∀ text ∈ others, ' ' ∉ text.toList)
    (same : " * ".intercalate texts = " * ".intercalate others) : texts = others := by
  induction texts generalizing others with
  | nil => exact absurd rfl nonempty
  | cons text texts ih =>
      cases others with
      | nil => exact absurd rfl otherNonempty
      | cons other others =>
          obtain ⟨textClosed, closed⟩ := List.forall_mem_cons.mp closed
          obtain ⟨otherTextClosed, otherClosed⟩ := List.forall_mem_cons.mp otherClosed
          cases texts with
          | nil =>
              rw [String.intercalate_singleton] at same
              cases others with
              | nil => simpa using same
              | cons second rest => exact absurd same (ne_intercalate_factors textClosed _ _ _)
          | cons second rest =>
              cases others with
              | nil =>
                  rw [String.intercalate_singleton] at same
                  exact absurd same.symm (ne_intercalate_factors otherTextClosed _ _ _)
              | cons otherSecond otherRest =>
                  have rows := congrArg String.toList same
                  rw [toList_intercalate_factors, toList_intercalate_factors] at rows
                  obtain ⟨first, behind⟩ := eq_of_append_cons textClosed otherTextClosed rows
                  have later := String.toList_inj.mp
                    (List.tail_eq_of_cons_eq (List.tail_eq_of_cons_eq behind))
                  rw [String.toList_inj.mp first,
                    ih (List.cons_ne_nil _ _) (List.cons_ne_nil _ _) closed otherClosed later]

namespace Number

theorem text_characters {x : Float} (finite : x.isFinite = true) :
    ∀ c ∈ (text x).toList, Literal.isDigit c = true ∨ c = '.' ∨ c = '-' := by
  have digit (c : Char) (member : c ∈ digits x) :
      Literal.isDigit c = true ∨ c = '.' ∨ c = '-' :=
    (Decimal.positional_characters _ c member).imp_right .inl
  intro c member
  rw [text_eq finite] at member
  split at member
  next =>
    rcases List.mem_cons.mp member with rfl | member
    · exact .inr (.inr rfl)
    · exact digit c member
  next => exact digit c member

theorem not_mem_text {x : Float} (finite : x.isFinite = true) {c : Char}
    (noDigit : Literal.isDigit c = false) (noPoint : c ≠ '.') (noMinus : c ≠ '-') :
    c ∉ (text x).toList := by
  intro member
  rcases text_characters finite c member with digit | rfl | rfl
  · rw [noDigit] at digit
    cases digit
  · exact noPoint rfl
  · exact noMinus rfl

end Number

/-- The text begins with a letter and has no blank in it. -/
structure LooksNamed (text : String) : Prop where
  first : ∃ c more, text.toList = c :: more ∧ isWordStart c = true
  closed : ' ' ∉ text.toList

theorem IsWord.not_mem {text : List Char} (word : IsWord text) {c : Char}
    (noPart : isWordPart c = false) : c ∉ text := by
  obtain ⟨first, more, rfl, start, parts⟩ := word
  have firstPart : isWordPart first = true := by
    simp only [isWordStart, isWordPart, Char.isAlphanum, Bool.or_eq_true] at start ⊢
    exact start.imp_left .inl
  intro member
  rcases List.mem_cons.mp member with rfl | later
  · rw [noPart] at firstPart
    cases firstPart
  · rw [parts c later] at noPart
    cases noPart

theorem IsWord.looksNamed {text : String} (word : IsWord text.toList) : LooksNamed text := by
  have closed := word.not_mem (c := ' ') rfl
  obtain ⟨first, more, row, start, -⟩ := word
  exact ⟨⟨first, more, row, start⟩, closed⟩

theorem LooksNamed.ne_text {text : String} (named : LooksNamed text) {x : Float}
    (finite : x.isFinite = true) : text ≠ Number.text x := by
  rintro rfl
  obtain ⟨c, more, row, start⟩ := named.first
  have digit := isDigit_of_isWordStart start
  refine Number.not_mem_text finite digit ?_ ?_ (row ▸ List.mem_cons_self)
  · rintro rfl
    cases start
  · rintro rfl
    cases start

theorem Display.texts_eq (trees : List Display) : texts trees = trees.map text := by
  induction trees with
  | nil => rfl
  | cons tree rest ih => rw [texts, ih, List.map_cons]

namespace Measure

/-- The labels are names, and the numbers are finite. -/
structure Legible (unit : Measure) : Prop where
  spelled : ∀ entry ∈ unit.dims.entries, (TokenKind.name entry.1).Spelled
  exponents : ∀ entry ∈ unit.dims.entries, entry.2.isFinite = true
  factor : unit.factor.isFinite = true

/-- The factor, if it is shown. -/
def shownFactor? (unit : Measure) : Option Float :=
  if unit.dims == unit.base && unit.factor != 1 then some unit.factor else none

theorem eq_factor_of_shown {unit : Measure} {x : Float} (shown : unit.shownFactor? = some x) :
    x = unit.factor :=
  (Option.some.inj (Option.ite_none_right_eq_some.mp shown).2).symm

theorem text_displayFactor (label : String) (exponent : Float) :
    (displayFactor label exponent).text =
      if exponent == 1 then label else label ++ "^" ++ Number.text exponent := by
  unfold displayFactor
  split
  next => rw [Display.text]
  next => rw [Display.text, Display.text]

theorem toList_power (label : String) (exponent : Float) :
    (label ++ "^" ++ Number.text exponent).toList =
      label.toList ++ '^' :: (Number.text exponent).toList := by
  rw [String.toList_append, String.toList_append, List.append_assoc]
  rfl

theorem displayFactor_looksNamed {label : String} {exponent : Float}
    (spelled : (TokenKind.name label).Spelled) (finite : exponent.isFinite = true) :
    LooksNamed (displayFactor label exponent).text := by
  have named := spelled.1.looksNamed
  rw [text_displayFactor]
  split
  next => exact named
  next =>
    obtain ⟨first, more, row, start⟩ := named.first
    refine ⟨⟨first, more ++ '^' :: (Number.text exponent).toList, ?_, start⟩, ?_⟩
    · rw [toList_power, row, List.cons_append]
    · rw [toList_power, List.mem_append, List.mem_cons]
      rintro (inLabel | mark | inNumber)
      · exact named.closed inLabel
      · cases mark
      · exact Number.not_mem_text finite rfl (by decide) (by decide) inNumber

theorem eq_one_of_beq {x : Float} (one : (x == 1) = true) : x = 1 := by
  obtain ⟨-, -, same | ⟨-, zero⟩ | ⟨-, zero⟩⟩ := Float.beq_iff_ne_nan_and_eq.mp one
  · exact same
  · exact absurd zero (by decide)
  · exact absurd zero (by decide)

/-- In base units, a factor that is not shown is one. -/
theorem factor_eq_of_shown {unit other : Measure} (inBase : (unit.dims == unit.base) = true)
    (otherInBase : (other.dims == other.base) = true)
    (shown : unit.shownFactor? = other.shownFactor?) : unit.factor = other.factor := by
  have factor {unit : Measure} (inBase : (unit.dims == unit.base) = true) :
      unit.factor = unit.shownFactor?.getD 1 := by
    rw [shownFactor?, inBase, Bool.true_and, bne]
    cases one : unit.factor == 1 with
    | true => exact eq_one_of_beq one
    | false => rfl
  rw [factor inBase, factor otherInBase, shown]

theorem eq_of_text_displayFactor {label other : String} {exponent otherExponent : Float}
    (spelled : (TokenKind.name label).Spelled) (otherSpelled : (TokenKind.name other).Spelled)
    (finite : exponent.isFinite = true) (otherFinite : otherExponent.isFinite = true)
    (same : (displayFactor label exponent).text = (displayFactor other otherExponent).text) :
    label = other ∧ exponent = otherExponent := by
  have absent := spelled.1.not_mem (c := '^') rfl
  have otherAbsent := otherSpelled.1.not_mem (c := '^') rfl
  rw [text_displayFactor, text_displayFactor] at same
  split at same <;> split at same
  next one otherOne => exact ⟨same, (eq_one_of_beq one).trans (eq_one_of_beq otherOne).symm⟩
  next =>
    rw [same, toList_power] at absent
    simp at absent
  next =>
    rw [← same, toList_power] at otherAbsent
    simp at otherAbsent
  next =>
    have rows := congrArg String.toList same
    rw [toList_power, toList_power] at rows
    obtain ⟨labels, numbers⟩ := eq_of_append_cons absent otherAbsent rows
    exact ⟨String.toList_inj.mp labels,
      Number.eq_of_text finite otherFinite (String.toList_inj.mp numbers)⟩

theorem displayFactor_ne_scalar {label : String} {exponent : Float}
    (spelled : (TokenKind.name label).Spelled) : (displayFactor label exponent).text ≠ "scalar" := by
  intro same
  rw [text_displayFactor] at same
  split at same
  next =>
    have reserved : Keyword.ofText? label ≠ none := by
      rw [same]
      decide
    exact reserved spelled.2
  next =>
    have rows := congrArg String.toList same
    rw [toList_power] at rows
    have mark : '^' ∈ "scalar".toList := rows ▸ by simp
    exact absurd mark (by decide)

namespace Legible

variable {unit other : Measure}

theorem shownFactors_looksNamed (legible : unit.Legible) :
    ∀ tree ∈ unit.shownFactors, LooksNamed tree.text := by
  intro tree member
  unfold shownFactors at member
  simp only at member
  split at member
  next =>
    obtain rfl := List.mem_singleton.mp member
    exact (Keyword.isWord .scalar).looksNamed
  next =>
    obtain ⟨entry, inside, rfl⟩ := List.mem_map.mp member
    exact displayFactor_looksNamed (legible.spelled entry inside) (legible.exponents entry inside)

end Legible

theorem shownFactors_ne_nil (unit : Measure) : unit.shownFactors ≠ [] := by
  unfold shownFactors
  simp only
  split
  next => exact List.cons_ne_nil _ _
  next some => simpa using some

theorem text_display (unit : Measure) : unit.display.text =
    " * ".intercalate (unit.shownFactor?.toList.map Number.text ++ Display.texts unit.shownFactors) := by
  have nonempty := unit.shownFactors_ne_nil
  rw [display_eq, shownFactor?]
  cases shown : unit.shownFactors with
  | nil => exact absurd shown nonempty
  | cons first rest =>
      by_cases scaled : (unit.dims == unit.base && unit.factor != 1) = true
      · simp only [if_pos scaled]
        rfl
      · simp only [if_neg scaled]
        cases rest with
        | nil => simp [Display.texts]
        | cons second others => rfl

theorem Legible.looksNamed_of_isAtomic {unit : Measure} (legible : unit.Legible)
    (atomic : unit.display.isAtomic = true) : LooksNamed unit.display.text := by
  have nonempty := unit.shownFactors_ne_nil
  have named := legible.shownFactors_looksNamed
  rw [display_eq] at atomic ⊢
  cases shown : unit.shownFactors with
  | nil => exact absurd shown nonempty
  | cons first rest =>
      rw [shown] at named atomic
      by_cases scaled : (unit.dims == unit.base && unit.factor != 1) = true
      · rw [if_pos scaled] at atomic
        cases atomic
      · rw [if_neg scaled] at atomic ⊢
        cases rest with
        | nil => exact named first List.mem_cons_self
        | cons second others => cases atomic

theorem eq_of_texts {entries others : List (String × Float)}
    (spelled : ∀ entry ∈ entries, (TokenKind.name entry.1).Spelled)
    (otherSpelled : ∀ entry ∈ others, (TokenKind.name entry.1).Spelled)
    (finite : ∀ entry ∈ entries, entry.2.isFinite = true)
    (otherFinite : ∀ entry ∈ others, entry.2.isFinite = true)
    (same : (entries.map fun entry => (displayFactor entry.1 entry.2).text) =
      others.map fun entry => (displayFactor entry.1 entry.2).text) : entries = others := by
  induction entries generalizing others with
  | nil => exact (List.map_eq_nil_iff.mp same.symm).symm
  | cons entry entries ih =>
      cases others with
      | nil => cases same
      | cons other others =>
          rw [List.forall_mem_cons] at spelled otherSpelled finite otherFinite
          obtain ⟨label, exponent⟩ := eq_of_text_displayFactor spelled.1 otherSpelled.1 finite.1
            otherFinite.1 (List.head_eq_of_cons_eq same)
          rw [Prod.ext label exponent, ih spelled.2 otherSpelled.2 finite.2 otherFinite.2
            (List.tail_eq_of_cons_eq same)]

theorem texts_shownFactors (unit : Measure) : Display.texts unit.shownFactors =
    if unit.dims.entries = [] then ["scalar"]
    else unit.dims.entries.map fun entry => (displayFactor entry.1 entry.2).text := by
  rw [Display.texts_eq, shownFactors]
  simp only [List.isEmpty_map, List.isEmpty_iff]
  split
  next => simp [Display.text]
  next => rw [List.map_map]; rfl

namespace Legible

variable {unit left right : Measure}

theorem texts_ne_scalar (legible : unit.Legible) :
    (unit.dims.entries.map fun entry => (displayFactor entry.1 entry.2).text) ≠ ["scalar"] := by
  intro same
  obtain ⟨entry, entries, shown⟩ := List.map_eq_singleton_iff.mp same
  exact displayFactor_ne_scalar (legible.spelled entry (entries ▸ List.mem_cons_self)) shown

theorem dims_of_shownFactors (legible : left.Legible) (otherLegible : right.Legible)
    (same : Display.texts left.shownFactors = Display.texts right.shownFactors) :
    left.dims = right.dims := by
  have entries : left.dims.entries = right.dims.entries := by
    rw [texts_shownFactors, texts_shownFactors] at same
    split at same <;> split at same
    next none otherNone => rw [none, otherNone]
    next => exact absurd same.symm otherLegible.texts_ne_scalar
    next => exact absurd same legible.texts_ne_scalar
    next =>
      exact eq_of_texts legible.spelled otherLegible.spelled legible.exponents
        otherLegible.exponents same
  exact congrArg Dimensions.mk entries

theorem parts_closed (legible : unit.Legible) :
    ∀ text ∈ unit.shownFactor?.toList.map Number.text ++ Display.texts unit.shownFactors,
      ' ' ∉ text.toList := by
  intro text member
  rcases List.mem_append.mp member with front | back
  · obtain ⟨x, shown, rfl⟩ := List.mem_map.mp front
    obtain rfl := eq_factor_of_shown (Option.mem_toList.mp shown)
    exact Number.not_mem_text legible.factor rfl (by decide) (by decide)
  · rw [Display.texts_eq] at back
    obtain ⟨tree, inside, rfl⟩ := List.mem_map.mp back
    exact (legible.shownFactors_looksNamed tree inside).closed

theorem text_ne_factor (legible : unit.Legible) (otherLegible : left.Legible) {x : Float} {rest : List String}
    (shown : left.shownFactor? = some x) :
    Display.texts unit.shownFactors ≠ Number.text x :: rest := by
  intro same
  obtain rfl := eq_factor_of_shown shown
  rw [Display.texts_eq] at same
  obtain ⟨first, others, factors, text, -⟩ := List.map_eq_cons_iff.mp same
  have named := legible.shownFactors_looksNamed first (factors ▸ List.mem_cons_self)
  exact named.ne_text otherLegible.factor text

/-- The text of a unit tells its labels with their exponents, and its factor if that is shown. -/
theorem eq_of_text (legible : left.Legible) (otherLegible : right.Legible)
    (same : left.display.text = right.display.text) :
    left.dims = right.dims ∧ left.shownFactor? = right.shownFactor? := by
  have nonempty {unit : Measure} :
      unit.shownFactor?.toList.map Number.text ++ Display.texts unit.shownFactors ≠ [] := by
    rw [Display.texts_eq]
    simpa using fun _ => unit.shownFactors_ne_nil
  rw [text_display, text_display] at same
  have parts := eq_of_intercalate nonempty nonempty legible.parts_closed otherLegible.parts_closed same
  cases shown : left.shownFactor? with
  | none =>
      cases otherShown : right.shownFactor? with
      | none =>
          rw [shown, otherShown] at parts
          exact ⟨legible.dims_of_shownFactors otherLegible parts, rfl⟩
      | some y =>
          rw [shown, otherShown] at parts
          exact absurd parts (legible.text_ne_factor otherLegible otherShown)
  | some x =>
      cases otherShown : right.shownFactor? with
      | none =>
          rw [shown, otherShown] at parts
          exact absurd parts.symm (otherLegible.text_ne_factor legible shown)
      | some y =>
          rw [shown, otherShown] at parts
          obtain rfl := eq_factor_of_shown shown
          obtain rfl := eq_factor_of_shown otherShown
          rw [Number.eq_of_text legible.factor otherLegible.factor (List.head_eq_of_cons_eq parts)]
          exact ⟨legible.dims_of_shownFactors otherLegible (List.tail_eq_of_cons_eq parts), rfl⟩

theorem text_of_enclose (legible : left.Legible) (otherLegible : right.Legible)
    (same : left.display.enclose.text = right.display.enclose.text) :
    left.display.text = right.display.text := by
  have enclosed {unit : Measure} (several : unit.display.isAtomic = false) :
      unit.display.enclose.text.toList = '(' :: (unit.display.text.toList ++ [')']) := by
    rw [Display.enclose, several, if_neg Bool.false_ne_true, Display.text, String.toList_append,
      String.toList_append]
    rfl
  have bare {unit : Measure} (atomic : unit.display.isAtomic = true) :
      unit.display.enclose = unit.display := by rw [Display.enclose, if_pos atomic]
  have apart {unit : Measure} (legible : unit.Legible) (atomic : unit.display.isAtomic = true)
      {rest : List Char} : unit.display.text.toList ≠ '(' :: rest := by
    intro row
    obtain ⟨first, more, named, start⟩ := (legible.looksNamed_of_isAtomic atomic).first
    obtain rfl := List.head_eq_of_cons_eq (row.symm.trans named)
    cases start
  have rows := congrArg String.toList same
  cases atomic : left.display.isAtomic <;> cases otherAtomic : right.display.isAtomic
  · rw [enclosed atomic, enclosed otherAtomic] at rows
    exact String.toList_inj.mp (List.append_cancel_right (List.tail_eq_of_cons_eq rows))
  · rw [enclosed atomic, bare otherAtomic] at rows
    exact absurd rows.symm (apart otherLegible otherAtomic)
  · rw [bare atomic, enclosed otherAtomic] at rows
    exact absurd rows (apart legible atomic)
  · rwa [bare atomic, bare otherAtomic] at same

end Legible

end Measure

namespace Quantity

variable {a b : Quantity}

theorem shownFactor?_of_plain (plain : (a.isScalar && a.unit.factor == 1) = true) :
    a.unit.shownFactor? = none := by
  have one := (Bool.and_eq_true_iff.mp plain).2
  rw [Measure.shownFactor?, bne, one]
  simp

theorem dims_of_plain (plain : (a.isScalar && a.unit.factor == 1) = true) :
    a.unit.dims = .scalar :=
  congrArg Dimensions.mk (List.isEmpty_iff.mp (Bool.and_eq_true_iff.mp plain).1)

/-- The text of a quantity tells its magnitude, its labels with their exponents, and the factor of its
unit if that is shown. -/
theorem eq_of_text (finite : a.magnitude.isFinite = true) (otherFinite : b.magnitude.isFinite = true)
    (legible : a.unit.Legible) (otherLegible : b.unit.Legible)
    (same : a.display.text = b.display.text) :
    a.magnitude = b.magnitude ∧ a.unit.dims = b.unit.dims ∧
      a.unit.shownFactor? = b.unit.shownFactor? := by
  have shown (q : Quantity) : q.display.text.toList =
      if q.isScalar && q.unit.factor == 1 then (Number.text q.magnitude).toList
      else (Number.text q.magnitude).toList ++ ' ' :: q.unit.display.enclose.text.toList := by
    rw [display]
    split
    next => rw [Display.text]
    next =>
      rw [Display.text, Display.text, String.toList_append, String.toList_append, List.append_assoc]
      rfl
  have closed := Number.not_mem_text finite (c := ' ') rfl (by decide) (by decide)
  have otherClosed := Number.not_mem_text otherFinite (c := ' ') rfl (by decide) (by decide)
  have rows := congrArg String.toList same
  rw [shown, shown] at rows
  split at rows <;> split at rows
  next plain otherPlain =>
    refine ⟨Number.eq_of_text finite otherFinite (String.toList_inj.mp rows), ?_, ?_⟩
    · rw [dims_of_plain plain, dims_of_plain otherPlain]
    · rw [shownFactor?_of_plain plain, shownFactor?_of_plain otherPlain]
  next =>
    rw [rows] at closed
    simp at closed
  next =>
    rw [← rows] at otherClosed
    simp at otherClosed
  next =>
    obtain ⟨magnitude, unit⟩ := eq_of_append_cons closed otherClosed rows
    exact ⟨Number.eq_of_text finite otherFinite (String.toList_inj.mp magnitude),
      legible.eq_of_text otherLegible
        (legible.text_of_enclose otherLegible (String.toList_inj.mp unit))⟩

end Quantity

end Quantities
