import Quantities.Proofs.Dimensions.Vector

/-!
Canonical dimension vectors. Whatever the operations build has its labels in order and stores no zero,
even where exponents are infinite or no numbers at all, and so rows of entries compare equal just when
all exponents do.
-/

namespace Quantities.Dimensions

/-- What the operations on dimensions build. -/
inductive Built : Dimensions → Prop where
  | scalar : Built scalar
  | single (label : String) : Built (single label)
  | set {dims : Dimensions} (built : Built dims) (label : String) (exponent : Float) :
      Built (dims.set label exponent)
  | power {dims : Dimensions} (built : Built dims) (n : Float) : Built (dims.power n)
  | times {left right : Dimensions} (leftBuilt : Built left) (rightBuilt : Built right) :
      Built (left.times right)
  | divide {left right : Dimensions} (leftBuilt : Built left) (rightBuilt : Built right) :
      Built (left.divide right)
  | ofList (entries : List (String × Float)) : Built (ofList entries)

/-- Each label is stored once, in the order of the labels, and none with the exponent zero. -/
structure Canonical (dims : Dimensions) : Prop where
  ordered : Ordered dims.entries
  zeroFree : dims.ZeroFree

instance (entries : List (String × Float)) : Decidable (Ordered entries) :=
  inferInstanceAs (Decidable (entries.Pairwise fun a b => a.1 < b.1))

instance (dims : Dimensions) : Decidable dims.ZeroFree :=
  inferInstanceAs (Decidable (∀ entry ∈ dims.entries, (entry.2 == 0) = false))

instance (dims : Dimensions) : Decidable dims.Canonical :=
  decidable_of_iff (Ordered dims.entries ∧ dims.ZeroFree)
    ⟨fun ⟨ordered, zeroFree⟩ => ⟨ordered, zeroFree⟩, fun ⟨ordered, zeroFree⟩ => ⟨ordered, zeroFree⟩⟩

namespace Canonical

variable {dims left right : Dimensions}

theorem scalar : Dimensions.scalar.Canonical := ⟨.nil, scalar_zeroFree⟩

theorem set (canonical : dims.Canonical) (label : String) (exponent : Float) :
    (dims.set label exponent).Canonical :=
  ⟨canonical.ordered.set label exponent, canonical.zeroFree.set label exponent⟩

theorem foldl_add (canonical : dims.Canonical) (entries : List (String × Float))
    (exponent : String × Float → Float) :
    (entries.foldl (fun sum entry => sum.add entry.1 (exponent entry)) dims).Canonical :=
  ⟨canonical.ordered.foldl_add entries exponent, canonical.zeroFree.foldl_add entries exponent⟩

theorem ofList (entries : List (String × Float)) : (Dimensions.ofList entries).Canonical :=
  scalar.foldl_add entries (·.2)

/-- Other vectors are told apart from a canonical one by what they give for the labels. -/
theorem eq_of_get (leftCanonical : left.Canonical) (rightCanonical : right.Canonical)
    (same : ∀ label, (left.get label == right.get label) = true) : left = right := by
  refine eq_of_lookup leftCanonical.ordered rightCanonical.ordered fun label => ?_
  rw [leftCanonical.zeroFree.lookup_eq, rightCanonical.zeroFree.lookup_eq]
  cases leftZero : left.get label == 0 with
  | true =>
      have rightZero : (right.get label == 0) = true := BEq.trans (BEq.symm (same label)) leftZero
      rw [rightZero]
      rfl
  | false =>
      rw [← exponent_eq_of_beq (same label) leftZero, leftZero]

/-- A vector differs from itself if one of its exponents is not a number. -/
theorem beq_self_iff (canonical : dims.Canonical) :
    (dims == dims) = true ↔ ∀ label, (dims.get label == dims.get label) = true := by
  rw [Dimensions.beq_self_iff]
  constructor
  · intro same label
    cases found : dims.entries.lookup label with
    | none =>
        have absent : dims.get label = 0 := by rw [get, found, Option.getD_none]
        rw [absent]
        decide
    | some exponent =>
        have stored := same (label, exponent) (mem_of_lookup found)
        simpa [get, found] using stored
  · intro same entry member
    have stored := same entry.1
    rwa [get, lookup_of_mem canonical.ordered.distinct member] at stored

theorem beq_iff (leftCanonical : left.Canonical) (rightCanonical : right.Canonical) :
    (left == right) = true ↔ ∀ label, (left.get label == right.get label) = true := by
  constructor
  · intro same
    obtain rfl := leftCanonical.zeroFree.eq_of_beq same
    exact leftCanonical.beq_self_iff.mp same
  · intro same
    obtain rfl := leftCanonical.eq_of_get rightCanonical same
    exact leftCanonical.beq_self_iff.mpr same

theorem isScalar_iff (canonical : dims.Canonical) :
    dims.isScalar = true ↔ ∀ label, (dims.get label == 0) = true := by
  constructor
  · intro empty label
    have absent : dims.get label = 0 := by
      rw [get, List.isEmpty_iff.mp empty, List.lookup_nil, Option.getD_none]
    rw [absent]
    decide
  · intro zero
    rw [isScalar, List.isEmpty_iff, List.eq_nil_iff_forall_not_mem]
    intro entry member
    have absent := canonical.zeroFree.lookup_eq entry.1
    rw [lookup_of_mem canonical.ordered.distinct member, if_pos (zero entry.1)] at absent
    cases absent

end Canonical

theorem Built.canonical {dims : Dimensions} (built : dims.Built) : dims.Canonical := by
  induction built with
  | scalar => exact .scalar
  | single label => exact Canonical.scalar.set label 1
  | set built label exponent ih => exact ih.set label exponent
  | power built n ih => exact .ofList _
  | times leftBuilt rightBuilt leftCanonical rightCanonical =>
      exact leftCanonical.foldl_add _ (1 * ·.2)
  | divide leftBuilt rightBuilt leftCanonical rightCanonical =>
      exact leftCanonical.foldl_add _ (-1 * ·.2)
  | ofList entries => exact .ofList entries

/-- However a vector is built, it is canonical. It compares equal to another one just when they give
equal exponents for every label, and it is that of a plain number just when they are all zero. -/
theorem Built.determined_by_get {left right : Dimensions} (leftBuilt : left.Built)
    (rightBuilt : right.Built) :
    left.Canonical ∧
      ((left == right) = true ↔ ∀ label, (left.get label == right.get label) = true) ∧
      (left.isScalar = true ↔ ∀ label, (left.get label == 0) = true) :=
  ⟨leftBuilt.canonical, leftBuilt.canonical.beq_iff rightBuilt.canonical,
    leftBuilt.canonical.isScalar_iff⟩

/-- An infinite exponent does not cancel out. What is left of it is not a number, and the vector that
stores it is not even equal to itself. -/
theorem unlimited_determined_by_get :
    let unlimited := (single "m").set "s" (1 / 0)
    let quotient := unlimited.divide unlimited
    unlimited.Built ∧ quotient.Canonical ∧ quotient.entries.map (·.1) = ["s"] ∧
      (quotient.get "s").isNaN = true ∧ quotient.isScalar = false ∧
      (quotient == quotient) = false ∧
      ((quotient == unlimited) = true ↔
        ∀ label, (quotient.get label == unlimited.get label) = true) := by
  intro unlimited quotient
  have built : unlimited.Built := .set (.single "m") "s" (1 / 0)
  obtain ⟨canonical, compared, scalar⟩ := Built.determined_by_get (built.divide built) built
  exact ⟨built, canonical, by decide +kernel, by decide +kernel, by decide +kernel,
    by decide +kernel, compared⟩

end Quantities.Dimensions
