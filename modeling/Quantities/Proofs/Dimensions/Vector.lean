import Quantities.Proofs.Dimensions.ZeroFree
import Quantities.Proofs.Number.Whole

/-!
Dimensions with whole exponents as vectors. A dimension vector with small exponents counts how often
each label occurs, its operations are those of vectors, and it is determined by what it counts.
-/

namespace Quantities

namespace Dimensions

/-- The labels are in order, each of them once. -/
def Ordered (entries : List (String × Float)) : Prop := entries.Pairwise fun a b => a.1 < b.1

theorem Ordered.insert {entries : List (String × Float)} (ordered : Ordered entries)
    (label : String) (exponent : Float) : Ordered (Dimensions.insert label exponent entries) := by
  induction entries with
  | nil => exact List.pairwise_singleton _ _
  | cons first rest ih =>
      obtain ⟨other, old⟩ := first
      obtain ⟨least, restOrdered⟩ := List.pairwise_cons.mp ordered
      rw [Dimensions.insert]
      split
      next same =>
        subst same
        exact List.pairwise_cons.mpr ⟨least, restOrdered⟩
      next differ =>
        split
        next before =>
          refine List.pairwise_cons.mpr ⟨?_, ordered⟩
          intro entry member
          rcases List.mem_cons.mp member with rfl | later
          · exact before
          · exact before.trans (least entry later)
        next after =>
          refine List.pairwise_cons.mpr ⟨?_, ih restOrdered⟩
          intro entry member
          rcases mem_insert member with rfl | later
          · exact lt_of_le_of_ne (not_lt.mp after) (Ne.symm differ)
          · exact least entry later

theorem Ordered.set {dims : Dimensions} (ordered : Ordered dims.entries) (label : String)
    (exponent : Float) : Ordered (dims.set label exponent).entries := by
  unfold Dimensions.set
  split
  next => exact List.Pairwise.filter _ ordered
  next => exact ordered.insert label exponent

theorem Ordered.foldl_add {dims : Dimensions} (ordered : Ordered dims.entries)
    (entries : List (String × Float)) (exponent : String × Float → Float) :
    Ordered (entries.foldl (fun sum entry => sum.add entry.1 (exponent entry)) dims).entries := by
  induction entries generalizing dims with
  | nil => exact ordered
  | cons first rest ih => exact ih (ordered.set first.1 _)

theorem Ordered.distinct {entries : List (String × Float)} (ordered : Ordered entries) :
    (entries.map (·.1)).Nodup := List.pairwise_map.mpr (ordered.imp fun less => less.ne)

theorem lookup_of_mem {α : Type} {entries : List (String × α)}
    (distinct : (entries.map (·.1)).Nodup) {label : String} {exponent : α}
    (member : (label, exponent) ∈ entries) : entries.lookup label = some exponent := by
  obtain ⟨before, after, rfl⟩ := List.append_of_mem member
  refine List.lookup_eq_some_iff.mpr ⟨before, after, rfl, ?_⟩
  intro entry earlier
  rw [List.map_append, List.nodup_append] at distinct
  have differ := distinct.2.2 entry.1 (List.mem_map_of_mem earlier) label (by simp)
  simpa using differ.symm

theorem mem_of_lookup {entries : List (String × Float)} {label : String} {exponent : Float}
    (found : entries.lookup label = some exponent) : (label, exponent) ∈ entries := by
  obtain ⟨before, after, rfl, -⟩ := List.lookup_eq_some_iff.mp found
  simp

theorem lookup_cons (label other : String) (exponent : Float) (entries : List (String × Float)) :
    ((label, exponent) :: entries).lookup other =
      if other = label then some exponent else entries.lookup other := by
  rw [List.lookup_cons]
  by_cases same : other = label
  · simp [same]
  · simp [same, beq_false_of_ne same]

theorem lookup_of_least {label : String} {entries : List (String × Float)}
    (least : ∀ entry ∈ entries, label < entry.1) : entries.lookup label = none := by
  rw [List.lookup_eq_none_iff]
  intro entry member
  simpa using (least entry member).ne

theorem lookup_insert (label other : String) (exponent : Float) (entries : List (String × Float)) :
    (Dimensions.insert label exponent entries).lookup other =
      if other = label then some exponent else entries.lookup other := by
  induction entries with
  | nil => exact lookup_cons label other exponent []
  | cons first rest ih =>
      obtain ⟨next, old⟩ := first
      rw [Dimensions.insert]
      split
      next here =>
        subst here
        by_cases same : other = label <;> simp [lookup_cons, same]
      next elsewhere =>
        split
        next => rw [lookup_cons]
        next =>
          rw [lookup_cons, lookup_cons, ih]
          by_cases same : other = label
          · simp [same, elsewhere]
          · simp [same]

theorem lookup_erase (label other : String) (entries : List (String × Float)) :
    (erase label entries).lookup other =
      if other = label then none else entries.lookup other := by
  induction entries with
  | nil => simp [erase]
  | cons first rest ih =>
      obtain ⟨next, old⟩ := first
      rw [erase] at ih ⊢
      by_cases here : next = label
      · subst here
        by_cases same : other = next
        · simpa [same] using ih
        · simpa [same, lookup_cons] using ih
      · by_cases same : other = label
        · simpa [same, here, lookup_cons, Ne.symm here] using ih
        · simp [here, lookup_cons, ih, same]

theorem ZeroFree.lookup_eq {dims : Dimensions} (zeroFree : dims.ZeroFree) (label : String) :
    dims.entries.lookup label = if dims.get label == 0 then none else some (dims.get label) := by
  cases found : dims.entries.lookup label with
  | none =>
      have zero : dims.get label = 0 := by simp [get, found]
      rw [zero, if_pos (by decide)]
  | some exponent =>
      have same : dims.get label = exponent := by simp [get, found]
      have nonzero : (exponent == 0) = false := zeroFree (label, exponent) (mem_of_lookup found)
      rw [same, if_neg (Bool.eq_false_iff.mp nonzero)]

theorem eq_of_lookup {left right : Dimensions} (leftOrdered : Ordered left.entries)
    (rightOrdered : Ordered right.entries)
    (same : ∀ label, left.entries.lookup label = right.entries.lookup label) : left = right := by
  have members (entry : String × Float) : entry ∈ left.entries ↔ entry ∈ right.entries := by
    constructor <;> intro member
    · have found := lookup_of_mem leftOrdered.distinct member
      rw [same] at found
      exact mem_of_lookup found
    · have found := lookup_of_mem rightOrdered.distinct member
      rw [← same] at found
      exact mem_of_lookup found
  have perm := (List.perm_ext_iff_of_nodup leftOrdered.distinct.of_map
    rightOrdered.distinct.of_map).mpr members
  have entries := perm.eq_of_pairwise (fun a b _ _ before after => absurd before after.not_gt)
    leftOrdered rightOrdered
  cases left
  cases right
  exact congrArg Dimensions.mk entries

theorem beq_self_iff {dims : Dimensions} :
    (dims == dims) = true ↔ ∀ entry ∈ dims.entries, (entry.2 == entry.2) = true := by
  obtain ⟨entries⟩ := dims
  change (entries == entries) = true ↔ ∀ entry ∈ entries, (entry.2 == entry.2) = true
  induction entries with
  | nil => simp
  | cons first rest ih =>
      have labels : (first == first) = (first.2 == first.2) := by
        change (first.1 == first.1 && first.2 == first.2) = _
        rw [beq_self_eq_true, Bool.true_and]
      rw [List.cons_beq_cons, Bool.and_eq_true, labels, ih, List.forall_mem_cons]

/-- What is kept of an exponent: nothing, if it compares equal to zero. -/
def kept (exponent : Float) : Float := if exponent == 0 then 0 else exponent

theorem get_set (dims : Dimensions) (label other : String) (exponent : Float) :
    (dims.set label exponent).get other =
      if other = label then kept exponent else dims.get other := by
  unfold Dimensions.set kept get
  split
  next =>
    rw [lookup_erase]
    split <;> rfl
  next =>
    rw [lookup_insert]
    split <;> rfl

/-- Adding up entries with different labels changes each exponent once. -/
theorem get_foldl_add {entries : List (String × Float)} (ordered : Ordered entries)
    (dims : Dimensions) (change : Float → Float) (label : String) :
    (entries.foldl (fun sum entry => sum.add entry.1 (change entry.2)) dims).get label =
      match entries.lookup label with
      | some exponent => kept (dims.get label + change exponent)
      | none => dims.get label := by
  induction entries generalizing dims with
  | nil => rfl
  | cons first rest ih =>
      obtain ⟨next, exponent⟩ := first
      obtain ⟨least, restOrdered⟩ := List.pairwise_cons.mp ordered
      rw [List.foldl_cons, ih restOrdered, add, get_set, lookup_cons]
      by_cases same : label = next
      · subst same
        simp [lookup_of_least least]
      · simp [same]

/-- All exponents are small whole numbers. -/
def Small (dims : Dimensions) : Prop := ∀ entry ∈ dims.entries, ∃ count, Number.Whole entry.2 count

theorem Small.get {dims : Dimensions} (small : dims.Small) (label : String) :
    ∃ count, Number.Whole (dims.get label) count := by
  unfold Dimensions.get
  cases found : dims.entries.lookup label with
  | none => exact ⟨0, Number.whole_zero⟩
  | some exponent => exact small _ (mem_of_lookup found)

/-- The exponents are those of the vector. -/
structure Counts (dims : Dimensions) (vector : String →₀ ℤ) : Prop where
  ordered : Ordered dims.entries
  zeroFree : dims.ZeroFree
  whole : ∀ label, Number.Whole (dims.get label) (vector label)

namespace Counts

variable {dims left right : Dimensions} {vector u v : String →₀ ℤ}

theorem vector_eq (first : dims.Counts u) (second : dims.Counts v) : u = v := by
  ext label
  exact (first.whole label).eq (second.whole label)

theorem lookup_eq (counts : dims.Counts vector) (label : String) :
    dims.entries.lookup label = if vector label = 0 then none else some (dims.get label) := by
  have whole := counts.whole label
  rw [counts.zeroFree.lookup_eq]
  by_cases zero : vector label = 0
  · rw [zero] at whole
    rw [if_pos zero, if_pos (Number.whole_zero_iff.mp whole)]
  · rw [if_neg zero, if_neg fun none => zero (whole.eq (Number.whole_zero_iff.mpr none))]

theorem unique (leftCounts : left.Counts vector) (rightCounts : right.Counts vector) :
    left = right := by
  refine eq_of_lookup leftCounts.ordered rightCounts.ordered fun label => ?_
  rw [leftCounts.lookup_eq, rightCounts.lookup_eq]
  split
  next => rfl
  next nonzero => rw [(leftCounts.whole label).unique (rightCounts.whole label) nonzero]

theorem beq_self (counts : dims.Counts vector) : (dims == dims) = true := by
  refine beq_self_iff.mpr fun entry member => ?_
  have found := lookup_of_mem counts.ordered.distinct member
  have whole := counts.whole entry.1
  rw [get, found] at whole
  exact (Number.beq_iff_rational whole.rational whole.rational).mpr rfl

theorem scalar : Dimensions.scalar.Counts 0 :=
  ⟨.nil, scalar_zeroFree, fun _ => Number.whole_zero⟩

theorem single (label : String) : (Dimensions.single label).Counts (Finsupp.single label 1) := by
  refine ⟨Ordered.set .nil label 1, single_zeroFree label, ?_⟩
  intro other
  rw [Dimensions.single, get_set, Finsupp.single_apply]
  by_cases same : other = label
  · rw [if_pos same, if_pos same.symm]
    exact Number.whole_one
  · rw [if_neg same, if_neg (Ne.symm same)]
    exact Number.whole_zero

/-- A small exponent that is kept is the one that comes out exactly. -/
theorem whole_kept {exponent : Float} {count : ℤ}
    (exact : ∀ {c}, Number.Whole exponent c → c = count)
    (small : ∃ c, Number.Whole (kept exponent) c) : Number.Whole (kept exponent) count := by
  obtain ⟨c, whole⟩ := small
  unfold kept at whole ⊢
  split at whole
  next zero =>
    rw [if_pos zero, ← exact (Number.whole_zero_iff.mpr zero)]
    exact Number.whole_zero
  next nonzero =>
    rw [if_neg nonzero]
    exact exact whole ▸ whole

theorem combine {sign : Float} {s : ℤ} (signWhole : Number.Whole sign s) (bound : |s| ≤ 1)
    (leftCounts : left.Counts u) (rightCounts : right.Counts v)
    (small : (Dimensions.combine sign left right).Small) :
    (Dimensions.combine sign left right).Counts (u + s • v) := by
  refine ⟨leftCounts.ordered.foldl_add _ _, leftCounts.zeroFree.foldl_add _ _, ?_⟩
  intro label
  have result := small.get label
  rw [Dimensions.combine, get_foldl_add rightCounts.ordered] at result ⊢
  have other := rightCounts.lookup_eq label
  have sum : (u + s • v) label = u label + s * v label := by simp
  rw [sum]
  by_cases zero : v label = 0
  · rw [if_pos zero] at other
    simp only [other, zero, mul_zero, add_zero]
    exact leftCounts.whole label
  · rw [if_neg zero] at other
    simp only [other] at result ⊢
    have scaled : |s * v label| < 2 ^ 53 := by
      rw [abs_mul]
      have := (rightCounts.whole label).small
      nlinarith [abs_nonneg (v label)]
    exact whole_kept ((leftCounts.whole label).add
      (signWhole.mul_small (rightCounts.whole label) scaled)) result

theorem times (leftCounts : left.Counts u) (rightCounts : right.Counts v)
    (small : (left.times right).Small) : (left.times right).Counts (u + v) := by
  have counts := combine Number.whole_one (by norm_num) leftCounts rightCounts small
  rwa [one_smul] at counts

theorem divide (leftCounts : left.Counts u) (rightCounts : right.Counts v)
    (small : (left.divide right).Small) : (left.divide right).Counts (u - v) := by
  have counts := combine Number.whole_neg_one (by norm_num) leftCounts rightCounts small
  rwa [neg_one_zsmul, ← sub_eq_add_neg] at counts

theorem power {n : Float} {k : ℤ} (counts : dims.Counts vector) (exponent : Number.Whole n k)
    (small : (dims.power n).Small) : (dims.power n).Counts (k • vector) := by
  refine ⟨Ordered.foldl_add .nil _ _, power_zeroFree _ _, ?_⟩
  intro label
  have result := small.get label
  rw [Dimensions.power, ofList, List.foldl_map,
    get_foldl_add counts.ordered Dimensions.scalar (· * n)] at result ⊢
  have found := counts.lookup_eq label
  have scaled : (k • vector) label = vector label * k := by simp [mul_comm]
  rw [scaled]
  by_cases zero : vector label = 0
  · rw [if_pos zero] at found
    simp only [found, zero, zero_mul]
    exact scalar.whole label
  · rw [if_neg zero] at found
    simp only [found] at result ⊢
    exact whole_kept (fun whole => (counts.whole label).mul exponent whole.of_zero_add) result

end Counts

end Dimensions

end Quantities
