/-! One thing done after another: when both succeed, and which of the two fails. -/

namespace Quantities.Result

variable {ε α β : Type} {first : Except ε α} {next : α → Except ε β}

theorem bind_eq_ok {result : β} :
    (first >>= next) = .ok result ↔ ∃ value, first = .ok value ∧ next value = .ok result := by
  cases first with
  | error failure => simp [bind, Except.bind]
  | ok value => simp [bind, Except.bind]

theorem bind_eq_error {failure : ε} :
    (first >>= next) = .error failure ↔
      first = .error failure ∨ ∃ value, first = .ok value ∧ next value = .error failure := by
  cases first with
  | error other => simp [bind, Except.bind]
  | ok value => simp [bind, Except.bind]

theorem bind_error_first {failure : ε} (failed : first = .error failure) :
    (first >>= next) = .error failure := bind_eq_error.mpr (.inl failed)

theorem bind_error_next {failure : ε} {value : α} (succeeded : first = .ok value)
    (failed : next value = .error failure) : (first >>= next) = .error failure :=
  bind_eq_error.mpr (.inr ⟨value, succeeded, failed⟩)

/-- One of three things, and whether it fails before the last. -/
theorem bind_bind_eq_error {γ : Type} {δ : α → Type} {second : (value : α) → Except ε (δ value)}
    {third : (value : α) → δ value → Except ε γ} {failure : ε} :
    (first >>= fun value => second value >>= third value) = .error failure ↔
      (first = .error failure ∨ ∃ value, first = .ok value ∧ second value = .error failure) ∨
        ∃ value other, first = .ok value ∧ second value = .ok other ∧
          third value other = .error failure := by
  rw [bind_eq_error]
  simp only [bind_eq_error, and_or_left, exists_or, exists_and_left, or_assoc]

theorem map_eq_ok {change : α → β} {result : β} :
    first.map change = .ok result ↔ ∃ value, first = .ok value ∧ change value = result := by
  cases first with
  | error failure => simp [Except.map]
  | ok value => simp [Except.map]

theorem toOption_map_eq {result other : Except ε α} {f : α → β}
    (forward : ∀ v, result = .ok v → ∃ w, other = .ok w ∧ f w = f v)
    (backward : ∀ w, other = .ok w → ∃ v, result = .ok v ∧ f v = f w) :
    result.toOption.map f = other.toOption.map f := by
  cases result with
  | ok v =>
      obtain ⟨w, rfl, alike⟩ := forward v rfl
      exact congrArg some alike.symm
  | error failure =>
      cases other with
      | ok w =>
          obtain ⟨v, succeeded, -⟩ := backward w rfl
          cases succeeded
      | error => rfl

end Quantities.Result
