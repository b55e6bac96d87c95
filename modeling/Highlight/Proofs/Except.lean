/-! # Results of computations

What is known of a computation that succeeds, and when the results of two computations are related: both
fail with one fault, or what both give is related (`Highlight.Agree`).
-/

namespace Highlight

variable {ε α β γ δ : Type}

section Succeeds

variable {result : Except ε α} {value : β}

/-- Only a result is mapped to a result. -/
theorem exists_ok_of_map {further : α → β} (ends : result.map further = .ok value) :
    ∃ found, result = .ok found ∧ further found = value := by
  cases result with
  | error fault => cases ends
  | ok found =>
      cases ends
      exact ⟨found, rfl, rfl⟩

theorem exists_ok_of_bind {further : α → Except ε β} (ends : result >>= further = .ok value) :
    ∃ found, result = .ok found ∧ further found = .ok value := by
  cases result with
  | error fault => cases ends
  | ok found => exact ⟨found, rfl, ends⟩

end Succeeds

/-- Whether two computations fail with the same fault, or give values that are related. -/
inductive Agree (related : α → β → Prop) : Except ε α → Except ε β → Prop where
  | error (fault : ε) : Agree related (.error fault) (.error fault)
  | ok {value : α} {other : β} (same : related value other) : Agree related (.ok value) (.ok other)

namespace Agree

variable {related : α → β → Prop} {relatedLater : γ → δ → Prop} {result : Except ε α}
  {other : Except ε β}

theorem map (agree : Agree related result other) {further : α → γ} {beyond : β → δ}
    (later : ∀ value partner, related value partner → relatedLater (further value) (beyond partner)) :
    Agree relatedLater (result.map further) (other.map beyond) := by
  cases agree with
  | error fault => exact .error fault
  | ok same => exact .ok (later _ _ same)

/-- Going on from related results leaves related results, if what follows does. -/
theorem bind (agree : Agree related result other) {further : α → Except ε γ} {beyond : β → Except ε δ}
    (later : ∀ value partner, related value partner →
      Agree relatedLater (further value) (beyond partner)) :
    Agree relatedLater (result >>= further) (other >>= beyond) := by
  cases agree with
  | error fault => exact .error fault
  | ok same => exact later _ _ same

theorem eq_error {fault : ε} (agree : Agree related (.error fault) other) : other = .error fault := by
  cases agree
  rfl

theorem exists_ok {value : α} (agree : Agree related (.ok value) other) :
    ∃ partner, other = .ok partner ∧ related value partner := by
  cases agree with
  | ok same => exact ⟨_, rfl, same⟩

/-- Computations that agree up to equality are the same. -/
theorem eq {first second : Except ε α} (agree : Agree Eq first second) : first = second := by
  cases agree with
  | error fault => rfl
  | ok same => rw [same]

end Agree

/-! ## Related options -/

section Options

variable {related : α → β → Prop} {relatedLater : γ → δ → Prop} {first : Option α}
  {second : Option β}

theorem rel_cases (same : Option.Rel related first second) :
    (first = none ∧ second = none) ∨
      ∃ value partner, first = some value ∧ second = some partner ∧ related value partner := by
  cases same with
  | none => exact .inl ⟨rfl, rfl⟩
  | some same => exact .inr ⟨_, _, rfl, rfl, same⟩

theorem rel_map (same : Option.Rel related first second) {further : α → γ} {beyond : β → δ}
    (later : ∀ value partner, related value partner → relatedLater (further value) (beyond partner)) :
    Option.Rel relatedLater (first.map further) (second.map beyond) := by
  cases same with
  | none => exact .none
  | some same => exact .some (later _ _ same)

/-- Going on from related values does, if what follows does. -/
theorem rel_bind (same : Option.Rel related first second) {further : α → Option γ}
    {beyond : β → Option δ}
    (later : ∀ value partner, related value partner →
      Option.Rel relatedLater (further value) (beyond partner)) :
    Option.Rel relatedLater (first.bind further) (second.bind beyond) := by
  cases same with
  | none => exact .none
  | some same => exact later _ _ same

end Options

end Highlight
