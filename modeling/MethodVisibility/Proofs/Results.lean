/-
  Results of readings.

  A reading gives a value or an error. What a reading that is changed, or two that are put one
  after the other, come to: both directions, for a value and for an error.
-/

namespace Except

variable {ε α β γ : Type}

theorem map_eq_ok_iff {x : Except ε α} {f : α → β} {z : β} :
    x.map f = .ok z ↔ ∃ a, x = .ok a ∧ f a = z := by
  cases x <;> simp [Except.map]

theorem map_eq_error_iff {x : Except ε α} {f : α → β} {e : ε} :
    x.map f = .error e ↔ x = .error e := by
  cases x <;> simp [Except.map]

/-- Two readings one after the other succeed if both do. -/
theorem bind_map_eq_ok_iff {x : Except ε α} {y : Except ε β} {f : α → β → γ} {z : γ} :
    (x.bind fun a => y.map (f a)) = .ok z ↔ ∃ a b, x = .ok a ∧ y = .ok b ∧ f a b = z := by
  cases x <;> cases y <;> simp [Except.bind, Except.map]

/-- Two readings one after the other fail with the error of the first that fails. -/
theorem bind_map_eq_error_iff {x : Except ε α} {y : Except ε β} {f : α → β → γ} {e : ε} :
    (x.bind fun a => y.map (f a)) = .error e ↔ x = .error e ∨ ∃ a, x = .ok a ∧ y = .error e := by
  cases x <;> cases y <;> simp [Except.bind, Except.map]

end Except
