/-!
# Attempts

What is known of an attempt that may fail when it is known how something made of it has ended: a
sequence of two attempts, or one whose value or error was changed.
-/

namespace Vitals.Attempt

variable {ε α β : Type} {attempt : Except ε α} {error : ε}

theorem bind_eq_ok_iff {next : α → Except ε β} {value : β} :
    (attempt >>= next) = .ok value ↔ ∃ first, attempt = .ok first ∧ next first = .ok value := by
  cases attempt <;> simp [bind, Except.bind]

theorem bind_eq_error {next : α → Except ε β} (failed : (attempt >>= next) = .error error) :
    attempt = .error error ∨ ∃ first, next first = .error error := by
  cases attempt with
  | error own => exact Or.inl (congrArg Except.error (Except.error.inj failed))
  | ok first => exact Or.inr ⟨first, failed⟩

theorem map_eq_error_iff {next : α → β} :
    attempt.map next = .error error ↔ attempt = .error error := by
  cases attempt <;> simp [Except.map]

theorem mapError_eq_ok_iff {wrap : ε → β} {value : α} :
    attempt.mapError wrap = .ok value ↔ attempt = .ok value := by
  cases attempt with
  | error own => exact iff_of_false nofun nofun
  | ok own =>
      constructor
      · intro kept
        exact congrArg Except.ok (Except.ok.inj kept)
      · intro kept
        exact congrArg Except.ok (Except.ok.inj kept)

theorem toOption_eq_some_iff {value : α} :
    attempt.toOption = some value ↔ attempt = .ok value := by
  cases attempt <;> simp [Except.toOption]

end Vitals.Attempt
