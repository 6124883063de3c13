import Mathlib.Data.List.Basic

/-!
# Texts in parts

Parts with a separator between them, and the last place of a separator in a text.
-/

namespace Vitals.Text

variable {α : Type}

/-- A separator between parts is a separator in front of every part but the first. -/
theorem intercalate_cons (separator first : List α) (parts : List (List α)) :
    separator.intercalate (first :: parts) =
      first ++ parts.flatMap fun part => separator ++ part := by
  induction parts generalizing first with
  | nil => simp
  | cons part parts ih => simp [ih]

/-- A text is split in one way at a separator that does not occur behind the place. -/
theorem split_unique {separator : α} {front other back rest : List α}
    (same : front ++ separator :: back = other ++ separator :: rest) (last : separator ∉ back)
    (otherLast : separator ∉ rest) : front = other ∧ back = rest := by
  -- Were one front longer, its separator would occur behind the other one.
  have start {front other back rest : List α} (last : separator ∉ back) {between : List α}
      (longer : other = front ++ between)
      (tail : separator :: back = between ++ separator :: rest) : front = other ∧ back = rest := by
    cases between with
    | nil => exact ⟨by rw [longer, List.append_nil], (List.cons.inj tail).2⟩
    | cons c more =>
        rw [(List.cons.inj tail).2] at last
        exact absurd (List.mem_append_right more List.mem_cons_self) last
  rcases List.append_eq_append_iff.mp same with ⟨between, longer, tail⟩ | ⟨between, longer, tail⟩
  · exact start last longer tail
  · rcases start otherLast longer tail with ⟨rfl, rfl⟩
    exact ⟨rfl, rfl⟩

end Vitals.Text
