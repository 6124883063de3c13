import Mathlib.Algebra.Group.Nat.Defs
import Mathlib.Data.List.Induction
import Vitals.Text.Blank
import Vitals.Text.Reader

/-!
# Digits, and readers of them

A number with zeros in front is written in digits only, it is as wide as asked for unless the number
needs more, and its digits write the number. A reader that looks for digits takes as many as there
are and leaves the rest alone.
-/

namespace Vitals.Text

/-! ## Digits -/

theorem isBlank_of_isDigit {c : Char} (digit : isDigit c = true) : isBlank c = false := by
  simp only [isDigit, Bool.and_eq_true, decide_eq_true_eq, Char.le_def,
    UInt32.le_iff_toNat_le] at digit
  change 48 ≤ c.toNat ∧ c.toNat ≤ 57 at digit
  simp only [isBlank, Bool.or_eq_false_iff, Bool.and_eq_false_iff, decide_eq_false_iff_not,
    beq_eq_false_iff_ne]
  omega

theorem ofDigits_eq (digits : List Char) : ofDigits digits = Nat.ofDigitChars 10 digits 0 := by
  simp [ofDigits, Nat.ofDigitChars_eq_foldl, Nat.mul_comm]

theorem toList_zeroPadded (width number : Nat) :
    (zeroPadded width number).toList =
      List.replicate (width - (Nat.toDigits 10 number).length) '0' ++ Nat.toDigits 10 number := by
  simp [zeroPadded, Nat.repr_eq_ofList_toDigits]

theorem ofDigits_zeroPadded (width number : Nat) :
    ofDigits (zeroPadded width number).toList = number := by
  rw [ofDigits_eq, toList_zeroPadded, Nat.ofDigitChars_append, Nat.ofDigitChars_replicate_zero,
    Nat.mul_zero, Nat.ofDigitChars_ten_toDigits]

theorem isDigit_of_mem_zeroPadded {width number : Nat} {c : Char}
    (found : c ∈ (zeroPadded width number).toList) : isDigit c = true := by
  rw [toList_zeroPadded, List.mem_append] at found
  rcases found with zero | digit
  · rw [List.eq_of_mem_replicate zero]
    decide
  · exact Nat.isDigit_of_mem_toDigits (by decide) (by decide) digit

theorem length_zeroPadded {width number : Nat} (positive : 0 < width)
    (fits : number < 10 ^ width) : (zeroPadded width number).toList.length = width := by
  have short := (Nat.length_toDigits_le_iff (by decide) positive).mpr fits
  rw [toList_zeroPadded, List.length_append, List.length_replicate]
  omega

theorem zeroPadded_ne_nil (width number : Nat) : (zeroPadded width number).toList ≠ [] := by
  simp [toList_zeroPadded, Nat.toDigits_ne_nil]

theorem digitChar_of_isDigit {c : Char} (digit : isDigit c = true) :
    Nat.digitChar (c.toNat - '0'.toNat) = c ∧ c.toNat - '0'.toNat < 10 := by
  simp only [isDigit, Bool.and_eq_true, decide_eq_true_eq, Char.le_def,
    UInt32.le_iff_toNat_le] at digit
  change 48 ≤ c.toNat ∧ c.toNat ≤ 57 at digit
  have small : c.toNat - '0'.toNat < 10 := by
    change c.toNat - 48 < 10
    omega
  have shifted : ∀ value < 10, Nat.digitChar value = Char.ofNat (value + 48) := by decide
  refine ⟨?_, small⟩
  rw [shifted _ small]
  change Char.ofNat (c.toNat - 48 + 48) = c
  rw [Nat.sub_add_cancel digit.1, Char.ofNat_toNat]

/-- Digits without a zero in front are the text of the number that they write. -/
theorem toDigits_ofDigits {digits : List Char} (nonempty : digits ≠ [])
    (all : ∀ c ∈ digits, isDigit c = true)
    (plain : digits.head? = some '0' → digits.length = 1) :
    Nat.toDigits 10 (ofDigits digits) = digits := by
  induction digits using List.reverseRecOn with
  | nil => exact absurd rfl nonempty
  | append_singleton front c ih =>
      rcases digitChar_of_isDigit (all c (by simp)) with ⟨back, small⟩
      have value : ofDigits (front ++ [c]) = 10 * ofDigits front + (c.toNat - '0'.toNat) := by
        rw [ofDigits, List.foldl_append, Nat.mul_comm]
        rfl
      cases front with
      | nil =>
          rw [value, show ofDigits [] = 0 from rfl, Nat.mul_zero, Nat.zero_add,
            Nat.toDigits_of_lt_base small, back, List.nil_append]
      | cons first rest =>
          have notZero : first ≠ '0' := by
            rintro rfl
            simpa using plain rfl
          have own : Nat.toDigits 10 (ofDigits (first :: rest)) = first :: rest :=
            ih (List.cons_ne_nil first rest) (fun d d_mem => all d (List.mem_append_left [c] d_mem))
              fun head => absurd (Option.some.inj head) notZero
          have positive : 0 < ofDigits (first :: rest) := by
            apply Nat.pos_of_ne_zero
            intro zero
            rw [zero, Nat.toDigits_zero] at own
            exact notZero (List.cons.inj own).1.symm
          rw [value, ← Nat.toDigits_append_toDigits (by decide) positive small, own,
            Nat.toDigits_of_lt_base small, back]

/-! ## Readers -/

namespace Reader

variable {α β : Type}

theorem bind_apply (reader : Reader α) (next : α → Reader β) (chars : List Char) :
    (reader >>= next) chars = (reader chars).bind fun found => next found.1 found.2 := rfl

/-- A reader followed by another one, where the first one succeeds. -/
theorem bind_eq {reader : Reader α} {next : α → Reader β} {chars rest : List Char} {value : α}
    {result : Option (β × List Char)} (first : reader chars = some (value, rest))
    (others : next value rest = result) : (reader >>= next) chars = result := by
  rw [bind_apply, first, Option.bind_some, others]

theorem bind_eq_some_iff {reader : Reader α} {next : α → Reader β} {chars : List Char}
    {result : β × List Char} :
    (reader >>= next) chars = some result ↔
      ∃ value rest, reader chars = some (value, rest) ∧ next value rest = some result := by
  rw [bind_apply, Option.bind_eq_some_iff, Prod.exists]

theorem pure_apply (value : α) (chars : List Char) :
    (pure value : Reader α) chars = some (value, chars) := rfl

theorem get_apply (chars : List Char) :
    (get : Reader (List Char)) chars = some (chars, chars) := rfl

theorem set_apply (rest chars : List Char) :
    (set rest : Reader PUnit) chars = some (⟨⟩, rest) := rfl

theorem discard_apply (reader : Reader α) (chars : List Char) :
    (discard reader : Reader PUnit) chars = (reader chars).map fun found => (⟨⟩, found.2) := by
  change (reader >>= fun _ => pure PUnit.unit) chars = _
  rw [bind_apply]
  cases reader chars <;> rfl

variable {accepts : Char → Bool} {c : Char} {chars taken rest : List Char}

theorem satisfy_cons (accepted : accepts c = true) :
    satisfy accepts (c :: rest) = some (c, rest) := by
  simp only [satisfy, bind_apply, get_apply, Option.bind_some, accepted, if_true, set_apply,
    pure_apply]

theorem char_cons : char c (c :: rest) = some ((), rest) := by
  have accepted : satisfy (· == c) (c :: rest) = some (c, rest) :=
    satisfy_cons (beq_self_eq_true c)
  rw [char, discard_apply, accepted]
  rfl

theorem char_eq_some_iff {found : Unit} :
    char c chars = some (found, rest) ↔ chars = c :: rest := by
  constructor
  · intro taken
    cases chars with
    | nil => cases taken
    | cons first others =>
        by_cases same : first = c
        · rw [same, char_cons] at taken
          rw [same, (Prod.mk.inj (Option.some.inj taken)).2]
        · have refused : satisfy (· == c) (first :: others) = none := by
            simp only [satisfy, bind_apply, get_apply, Option.bind_some, beq_iff_eq, same, if_false]
            rfl
          rw [char, discard_apply, refused] at taken
          cases taken
  · rintro rfl
    exact char_cons

theorem optionalChar_cons (c : Char) (first : Char) (rest : List Char) :
    optionalChar c (first :: rest) =
      if first = c then some (true, rest) else some (false, first :: rest) := by
  simp only [optionalChar, bind_apply, get_apply, Option.bind_some, beq_iff_eq]
  split <;> rfl

theorem optionalChar_eq_true (read : optionalChar c chars = some (true, rest)) :
    chars = c :: rest := by
  cases chars with
  | nil => cases read
  | cons first others =>
      rw [optionalChar_cons] at read
      split at read
      · next same => rw [same, (Prod.mk.inj (Option.some.inj read)).2]
      · cases (Prod.mk.inj (Option.some.inj read)).1

theorem optionalChar_eq_false (read : optionalChar c chars = some (false, rest)) :
    chars = rest := by
  cases chars with
  | nil => exact (Prod.mk.inj (Option.some.inj read)).2
  | cons first others =>
      rw [optionalChar_cons] at read
      split at read
      · cases (Prod.mk.inj (Option.some.inj read)).1
      · exact (Prod.mk.inj (Option.some.inj read)).2

theorem optionalChar_of_head?_ne (unlike : chars.head? ≠ some c) :
    optionalChar c chars = some (false, chars) := by
  cases chars with
  | nil => rfl
  | cons first others =>
      rw [optionalChar_cons, if_neg]
      rintro rfl
      exact unlike rfl

/-- A whole text is read where nothing of it is left. -/
theorem all?_eq_some_iff {reader : Reader α} {value : α} :
    reader.all? chars = some value ↔ reader chars = some (value, []) := by
  rw [all?, Option.map_eq_some_iff]
  constructor
  · rintro ⟨⟨found, left⟩, read, rfl⟩
    rcases bind_eq_some_iff.mp read with ⟨value, after, readValue, readEnd⟩
    rcases bind_eq_some_iff.mp readEnd with ⟨_, final, ended, finished⟩
    obtain ⟨rfl, -⟩ := Prod.mk.inj (Option.some.inj finished)
    cases after with
    | nil => exact readValue
    | cons c more => cases ended
  · intro read
    exact ⟨(value, []), bind_eq read rfl, rfl⟩

/-- A run of accepted characters ends where a text ends, or before a character that is refused. -/
def Stops (accepts : Char → Bool) (rest : List Char) : Prop :=
  ∀ c, rest.head? = some c → accepts c = false

theorem stops_cons (refused : accepts c = false) (rest : List Char) :
    Stops accepts (c :: rest) := by
  intro first head
  rw [List.head?_cons, Option.some.injEq] at head
  exact head ▸ refused

theorem stops_isBlank_of_digits {digits : List Char} (all : ∀ c ∈ digits, isDigit c = true)
    (nonempty : digits ≠ []) (rest : List Char) : Stops isBlank (digits ++ rest) := by
  obtain ⟨first, others, rfl⟩ := List.exists_cons_of_ne_nil nonempty
  exact stops_cons (isBlank_of_isDigit (all first List.mem_cons_self)) (others ++ rest)

theorem takeWhile_append (accepted : ∀ c ∈ chars, accepts c = true) (stops : Stops accepts rest) :
    takeWhile accepts (chars ++ rest) = some (chars, rest) := by
  have front : rest.takeWhile accepts = [] ∧ rest.dropWhile accepts = rest := by
    cases rest with
    | nil => simp
    | cons c rest => simp [stops c rfl]
  simp only [takeWhile, bind_apply, get_apply, set_apply, pure_apply, Option.bind_some,
    List.takeWhile_append_of_pos accepted, List.dropWhile_append_of_pos accepted, front,
    List.append_nil]

/-- A text is a run and what follows it in one way. -/
theorem run_unique {other tail : List Char} (accepted : ∀ c ∈ chars, accepts c = true)
    (stops : Stops accepts rest) (otherAccepted : ∀ c ∈ other, accepts c = true)
    (otherStops : Stops accepts tail) (same : chars ++ rest = other ++ tail) :
    chars = other ∧ rest = tail := by
  have run := takeWhile_append accepted stops
  rw [same, takeWhile_append otherAccepted otherStops] at run
  obtain ⟨rfl, rfl⟩ := Prod.mk.inj (Option.some.inj run)
  exact ⟨rfl, rfl⟩

theorem takeWhile1_append (accepted : ∀ c ∈ chars, accepts c = true) (nonempty : chars ≠ [])
    (stops : Stops accepts rest) : takeWhile1 accepts (chars ++ rest) = some (chars, rest) := by
  rw [takeWhile1, bind_apply, takeWhile_append accepted stops, Option.bind_some,
    if_neg (by simpa using nonempty)]
  rfl

theorem takeWhile1_eq_some_iff :
    takeWhile1 accepts chars = some (taken, rest) ↔
      taken ≠ [] ∧ (∀ c ∈ taken, accepts c = true) ∧ Stops accepts rest ∧
        chars = taken ++ rest := by
  constructor
  · intro found
    have whole := List.takeWhile_append_dropWhile (p := accepts) (l := chars)
    simp only [takeWhile1, takeWhile, bind_apply, get_apply, set_apply, pure_apply,
      Option.bind_some] at found
    split at found
    · cases found
    · next nonempty =>
        obtain ⟨rfl, rfl⟩ := Prod.mk.inj (Option.some.inj found)
        refine ⟨by simpa using nonempty, List.all_eq_true.mp List.all_takeWhile, ?_, whole.symm⟩
        intro c head
        have refused := List.head?_dropWhile_not accepts chars
        rwa [head] at refused
  · rintro ⟨nonempty, accepted, stops, rfl⟩
    exact takeWhile1_append accepted nonempty stops

theorem skipWhile_of_stops (stops : Stops accepts rest) :
    skipWhile accepts rest = some ((), rest) := by
  have none : takeWhile accepts ([] ++ rest) = some ([], rest) :=
    takeWhile_append (by simp) stops
  rw [skipWhile, discard_apply, ← List.nil_append rest, none]
  rfl

end Reader

end Vitals.Text
