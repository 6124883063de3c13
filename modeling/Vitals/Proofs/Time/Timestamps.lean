import Mathlib.Data.List.Basic
import Vitals.Proofs.Text.Digits
import Vitals.Proofs.Time.Calendar

/-!
# Timestamps through their texts

A timestamp is read back from its text. The text is read part by part: each part is written with as
many digits as its reader takes, and what follows a part cannot be taken for more of it.
-/

namespace Vitals.Timestamp

open Text Text.Reader

variable {rest : List Char}

theorem skipBlanks_of_stops (stops : Stops isBlank rest) : skipBlanks rest = some ((), rest) :=
  skipWhile_of_stops stops

theorem readPair_append {number : Nat} (fits : number < 100) (rest : List Char) :
    readPair ((zeroPadded 2 number).toList ++ rest) = some (number, rest) := by
  have all : ∀ c ∈ (zeroPadded 2 number).toList, isDigit c = true :=
    fun c => isDigit_of_mem_zeroPadded
  have two := length_zeroPadded Nat.two_pos fits
  have value := ofDigits_zeroPadded 2 number
  have blanks := skipBlanks_of_stops
    (stops_isBlank_of_digits all (zeroPadded_ne_nil 2 number) rest)
  obtain ⟨first, second, digits⟩ := List.length_eq_two.mp two
  rw [digits] at all value blanks ⊢
  rw [List.forall_mem_cons, List.forall_mem_singleton] at all
  rw [List.cons_append, List.singleton_append] at blanks ⊢
  simp only [readPair, Reader.peek?, bind_apply, blanks, Option.bind_some, satisfy_cons all.1,
    get_apply, pure_apply, List.head?_cons, all.2, if_true, satisfy_cons all.2, value]

theorem readSeparator_cons {separator : Char} (visible : isBlank separator = false)
    (rest : List Char) : readSeparator separator (separator :: rest) = some ((), rest) := by
  rw [readSeparator, bind_apply, skipBlanks_of_stops (stops_cons visible rest), Option.bind_some,
    char_cons]

theorem readYear_digits {digits : List Char} (all : ∀ c ∈ digits, isDigit c = true)
    (four : digits.length = 4) (rest : List Char) :
    readYear (digits ++ rest) = some (Int.ofNat (ofDigits digits), rest) := by
  have nonempty : digits ≠ [] := by
    rintro rfl
    cases four
  have blanks := skipBlanks_of_stops (stops_isBlank_of_digits all nonempty rest)
  have whole : ((digits ++ rest).take 4).takeWhile isDigit = digits := by
    rw [List.take_left' four]
    rw [← List.append_nil digits, List.takeWhile_append_of_pos all]
    rfl
  have left : (digits ++ rest).drop digits.length = rest := List.drop_left
  obtain ⟨first, others, rfl⟩ := List.exists_cons_of_ne_nil nonempty
  have digit := all first List.mem_cons_self
  have minus : first ≠ '-' := by
    rintro rfl
    exact absurd digit (by decide)
  have plus : first ≠ '+' := by
    rintro rfl
    exact absurd digit (by decide)
  rw [List.cons_append] at blanks whole left ⊢
  simp only [readYear, bind_apply, blanks, Option.bind_some, optionalChar_cons, minus, plus,
    if_false, get_apply, whole, Bool.false_eq_true, List.isEmpty_cons, set_apply, pure_apply, left]

theorem readYear_signed {digits : List Char} (all : ∀ c ∈ digits, isDigit c = true)
    (nonempty : digits ≠ []) (stops : Stops isDigit rest) (negative : Bool) :
    readYear ((if negative then '-' else '+') :: (digits ++ rest)) =
      some (if negative then -Int.ofNat (ofDigits digits) else Int.ofNat (ofDigits digits),
        rest) := by
  have taken := takeWhile1_append all nonempty stops
  cases negative with
  | true =>
      have blanks := skipBlanks_of_stops
        (stops_cons (show isBlank '-' = false by decide) (digits ++ rest))
      simp only [readYear, bind_apply, if_true, blanks, Option.bind_some, optionalChar_cons, taken,
        pure_apply]
  | false =>
      have blanks := skipBlanks_of_stops
        (stops_cons (show isBlank '+' = false by decide) (digits ++ rest))
      have plus : ('+' : Char) ≠ '-' := by decide
      simp only [readYear, bind_apply, Bool.false_eq_true, if_false, if_true, blanks,
        Option.bind_some, optionalChar_cons, plus, taken, pure_apply]

theorem readYear_append (year : Int) (stops : Stops isDigit rest) :
    readYear ((renderYear year).toList ++ rest) = some (year, rest) := by
  unfold renderYear
  split
  · next plain =>
      obtain ⟨number, rfl⟩ := Int.eq_ofNat_of_zero_le plain.1
      have four := length_zeroPadded (by decide) (show number < 10 ^ 4 by omega)
      rw [Int.toNat_natCast, readYear_digits (fun c => isDigit_of_mem_zeroPadded) four,
        ofDigits_zeroPadded]
      rfl
  · have signed := readYear_signed (fun c => isDigit_of_mem_zeroPadded (c := c))
      (zeroPadded_ne_nil 4 year.natAbs) stops (decide (year < 0))
    have text : ((if year < 0 then "-" else "+") ++ zeroPadded 4 year.natAbs).toList ++ rest =
        (if decide (year < 0) = true then '-' else '+') ::
          ((zeroPadded 4 year.natAbs).toList ++ rest) := by
      by_cases negative : year < 0 <;> simp [negative]
    have number : (if decide (year < 0) = true then -(year.natAbs : Int) else year.natAbs) =
        year := by
      simp only [decide_eq_true_eq]
      split <;> omega
    rw [ofDigits_zeroPadded] at signed
    rw [text, signed]
    exact congrArg (fun value => some (value, rest)) number

theorem readFraction_append {nano : Nat} (fits : nano < 1000000000) (rest : List Char) :
    readFraction ((renderFraction nano).toList ++ 'Z' :: rest) = some (nano, 'Z' :: rest) := by
  have stops : Stops isDigit ('Z' :: rest) := stops_cons (by decide) rest
  have fraction (width number : Nat) (positive : 0 < width) (most : width ≤ 9)
      (small : number < 10 ^ width) :
      readFraction (("." ++ zeroPadded width number).toList ++ 'Z' :: rest) =
        some (number * 10 ^ (9 - width), 'Z' :: rest) := by
    have length := length_zeroPadded positive small
    have digits := takeWhile1_append (fun c => isDigit_of_mem_zeroPadded (c := c))
      (zeroPadded_ne_nil width number) stops
    have point : ("." ++ zeroPadded width number).toList ++ 'Z' :: rest =
        '.' :: ((zeroPadded width number).toList ++ 'Z' :: rest) := by simp
    rw [point, readFraction, bind_apply, optionalChar_cons, if_pos rfl, Option.bind_some]
    simp only [if_true, bind_apply, digits, Option.bind_some, pure_apply]
    rw [List.take_of_length_le (by omega), ofDigits_zeroPadded, length]
    rfl
  unfold renderFraction
  split
  · next none =>
      subst none
      rfl
  · split
    · next whole =>
        have back : nano / 1000000 * 10 ^ (9 - 3) = nano := by omega
        rw [fraction 3 (nano / 1000000) (by decide) (by decide) (by omega), back]
    · split
      · next whole =>
          have back : nano / 1000 * 10 ^ (9 - 6) = nano := by omega
          rw [fraction 6 (nano / 1000) (by decide) (by decide) (by omega), back]
      · rw [fraction 9 nano (by decide) (by decide) (by omega), Nat.sub_self, Nat.pow_zero,
          Nat.mul_one]

/-! ## Whole timestamps -/

/-- A timestamp of the calendar: a day that dates reach, a second of the day, and a nanosecond,
which goes beyond a second only in the last second of a minute. -/
structure Valid (timestamp : Timestamp) : Prop where
  first : firstDay ≤ timestamp.day
  last : timestamp.day ≤ lastDay
  second : timestamp.second < 86400
  nano : timestamp.nano < 1000000000 ∨
    timestamp.second % 60 = 59 ∧ timestamp.nano < 2000000000

theorem ofParts?_of_valid {timestamp : Timestamp} (valid : timestamp.Valid) :
    ofParts? (Date.ofDayNumber timestamp.day) (timestamp.second / 3600)
      (timestamp.second / 60 % 60) (timestamp.second % 60 + timestamp.nano / 1000000000)
      (timestamp.nano % 1000000000) 0 = some timestamp := by
  obtain ⟨real, number⟩ := Date.ofDayNumber_spec timestamp.day
  obtain ⟨day, second, nano⟩ := timestamp
  obtain ⟨first, last, ofDay, ofSecond⟩ := valid
  dsimp only at *
  have clock : ∃ leap, (if second % 60 + nano / 1000000000 = 60 then 1 else 0) = leap ∧
      second / 3600 * 3600 + second / 60 % 60 * 60 + (second % 60 + nano / 1000000000 - leap) =
        second ∧
      nano % 1000000000 + leap * 1000000000 = nano := by
    refine ⟨_, rfl, ?_, ?_⟩ <;> split <;> omega
  obtain ⟨leap, isLeap, seconds, nanos⟩ := clock
  have sameDay : day + (Int.ofNat second - 0) / 86400 = day := by
    change day + ((second : Int) - 0) / 86400 = day
    omega
  have sameSecond : ((Int.ofNat second - 0) % 86400).toNat = second := by
    change (((second : Int) - 0) % 86400).toNat = second
    omega
  unfold ofParts?
  simp only [isLeap, seconds, nanos, number, sameDay, sameSecond]
  rw [if_pos]
  exact ⟨⟨real.first_month, real.last_month, real.first_day, real.last_day, first, last⟩,
    by omega, by omega, by omega, by decide, first, last⟩

theorem daysInMonth_le (year : Int) (month : Nat) : Date.daysInMonth year month ≤ 31 := by
  unfold Date.daysInMonth
  split
  · split <;> decide
  all_goals decide

/-- The text of a date and a time of day. -/
def textOf (date : Date) (hour minute second nano : Nat) : List Char :=
  (renderYear date.year).toList ++ '-' :: ((zeroPadded 2 date.month).toList ++
    '-' :: ((zeroPadded 2 date.day).toList ++ 'T' :: ((zeroPadded 2 hour).toList ++
    ':' :: ((zeroPadded 2 minute).toList ++ ':' :: ((zeroPadded 2 second).toList ++
    ((renderFraction nano).toList ++ ['Z']))))))

theorem reader_textOf {date : Date} {hour minute second nano : Nat} {timestamp : Timestamp}
    (month : date.month < 100) (day : date.day < 100) (hours : hour < 100) (minutes : minute < 100)
    (seconds : second < 100) (nanos : nano < 1000000000)
    (real : ofParts? date hour minute second nano 0 = some timestamp) :
    reader (textOf date hour minute second nano) = some (timestamp, []) := by
  have dash : isBlank '-' = false := by decide
  have colon : isBlank ':' = false := by decide
  have year (rest : List Char) := readYear_append date.year
    (stops_cons (show isDigit '-' = false by decide) rest)
  have letter (rest : List Char) :
      (discard (satisfy fun c => c == 't' || c == 'T' || c == ' ') : Reader PUnit) ('T' :: rest) =
        some (⟨⟩, rest) := by
    rw [discard_apply, satisfy_cons (by decide)]
    rfl
  have zone : skipBlanks ['Z'] = some ((), ['Z']) :=
    skipBlanks_of_stops (stops_cons (by decide) [])
  unfold reader textOf
  refine bind_eq (year _) ?_
  refine bind_eq (readSeparator_cons dash _) (bind_eq (readPair_append month _) ?_)
  refine bind_eq (readSeparator_cons dash _) (bind_eq (readPair_append day _) ?_)
  refine bind_eq (letter _) (bind_eq (readPair_append hours _) ?_)
  refine bind_eq (readSeparator_cons colon _) (bind_eq (readPair_append minutes _) ?_)
  refine bind_eq (readSeparator_cons colon _) (bind_eq (readPair_append seconds _) ?_)
  refine bind_eq (readFraction_append nanos []) (bind_eq zone ?_)
  have offset : readOffset ['Z'] = some (0, []) := rfl
  have nothing : skipBlanks [] = some ((), []) := rfl
  refine bind_eq offset (bind_eq nothing ?_)
  simp only [real]
  rfl

/-- A timestamp is read back from its text. -/
theorem read?_render {timestamp : Timestamp} (valid : timestamp.Valid) :
    read? timestamp.render = some timestamp := by
  obtain ⟨real, -⟩ := Date.ofDayNumber_spec timestamp.day
  have month := real.last_month
  have day := Nat.le_trans real.last_day (daysInMonth_le _ _)
  have second := valid.second
  have leap : timestamp.nano / 1000000000 ≤ 1 := by
    rcases valid.nano with plain | ⟨-, twice⟩ <;> omega
  have text : timestamp.render.toList = textOf (Date.ofDayNumber timestamp.day)
      (timestamp.second / 3600) (timestamp.second / 60 % 60)
      (timestamp.second % 60 + timestamp.nano / 1000000000) (timestamp.nano % 1000000000) := by
    simp [render, textOf]
  have parts := reader_textOf (by omega) (by omega) (by omega) (by omega) (by omega) (by omega)
    (ofParts?_of_valid valid)
  rw [read?, all?, bind_apply, text, parts]
  rfl

end Vitals.Timestamp
