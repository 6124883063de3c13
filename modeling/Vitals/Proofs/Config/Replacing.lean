import Vitals.Proofs.Config.References

/-!
# Replacing a reference everywhere

To replace a reference everywhere in a text is to fill it in where the text has it, and to replace
whatever else comes to be read as this reference. `arises` tells whether there is anything of that
kind. A reference begins with a sign that occurs nowhere else in it; so what is read as a reference
never overlaps one that the text has.
-/

namespace Vitals.Config

/-- The text of a reference begins at a character that belongs to no reference. -/
def arises (name : String) : List Segment → Bool
  | [] => false
  | .char c :: rest => (writeReference name).isPrefixOf (c :: writeAll rest) || arises name rest
  | .reference _ :: rest => arises name rest

/-- A part when the references to a name are filled in: they become the characters of a value. -/
def Segment.fillIn (name value : String) : Segment → List Segment
  | .char c => [.char c]
  | .reference other =>
      if String.ofList other = name then value.toList.map .char else [.reference other]

def fillIn (name value : String) (parts : List Segment) : List Segment :=
  parts.flatMap (·.fillIn name value)

section Replacing

variable {name : String} {replacement : List Char}

theorem replaceFrom_length (pattern skipped rest : List Char) :
    replaceFrom pattern replacement skipped.length (skipped ++ rest) =
      replaceAll pattern replacement rest := by
  induction skipped with
  | nil => rfl
  | cons c more ih => exact ih

theorem replaceAll_writeReference (rest : List Char) :
    replaceAll (writeReference name) replacement (writeReference name ++ rest) =
      replacement ++ replaceAll (writeReference name) replacement rest := by
  have begins : (writeReference name).isPrefixOf (writeReference name ++ rest) = true :=
    List.isPrefixOf_iff_prefix.mpr (List.prefix_append _ _)
  have skips := @replaceFrom_length replacement (writeReference name)
    ('{' :: name.toList ++ ['}']) rest
  simp only [writeReference, List.cons_append, replaceAll, replaceFrom] at begins skips ⊢
  rw [if_pos begins, ← skips]
  rfl

theorem replaceAll_cons_of_not_prefix {c : Char} {rest : List Char}
    (absent : (writeReference name).isPrefixOf (c :: rest) = false) :
    replaceAll (writeReference name) replacement (c :: rest) =
      c :: replaceAll (writeReference name) replacement rest := by
  simp only [replaceAll, replaceFrom, absent, Bool.false_eq_true, if_false]

/-- A reference begins with a sign that occurs nowhere else in it. -/
theorem replaceAll_append_of_not_mem {skipped : List Char} (unsigned : '$' ∉ skipped)
    (rest : List Char) :
    replaceAll (writeReference name) replacement (skipped ++ rest) =
      skipped ++ replaceAll (writeReference name) replacement rest := by
  induction skipped with
  | nil => rfl
  | cons c more ih =>
      rw [List.mem_cons, not_or] at unsigned
      have absent : (writeReference name).isPrefixOf (c :: (more ++ rest)) = false := by
        simp [writeReference, List.isPrefixOf, unsigned.1]
      rw [List.cons_append, replaceAll_cons_of_not_prefix absent, ih unsigned.2]
      rfl

/-- A reference to another name stays. -/
theorem replaceAll_write_of_ne {other : List Char} (isName : IsName name.toList)
    (isName' : IsName other) (unlike : String.ofList other ≠ name) (rest : List Char) :
    replaceAll (writeReference name) replacement ((Segment.reference other).write ++ rest) =
      (Segment.reference other).write ++
        replaceAll (writeReference name) replacement rest := by
  have absent : (writeReference name).isPrefixOf
      ('$' :: ('{' :: other ++ ['}'] ++ rest)) = false := by
    rw [Bool.eq_false_iff, ne_eq, List.isPrefixOf_iff_prefix]
    rintro ⟨after, same⟩
    have names : name.toList ++ '}' :: after = other ++ '}' :: rest := by
      simpa [writeReference] using same
    have sameName : name.toList = other := by
      rw [← isName.takeWhile_eq after, names, isName'.takeWhile_eq]
    apply unlike
    rw [← sameName, String.ofList_toList]
  have unsigned : '$' ∉ '{' :: other ++ ['}'] := by
    simpa using isName'.not_mem (c := '$') (by decide)
  calc replaceAll (writeReference name) replacement ((Segment.reference other).write ++ rest)
      = '$' :: replaceAll (writeReference name) replacement ('{' :: other ++ ['}'] ++ rest) :=
        replaceAll_cons_of_not_prefix absent
    _ = '$' :: ('{' :: other ++ ['}'] ++
          replaceAll (writeReference name) replacement rest) := by
        rw [replaceAll_append_of_not_mem unsigned]
    _ = (Segment.reference other).write ++
          replaceAll (writeReference name) replacement rest := rfl

end Replacing

/-- Two texts that are alike but for a number of places, at which the left one has a value and
the right one a pattern. -/
inductive DifferAt (value pattern : List Char) : Nat → List Char → List Char → Prop where
  | nil : DifferAt value pattern 0 [] []
  | same {places : Nat} {left right : List Char} (common : List Char)
      (rest : DifferAt value pattern places left right) :
      DifferAt value pattern places (common ++ left) (common ++ right)
  | place {places : Nat} {left right : List Char}
      (rest : DifferAt value pattern places left right) :
      DifferAt value pattern (places + 1) (value ++ left) (pattern ++ right)

namespace DifferAt

variable {value pattern left right : List Char} {places : Nat}

theorem length_eq (differ : DifferAt value pattern places left right) :
    left.length + places * pattern.length = right.length + places * value.length := by
  induction differ with
  | nil => simp
  | same common rest ih =>
      rw [List.length_append, List.length_append]
      omega
  | place rest ih =>
      rw [List.length_append, List.length_append, Nat.succ_mul, Nat.succ_mul]
      omega

theorem eq_of_length (differ : DifferAt value pattern places left right)
    (sameLength : value.length = pattern.length) (same : left = right) (occurs : 0 < places) :
    value = pattern := by
  induction differ with
  | nil => exact absurd occurs (Nat.lt_irrefl 0)
  | same common rest ih => exact ih (List.append_cancel_left same) occurs
  | place rest ih => exact (List.append_inj same sameLength).1

/-- The texts are the same if there is no such place, or if value and pattern are the same, and not
otherwise: different lengths could not make up for one another. -/
theorem eq_iff (differ : DifferAt value pattern places left right) :
    left = right ↔ (0 < places → value = pattern) := by
  constructor
  · intro same occurs
    have lengths := differ.length_eq
    rw [same, Nat.add_left_cancel_iff] at lengths
    exact differ.eq_of_length (Nat.eq_of_mul_eq_mul_left occurs lengths).symm same occurs
  · intro harmless
    induction differ with
    | nil => rfl
    | same common rest ih => rw [ih harmless]
    | place rest ih =>
        have sameText := harmless (Nat.succ_pos _)
        rw [ih fun _ => sameText, sameText]

end DifferAt

section FillingIn

variable {name value : String} {parts : List Segment}

theorem writeAll_cons (part : Segment) (rest : List Segment) :
    writeAll (part :: rest) = part.write ++ writeAll rest := List.flatMap_cons

theorem writeAll_append (front back : List Segment) :
    writeAll (front ++ back) = writeAll front ++ writeAll back := List.flatMap_append

theorem writeAll_chars (chars : List Char) : writeAll (chars.map .char) = chars := by
  induction chars with
  | nil => rfl
  | cons c rest ih => rw [List.map_cons, writeAll_cons, ih]; rfl

theorem fillIn_chars (chars : List Char) :
    fillIn name value (chars.map .char) = chars.map .char := by
  induction chars with
  | nil => rfl
  | cons c rest ih =>
      rw [fillIn, List.map_cons, List.flatMap_cons, ← fillIn, ih]
      rfl

theorem fillIn_cons (part : Segment) (rest : List Segment) :
    fillIn name value (part :: rest) = part.fillIn name value ++ fillIn name value rest :=
  List.flatMap_cons

theorem fillIn_append (front back : List Segment) :
    fillIn name value (front ++ back) = fillIn name value front ++ fillIn name value back :=
  List.flatMap_append

theorem write_reference (other : List Char) :
    (Segment.reference other).write = writeReference (String.ofList other) := by
  rw [Segment.write, writeReference, String.toList_ofList]

/-- Text without the sign of a reference consists of characters that belong to none. -/
theorem exists_of_prefix {chars : List Char} (unsigned : '$' ∉ chars)
    (begins : chars <+: writeAll parts) : ∃ rest, parts = chars.map .char ++ rest := by
  induction chars generalizing parts with
  | nil => exact ⟨parts, rfl⟩
  | cons c more ih =>
      rw [List.mem_cons, not_or] at unsigned
      cases parts with
      | nil => exact absurd (List.prefix_nil.mp begins) (List.cons_ne_nil _ _)
      | cons part rest =>
          rw [writeAll_cons] at begins
          cases part with
          | char d =>
              rcases List.cons_prefix_cons.mp begins with ⟨rfl, later⟩
              rcases ih unsigned.2 later with ⟨others, rfl⟩
              exact ⟨others, rfl⟩
          | reference other => exact absurd (List.cons_prefix_cons.mp begins).1.symm unsigned.1

/-- Replacing a reference everywhere does more than to fill it in exactly at the places where it
arises. -/
theorem differAt_replaceAll (value : String) (isName : IsName name.toList) (parts : List Segment)
    (named : ∀ other, .reference other ∈ parts → IsName other) :
    ∃ places, DifferAt value.toList (writeReference name) places
        (replaceAll (writeReference name) value.toList (writeAll parts))
        (writeAll (fillIn name value parts)) ∧
      (arises name parts = true ↔ 0 < places) := by
  have unsigned : '$' ∉ '{' :: name.toList ++ ['}'] := by
    simpa using isName.not_mem (c := '$') (by decide)
  -- A place takes up several parts at once, so the induction is on how many there are.
  induction length : parts.length using Nat.strongRecOn generalizing parts with
  | ind length ih =>
    subst length
    cases parts with
    | nil => exact ⟨0, .nil, by simp [arises]⟩
    | cons part rest =>
        have restNamed : ∀ other, .reference other ∈ rest → IsName other :=
          fun other other_mem => named other (List.mem_cons_of_mem _ other_mem)
        rcases ih rest.length (Nat.lt_succ_self _) rest restNamed rfl with
          ⟨places, differ, arises_iff⟩
        cases part with
        | reference other =>
            refine ⟨places, ?_, arises_iff⟩
            by_cases own : String.ofList other = name
            · rw [writeAll_cons, write_reference, own, replaceAll_writeReference, fillIn_cons,
                Segment.fillIn, if_pos own, writeAll_append, writeAll_chars]
              exact .same _ differ
            · rw [writeAll_cons, replaceAll_write_of_ne isName (named other List.mem_cons_self) own,
                fillIn_cons, Segment.fillIn, if_neg own]
              exact .same _ differ
        | char c =>
            cases begins : (writeReference name).isPrefixOf (c :: writeAll rest) with
            | false =>
                refine ⟨places, ?_, by simpa [arises, begins] using arises_iff⟩
                have text : writeAll (.char c :: rest) = c :: writeAll rest := writeAll_cons _ _
                rw [text, replaceAll_cons_of_not_prefix begins]
                exact .same [c] differ
            | true =>
                have written := List.isPrefixOf_iff_prefix.mp begins
                rcases List.cons_prefix_cons.mp written with ⟨rfl, later⟩
                rcases exists_of_prefix unsigned later with ⟨others, rfl⟩
                have fewer : others.length <
                    (Segment.char '$' :: (('{' :: name.toList ++ ['}']).map Segment.char ++
                      others)).length := by
                  simp only [List.length_cons, List.length_append]
                  omega
                rcases ih others.length fewer others
                  (fun other other_mem => restNamed other (List.mem_append_right _ other_mem)) rfl
                  with ⟨places, differ, _⟩
                have found : arises name (.char '$' ::
                    (('{' :: name.toList ++ ['}']).map .char ++ others)) = true := by
                  rw [arises, begins]
                  rfl
                refine ⟨places + 1, ?_, iff_of_true found (Nat.succ_pos _)⟩
                have pattern : .char '$' :: (('{' :: name.toList ++ ['}']).map .char ++ others) =
                    (writeReference name).map .char ++ others := rfl
                rw [pattern, writeAll_append, writeAll_chars, fillIn_append, fillIn_chars,
                  writeAll_append, writeAll_chars, replaceAll_writeReference]
                exact .place differ

/-- To replace a reference everywhere is to fill it in, unless it arises and is not replaced by
itself. -/
theorem replaceAll_eq_iff (isName : IsName name.toList)
    (named : ∀ other, .reference other ∈ parts → IsName other) :
    replaceAll (writeReference name) value.toList (writeAll parts) =
        writeAll (fillIn name value parts) ↔
      (arises name parts = true → value.toList = writeReference name) := by
  rcases differAt_replaceAll value isName parts named with ⟨places, differ, arises_iff⟩
  rw [differ.eq_iff, arises_iff]

theorem mem_of_mem_fillIn {other : List Char}
    (other_mem : .reference other ∈ fillIn name value parts) :
    .reference other ∈ parts ∧ String.ofList other ≠ name := by
  rcases List.mem_flatMap.mp other_mem with ⟨part, part_mem, filled⟩
  cases part with
  | char c => cases List.mem_singleton.mp filled
  | reference own =>
      rw [Segment.fillIn] at filled
      split at filled
      · rcases List.mem_map.mp filled with ⟨c, _, same⟩
        cases same
      · next unlike =>
          cases List.mem_singleton.mp filled
          exact ⟨part_mem, unlike⟩

end FillingIn

end Vitals.Config
