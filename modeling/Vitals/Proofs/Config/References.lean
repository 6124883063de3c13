import Vitals.Config.Substitution

/-!
# References in a text

What a reference is, apart from how it is found: a name between `${` and `}`. The parts of a text
are its references and its other characters, and written one after the other they are the text.
`SinglePass` replaces every reference in one pass from left to right: a value goes into the
output as it is and is not looked at again.
-/

namespace Vitals.Config

/-- A letter or an underscore, and then letters, digits and underscores. -/
structure IsName (name : List Char) : Prop where
  starts : name.head?.any startsName = true
  continues : ∀ c ∈ name, continuesName c = true

/-- The text of a part. -/
def Segment.write : Segment → List Char
  | .char c => [c]
  | .reference name => '$' :: '{' :: name ++ ['}']

/-- The text that some parts make up. -/
def writeAll (parts : List Segment) : List Char := parts.flatMap Segment.write

/-- One pass over a text: every reference is replaced by the value of its variable, and every
character that belongs to none is copied. -/
inductive SinglePass (value? : String → Option String) : List Char → List Char → Prop where
  | nil : SinglePass value? [] []
  | reference {name after output : List Char} {value : String} (isName : IsName name)
      (hasValue : value? (String.ofList name) = some value)
      (rest : SinglePass value? after output) :
      SinglePass value? ('$' :: '{' :: name ++ '}' :: after) (value.toList ++ output)
  | char {c : Char} {after output : List Char}
      (foreign : ∀ name rest, IsName name → c :: after ≠ '$' :: '{' :: name ++ '}' :: rest)
      (rest : SinglePass value? after output) : SinglePass value? (c :: after) (c :: output)

namespace IsName

variable {name : List Char}

theorem not_mem (isName : IsName name) {c : Char} (foreign : continuesName c = false) :
    c ∉ name := by
  intro c_mem
  rw [isName.continues c c_mem] at foreign
  cases foreign

/-- A name ends where a brace closes. -/
theorem takeWhile_eq (isName : IsName name) (after : List Char) :
    (name ++ '}' :: after).takeWhile continuesName = name := by
  rw [List.takeWhile_append_of_pos isName.continues,
    List.takeWhile_cons_of_neg (by decide), List.append_nil]

theorem dropWhile_eq (isName : IsName name) (after : List Char) :
    (name ++ '}' :: after).dropWhile continuesName = '}' :: after := by
  rw [List.dropWhile_append_of_pos isName.continues, List.dropWhile_cons_of_neg (by decide)]

end IsName

/-- A reference is found exactly where one is written. -/
theorem reference?_eq_some_iff {text name after : List Char} :
    reference? text = some (name, after) ↔
      IsName name ∧ text = '$' :: '{' :: name ++ '}' :: after := by
  constructor
  · intro found
    unfold reference? at found
    split at found
    · next rest =>
        simp only at found
        split at found
        · next tail dropped =>
            split at found
            · next starts =>
                simp only [Option.some.injEq, Prod.mk.injEq] at found
                rcases found with ⟨rfl, rfl⟩
                refine ⟨⟨starts, List.all_eq_true.mp List.all_takeWhile⟩, ?_⟩
                rw [List.cons_append, List.cons_append, ← dropped, List.takeWhile_append_dropWhile]
            · cases found
        · cases found
    · cases found
  · rintro ⟨isName, rfl⟩
    simp only [reference?, List.cons_append, isName.takeWhile_eq, isName.dropWhile_eq,
      isName.starts, if_true]

theorem segments_cons_of_some {c : Char} {rest name after : List Char}
    (found : reference? (c :: rest) = some (name, after)) :
    segments (c :: rest) = .reference name :: segments after := by
  rw [segments]
  split
  · next other remainder same =>
      obtain ⟨rfl, rfl⟩ := Prod.mk.inj (Option.some.inj (found.symm.trans same))
      rfl
  · next absent => cases found.symm.trans absent

theorem segments_cons_of_none {c : Char} {rest : List Char}
    (absent : reference? (c :: rest) = none) :
    segments (c :: rest) = .char c :: segments rest := by
  rw [segments]
  split
  · next name after found => cases absent.symm.trans found
  · rfl

/-- The parts of a text are the text. -/
theorem writeAll_segments (text : List Char) : writeAll (segments text) = text := by
  induction text using segments.induct with
  | case1 => simp [segments, writeAll]
  | case2 c rest name after found ih =>
      rw [segments_cons_of_some found, (reference?_eq_some_iff.mp found).2, writeAll,
        List.flatMap_cons, ← writeAll, ih, Segment.write, List.append_assoc, List.cons_append]
      rfl
  | case3 c rest absent ih =>
      rw [segments_cons_of_none absent, writeAll, List.flatMap_cons, ← writeAll, ih]
      rfl

theorem isName_of_mem_segments {text name : List Char}
    (name_mem : .reference name ∈ segments text) : IsName name := by
  induction text using segments.induct with
  | case1 =>
      rw [segments] at name_mem
      cases name_mem
  | case2 c rest other after found ih =>
      rw [segments_cons_of_some found] at name_mem
      rcases List.mem_cons.mp name_mem with same | later
      · cases same
        exact (reference?_eq_some_iff.mp found).1
      · exact ih later
  | case3 c rest absent ih =>
      rw [segments_cons_of_none absent] at name_mem
      rcases List.mem_cons.mp name_mem with same | later
      · cases same
      · exact ih later

theorem reference?_eq_none {text : List Char}
    (foreign : ∀ name rest, IsName name → text ≠ '$' :: '{' :: name ++ '}' :: rest) :
    reference? text = none := by
  cases found : reference? text with
  | none => rfl
  | some pair =>
      have written := reference?_eq_some_iff.mp found
      exact absurd written.2 (foreign pair.1 pair.2 written.1)

/-- What a part becomes in a single pass. -/
def Segment.replaced (value? : String → Option String) : Segment → List Char
  | .char c => [c]
  | .reference name => ((value? (String.ofList name)).getD "").toList

variable {value? : String → Option String} {text output : List Char}

/-- The outcome of a single pass is determined part by part. -/
theorem SinglePass.output_eq (pass : SinglePass value? text output) :
    output = (segments text).flatMap (·.replaced value?) := by
  induction pass with
  | nil => simp [segments]
  | @reference name after output value isName hasValue rest ih =>
      have found : reference? ('$' :: '{' :: name ++ '}' :: after) = some (name, after) :=
        reference?_eq_some_iff.mpr ⟨isName, rfl⟩
      have parts : segments ('$' :: '{' :: name ++ '}' :: after) =
          .reference name :: segments after := segments_cons_of_some found
      rw [parts, List.flatMap_cons, ← ih, Segment.replaced, hasValue]
      rfl
  | @char c after output foreign rest ih =>
      rw [segments_cons_of_none (reference?_eq_none foreign), List.flatMap_cons, ← ih]
      rfl

theorem singlePass_replaced
    (set : ∀ name, .reference name ∈ segments text → (value? (String.ofList name)).isSome = true) :
    SinglePass value? text ((segments text).flatMap (·.replaced value?)) := by
  induction text using segments.induct with
  | case1 =>
      rw [segments]
      exact .nil
  | case2 c rest name after found ih =>
      rw [segments_cons_of_some found] at set ⊢
      rcases Option.isSome_iff_exists.mp (set name List.mem_cons_self) with ⟨value, hasValue⟩
      have later := ih fun other other_mem => set other (List.mem_cons_of_mem _ other_mem)
      rcases reference?_eq_some_iff.mp found with ⟨isName, written⟩
      rw [written, List.flatMap_cons, Segment.replaced, hasValue]
      exact .reference isName hasValue later
  | case3 c rest absent ih =>
      rw [segments_cons_of_none absent] at set ⊢
      refine .char ?_ (ih fun other other_mem => set other (List.mem_cons_of_mem _ other_mem))
      intro name after isName written
      rw [reference?_eq_some_iff.mpr ⟨isName, written⟩] at absent
      cases absent

end Vitals.Config
