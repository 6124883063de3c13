import Vitals.Config.Loading
import Vitals.Proofs.Config.References

/-!
# References without a value

Where references stand in a text, told by their positions and not by how they are found. No two of
them overlap, so the references found from left to right are all there are. A substitution fails
exactly if one of them has no value, and reports the first one that has none, whatever the values
of the others are. What is no reference, though it looks like one, asks for nothing.
-/

namespace Vitals.Config

/-- At a position of a text begins a reference to a name. -/
def RefersAt (text : List Char) (position : Nat) (name : String) : Prop :=
  IsName name.toList ∧ ∃ after, text.drop position = writeReference name ++ after

/-- The first reference of a text to a name of some kind. -/
def FirstReference (kind : String → Prop) (text : List Char) (name : String) : Prop :=
  ∃ position, RefersAt text position name ∧ kind name ∧
    ∀ earlier < position, ∀ other, RefersAt text earlier other → ¬kind other

variable {text after rest : List Char} {name other : String} {c : Char}

/-! ## Where references stand -/

theorem refersAt_iff {position : Nat} :
    RefersAt text position name ↔
      ∃ after, reference? (text.drop position) = some (name.toList, after) := by
  simp only [RefersAt, reference?_eq_some_iff, exists_and_left, writeReference, List.append_assoc,
    List.cons_append, List.nil_append]

/-- The sign of a reference occurs in front of it only. -/
theorem sign_not_mem (isName : IsName name.toList) : '$' ∉ '{' :: name.toList ++ ['}'] := by
  simp [isName.not_mem (c := '$') (by decide)]

namespace RefersAt

variable {first second : Nat}

theorem name_eq (here : RefersAt text first name) (too : RefersAt text first other) :
    name = other := by
  rcases refersAt_iff.mp here with ⟨after, found⟩
  rcases refersAt_iff.mp too with ⟨tail, again⟩
  rw [found] at again
  exact String.toList_injective (Prod.mk.inj (Option.some.inj again)).1

/-- A reference that begins behind the beginning of another one begins behind its end. -/
theorem behind (here : RefersAt text first name) (there : RefersAt text second other)
    (before : first < second) : first + (writeReference name).length ≤ second := by
  rcases here with ⟨isName, after, written⟩
  rcases there with ⟨-, tail, begun⟩
  apply Nat.le_of_not_lt
  intro inside
  -- Otherwise the sign of the second reference stands within the first one, behind its sign.
  have sign : text[second]? = some '$' := by
    rw [← Nat.add_zero second, ← List.getElem?_drop, begun]
    rfl
  have offset : second = first + ((second - first - 1) + 1) := by omega
  have small : second - first - 1 < ('{' :: name.toList ++ ['}']).length := by
    simp only [writeReference, List.length_append, List.length_cons, List.length_nil] at inside ⊢
    omega
  rw [offset, ← List.getElem?_drop, written, writeReference, List.cons_append, List.cons_append,
    List.getElem?_cons_succ, List.getElem?_append_left small] at sign
  exact sign_not_mem isName (List.mem_of_getElem? sign)

end RefersAt

theorem refersAt_append {front : List Char} {position : Nat} :
    RefersAt (front ++ rest) (front.length + position) name ↔ RefersAt rest position name := by
  rw [RefersAt, RefersAt, List.drop_length_add_append]

/-! ## The first reference of some kind -/

section First

variable {kind : String → Prop} {front : List Char}

/-- A front without references of a kind does not matter for the first one. -/
theorem firstReference_append
    (foreign : ∀ earlier < front.length, ∀ other, RefersAt (front ++ rest) earlier other →
      ¬kind other) :
    FirstReference kind (front ++ rest) name ↔ FirstReference kind rest name := by
  constructor
  · rintro ⟨position, here, isKind, first⟩
    have behind : front.length ≤ position := by
      apply Nat.le_of_not_lt
      intro inFront
      exact foreign position inFront name here isKind
    obtain ⟨offset, rfl⟩ := Nat.exists_eq_add_of_le behind
    refine ⟨offset, refersAt_append.mp here, isKind, ?_⟩
    intro earlier before other there
    exact first (front.length + earlier) (by omega) other (refersAt_append.mpr there)
  · rintro ⟨position, here, isKind, first⟩
    refine ⟨front.length + position, refersAt_append.mpr here, isKind, ?_⟩
    intro earlier before other there
    by_cases inFront : earlier < front.length
    · exact foreign earlier inFront other there
    · obtain ⟨offset, rfl⟩ := Nat.exists_eq_add_of_le (Nat.le_of_not_lt inFront)
      exact first offset (by omega) other (refersAt_append.mp there)

theorem firstReference_reference (isName : IsName name.toList) :
    FirstReference kind (writeReference name ++ rest) other ↔
      (kind name ∧ other = name) ∨ (¬kind name ∧ FirstReference kind rest other) := by
  have here : RefersAt (writeReference name ++ rest) 0 name := ⟨isName, rest, rfl⟩
  by_cases isKind : kind name
  · simp only [isKind, true_and, not_true_eq_false, false_and, or_false]
    constructor
    · rintro ⟨position, there, -, first⟩
      rcases Nat.eq_zero_or_pos position with rfl | later
      · exact there.name_eq here
      · exact absurd isKind (first 0 later name here)
    · rintro rfl
      exact ⟨0, here, isKind, fun _ before => absurd before (Nat.not_lt_zero _)⟩
  · simp only [isKind, false_and, false_or, not_false_eq_true, true_and]
    apply firstReference_append
    intro earlier inFront another there
    rcases Nat.eq_zero_or_pos earlier with rfl | later
    · rwa [there.name_eq here]
    · have behind := here.behind there later
      omega

theorem firstReference_char (absent : reference? (c :: rest) = none) :
    FirstReference kind (c :: rest) name ↔ FirstReference kind rest name := by
  apply @firstReference_append rest name kind [c]
  intro earlier inFront other there
  obtain rfl : earlier = 0 := by simpa using inFront
  rcases refersAt_iff.mp there with ⟨after, found⟩
  cases absent.symm.trans found

/-- The references found from left to right are those that stand in the text, in their order. -/
theorem find?_names_segments [DecidablePred kind] :
    ((segments text).filterMap Segment.name?).find? (decide <| kind ·) = some name ↔
      FirstReference kind text name := by
  -- The induction follows the scan: it goes on behind a reference or behind a single character.
  induction text using segments.induct with
  | case1 =>
      refine iff_of_false (by simp [segments]) ?_
      rintro ⟨position, ⟨-, after, written⟩, -⟩
      simp [writeReference] at written
  | case2 c rest chars after found ih =>
      rcases reference?_eq_some_iff.mp found with ⟨isName, written⟩
      have whole : c :: rest = writeReference (String.ofList chars) ++ after := by
        rw [written, writeReference, String.toList_ofList, List.append_assoc, List.singleton_append]
      rw [segments_cons_of_some found, whole,
        firstReference_reference (by rwa [String.toList_ofList]), ← ih]
      simp only [List.filterMap_cons, Segment.name?, List.find?_cons]
      by_cases isKind : kind (String.ofList chars)
      · simp [isKind, eq_comm]
      · simp [isKind]
  | case3 c rest absent ih =>
      rw [segments_cons_of_none absent, firstReference_char absent, ← ih]
      rfl

end First

theorem exists_refersAt {content : String} (name_mem : name ∈ references content) :
    ∃ position, RefersAt content.toList position name := by
  have found : ((references content).find? (decide <| · = name)).isSome = true :=
    List.find?_isSome.mpr ⟨name, name_mem, decide_eq_true rfl⟩
  rcases Option.isSome_iff_exists.mp found with ⟨other, first⟩
  rcases find?_names_segments.mp first with ⟨position, here, rfl, -⟩
  exact ⟨position, here⟩

/-! ## The substitution -/

section Names

variable {value? : String → Option String} {names : List String}

/-- The first name without a value is reported, whatever the values of the others are. -/
theorem substituteNames_eq_error_iff :
    substituteNames value? names text = .error name ↔
      names.find? (fun name => decide (value? name = none)) = some name := by
  induction names generalizing text with
  | nil => simp [substituteNames]
  | cons head rest ih =>
      rw [substituteNames, List.find?_cons]
      cases value? head with
      | none => simp
      | some value => simpa using ih

theorem substituteNames_congr {value'? : String → Option String}
    (same : ∀ name ∈ names, value'? name = value? name) :
    substituteNames value'? names text = substituteNames value? names text := by
  induction names generalizing text with
  | nil => rfl
  | cons head rest ih =>
      rw [substituteNames, substituteNames, same head List.mem_cons_self]
      cases value? head with
      | none => rfl
      | some value => exact ih fun name name_mem => same name (List.mem_cons_of_mem head name_mem)

end Names

theorem substituteNames_references_eq_error_iff {value? : String → Option String}
    {content : String} :
    substituteNames value? (references content) content.toList = .error name ↔
      FirstReference (value? · = none) content.toList name :=
  substituteNames_eq_error_iff.trans find?_names_segments

theorem prepare_eq_error_iff {environment : Environment} {content : String} {error : ConfigError} :
    prepare .enabled environment content = .error error ↔
      ∃ name, FirstReference (environment.text? · = none) content.toList name ∧
        error = .unsetVariable name := by
  simp only [← substituteNames_references_eq_error_iff, prepare, substitute]
  cases substituteNames environment.text? (references content) content.toList with
  | ok output =>
      change Except.ok (String.ofList output) = Except.error error ↔ _
      simp
  | error name =>
      change Except.error (ConfigError.unsetVariable name) = Except.error error ↔ _
      simp [eq_comm]

theorem prepare_of_unreferred (environment : Environment) {content : String}
    (unreferred : references content = []) :
    prepare .enabled environment content = .ok content := by
  rw [prepare, substitute, unreferred, substituteNames]
  change Except.ok (String.ofList content.toList) = Except.ok content
  rw [String.ofList_toList]

/-- A substitution fails exactly if a reference of the text has no value, and reports the first one
that has none. The references are all that stand in the text: since none overlaps another, to look
for them from left to right misses none. No other variable matters, so a text without references,
whatever looks like one in it, is given back in every environment; and so is every text where
nothing is to be substituted. -/
theorem prepare_of_content (environment : Environment) (content : String) :
    let text := content.toList
    (∀ error, prepare .enabled environment content = .error error ↔
      ∃ name, FirstReference (environment.text? · = none) text name ∧
        error = .unsetVariable name) ∧
    (∀ first second name other, RefersAt text first name → RefersAt text second other →
      first < second → first + (writeReference name).length ≤ second) ∧
    (∀ other : Environment, (∀ position name, RefersAt text position name →
        other.text? name = environment.text? name) →
      prepare .enabled other content = prepare .enabled environment content) ∧
    ((∀ position name, ¬RefersAt text position name) →
      prepare .enabled environment content = .ok content) ∧
    prepare .disabled environment content = .ok content := by
  intro text
  refine ⟨fun _ => prepare_eq_error_iff, fun _ _ _ _ => RefersAt.behind, ?_, ?_, rfl⟩
  · intro other agree
    rw [prepare, prepare, substitute, substitute, substituteNames_congr]
    intro name name_mem
    rcases exists_refersAt name_mem with ⟨position, here⟩
    exact agree position name here
  · intro none
    have unreferred : references content = [] := by
      apply List.eq_nil_iff_forall_not_mem.mpr
      intro name name_mem
      rcases exists_refersAt name_mem with ⟨position, here⟩
      exact none position name here
    exact prepare_of_unreferred environment unreferred

example :
    references "$$\x7bA\x7d $\x7b$\x7bB\x7d\x7d $\x7bC $\x7bD\x7d" = ["A", "B", "D"] := by
  decide +kernel

example (environment : Environment) :
    prepare .enabled environment "$\x7b\x7d $\x7b1A\x7d $\x7bA-B\x7d $A $\x7bA" =
      .ok "$\x7b\x7d $\x7b1A\x7d $\x7bA-B\x7d $A $\x7bA" :=
  prepare_of_unreferred environment (by decide +kernel)

end Vitals.Config
