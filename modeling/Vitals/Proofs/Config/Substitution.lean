import Vitals.Config.Loading
import Vitals.Proofs.Config.Replacing

/-!
# Substitution, one variable after the other

The references of a text are replaced one after the other, each everywhere in the text as it is by
then. So a value is looked at again, for the variables that follow, and so is the text that it
becomes part of. This is a single pass unless something arises on the way that is read as a
reference though the given text has none there.
-/

namespace Vitals.Config

/-- The parts when the references to some names are filled in. -/
def fillAll (value? : String → Option String) : List String → List Segment → List Segment
  | [], parts => parts
  | name :: rest, parts => fillAll value? rest (fillIn name ((value? name).getD "") parts)

/-- As names are filled in one after the other, none arises when it is its turn, unless it is
replaced by itself. -/
def noneArises (value? : String → Option String) : List String → List Segment → Bool
  | [], _ => true
  | name :: rest, parts =>
      let value := (value? name).getD ""
      (!arises name parts || value.toList == writeReference name) &&
        noneArises value? rest (fillIn name value parts)

section Names

variable {value? : String → Option String} {names : List String} {parts : List Segment}

theorem substituteNames_cons {name value : String} (hasValue : value? name = some value)
    (rest : List String) (text : List Char) :
    substituteNames value? (name :: rest) text =
      substituteNames value? rest (replaceAll (writeReference name) value.toList text) := by
  rw [substituteNames, hasValue]

theorem substituteNames_of_set (set : ∀ name ∈ names, (value? name).isSome = true)
    (text : List Char) : ∃ output, substituteNames value? names text = .ok output := by
  induction names generalizing text with
  | nil => exact ⟨text, rfl⟩
  | cons name rest ih =>
      rcases Option.isSome_iff_exists.mp (set name List.mem_cons_self) with ⟨value, hasValue⟩
      rw [substituteNames_cons hasValue]
      exact ih (fun other other_mem => set other (List.mem_cons_of_mem _ other_mem)) _

/-- No reference arises exactly if, after each name, the text is the given one with the references
so far filled in. -/
theorem noneArises_iff (isName : ∀ name ∈ names, IsName name.toList)
    (set : ∀ name ∈ names, (value? name).isSome = true)
    (named : ∀ other, .reference other ∈ parts → IsName other) :
    noneArises value? names parts = true ↔
      ∀ done rest, names = done ++ rest →
        substituteNames value? done (writeAll parts) =
          .ok (writeAll (fillAll value? done parts)) := by
  induction names generalizing parts with
  | nil =>
      refine iff_of_true rfl ?_
      intro done rest split
      rw [(List.append_eq_nil_iff.mp split.symm).1]
      rfl
  | cons name rest ih =>
      rcases Option.isSome_iff_exists.mp (set name List.mem_cons_self) with ⟨value, hasValue⟩
      have step := @replaceAll_eq_iff name value parts (isName name List.mem_cons_self) named
      -- The induction is on the names, and the parts are those with the first one filled in.
      have later := @ih (fillIn name value parts)
        (fun other other_mem => isName other (List.mem_cons_of_mem _ other_mem))
        (fun other other_mem => set other (List.mem_cons_of_mem _ other_mem))
        (fun other other_mem => named other (mem_of_mem_fillIn other_mem).1)
      have first : noneArises value? (name :: rest) parts = true ↔
          (arises name parts = true → value.toList = writeReference name) ∧
            noneArises value? rest (fillIn name value parts) = true := by
        simp only [noneArises, hasValue, Option.getD_some, Bool.and_eq_true, Bool.or_eq_true,
          Bool.not_eq_true', beq_iff_eq]
        cases arises name parts <;> simp
      rw [first, later, ← step]
      constructor
      · rintro ⟨once, always⟩ done others split
        cases done with
        | nil => rfl
        | cons head more =>
            obtain ⟨rfl, rfl⟩ := List.cons_eq_cons.mp split
            rw [substituteNames_cons hasValue, once, fillAll, hasValue]
            exact always more others rfl
      · intro always
        have once : replaceAll (writeReference name) value.toList (writeAll parts) =
            writeAll (fillIn name value parts) := by
          have alone := always [name] rest rfl
          rw [substituteNames_cons hasValue, fillAll, hasValue] at alone
          exact Except.ok.inj alone
        refine ⟨once, ?_⟩
        intro done others split
        have both := always (name :: done) others (by rw [split]; rfl)
        rw [substituteNames_cons hasValue, once, fillAll, hasValue] at both
        exact both

/-- To fill in a reference changes nothing about what a single pass makes of the parts. -/
theorem replaced_fillIn (name : String) (parts : List Segment) :
    (fillIn name ((value? name).getD "") parts).flatMap (·.replaced value?) =
      parts.flatMap (·.replaced value?) := by
  rw [fillIn, List.flatMap_assoc]
  congr 1
  funext part
  cases part with
  | char c => rfl
  | reference other =>
      rw [Segment.fillIn]
      split
      · next own =>
          simp only [Segment.replaced, own, List.flatMap_map]
          exact List.flatMap_singleton' _
      · exact List.append_nil _

/-- When all references are filled in, a single pass has been made. -/
theorem writeAll_fillAll (known : ∀ other, .reference other ∈ parts → String.ofList other ∈ names) :
    writeAll (fillAll value? names parts) = parts.flatMap (·.replaced value?) := by
  induction names generalizing parts with
  | nil =>
      rw [fillAll, writeAll, List.flatMap_def, List.flatMap_def]
      congr 1
      apply List.map_congr_left
      intro part part_mem
      cases part with
      | char c => rfl
      | reference other => exact absurd (known other part_mem) List.not_mem_nil
  | cons name rest ih =>
      rw [fillAll, ih, replaced_fillIn]
      intro other other_mem
      rcases mem_of_mem_fillIn other_mem with ⟨old, unlike⟩
      exact (List.mem_cons.mp (known other old)).resolve_left unlike

end Names

section Plain

variable {name value : String} {parts : List Segment}

/-- What comes next could continue the sign of a reference: an opening brace, or a value. -/
def opens : List Segment → Bool
  | [] => false
  | .char c :: _ => c == '{'
  | .reference _ :: _ => true

/-- The sign of a reference occurs in references only, or before something else than an opening
brace or a reference. -/
def plain : List Segment → Bool
  | [] => true
  | .char c :: rest => !(c == '$' && opens rest) && plain rest
  | .reference _ :: rest => plain rest

theorem arises_of_plain (isPlain : plain parts = true) : arises name parts = false := by
  induction parts with
  | nil => rfl
  | cons part rest ih =>
      cases part with
      | reference other => exact ih isPlain
      | char c =>
          rw [plain, Bool.and_eq_true] at isPlain
          rw [arises, ih isPlain.2, Bool.or_false, Bool.eq_false_iff, ne_eq,
            List.isPrefixOf_iff_prefix]
          intro begins
          rcases List.cons_prefix_cons.mp begins with ⟨rfl, later⟩
          have closed : opens rest = false := by simpa using isPlain.1
          cases rest with
          | nil => exact absurd (List.prefix_nil.mp later) (List.cons_ne_nil _ _)
          | cons next more =>
              cases next with
              | reference other => cases closed
              | char d =>
                  rcases List.cons_prefix_cons.mp later with ⟨rfl, -⟩
                  cases closed

theorem opens_fillIn (closed : opens parts = false) : opens (fillIn name value parts) = false := by
  cases parts with
  | nil => rfl
  | cons part rest =>
      cases part with
      | char c => exact closed
      | reference other => cases closed

theorem plain_chars_append {chars : List Char} (unsigned : '$' ∉ chars)
    (isPlain : plain parts = true) : plain (chars.map .char ++ parts) = true := by
  induction chars with
  | nil => exact isPlain
  | cons c more ih =>
      rw [List.mem_cons, not_or] at unsigned
      have unlike : (c == '$') = false := by simpa using Ne.symm unsigned.1
      rw [List.map_cons, List.cons_append, plain, unlike, ih unsigned.2]
      rfl

/-- A value without the sign of a reference keeps the parts plain. -/
theorem plain_fillIn (unsigned : '$' ∉ value.toList) (isPlain : plain parts = true) :
    plain (fillIn name value parts) = true := by
  induction parts with
  | nil => rfl
  | cons part rest ih =>
      rw [fillIn_cons]
      cases part with
      | reference other =>
          rw [Segment.fillIn]
          split
          · exact plain_chars_append unsigned (ih isPlain)
          · exact ih isPlain
      | char c =>
          rw [plain, Bool.and_eq_true] at isPlain
          rw [Segment.fillIn, List.singleton_append, plain, Bool.and_eq_true]
          refine ⟨?_, ih isPlain.2⟩
          cases opened : opens rest with
          | false => simp [opens_fillIn opened]
          | true =>
              have unlike : (c == '$') = false := by simpa [opened] using isPlain.1
              simp [unlike]

theorem noneArises_of_plain {value? : String → Option String} {names : List String}
    (unsigned : ∀ name ∈ names, '$' ∉ ((value? name).getD "").toList)
    (isPlain : plain parts = true) : noneArises value? names parts = true := by
  induction names generalizing parts with
  | nil => rfl
  | cons name rest ih =>
      have still := @plain_fillIn name _ _ (unsigned name List.mem_cons_self) isPlain
      have later := ih (fun other other_mem => unsigned other (List.mem_cons_of_mem _ other_mem))
        still
      simp only [noneArises, arises_of_plain isPlain, later, Bool.not_false, Bool.true_or,
        Bool.and_self]

end Plain

theorem mem_references {content name : String} :
    name ∈ references content ↔
      ∃ chars, .reference chars ∈ segments content.toList ∧ String.ofList chars = name := by
  rw [references, List.mem_filterMap]
  constructor
  · rintro ⟨part, part_mem, named⟩
    cases part with
    | char c => cases named
    | reference chars => exact ⟨chars, part_mem, Option.some.inj named⟩
  · rintro ⟨chars, chars_mem, rfl⟩
    exact ⟨_, chars_mem, rfl⟩

/-- Where all variables are set, the substitution succeeds. It is a single pass if no value, on its
own or with the text around it, makes a reference that a later step replaces; and after each step
the text is the given one with the references so far filled in exactly if this is so. It is so
whenever no value has the sign of a reference and the text has it in references only, or before
something else than an opening brace or a reference. -/
theorem prepare_of_set (environment : Environment) (content : String)
    (set : ∀ name ∈ references content, (environment.text? name).isSome = true) :
    let names := references content
    let parts := segments content.toList
    ∃ output, prepare .enabled environment content = .ok output ∧
      (noneArises environment.text? names parts = true →
        SinglePass environment.text? content.toList output.toList) ∧
      (noneArises environment.text? names parts = true ↔
        ∀ done rest, names = done ++ rest →
          substituteNames environment.text? done content.toList =
            .ok (writeAll (fillAll environment.text? done parts))) ∧
      (plain parts = true →
        (∀ name ∈ names, ∀ value, environment.text? name = some value → '$' ∉ value.toList) →
          noneArises environment.text? names parts = true) := by
  intro names parts
  have named : ∀ other, .reference other ∈ parts → IsName other :=
    fun _ other_mem => isName_of_mem_segments other_mem
  have isName : ∀ name ∈ names, IsName name.toList := by
    intro name name_mem
    rcases mem_references.mp name_mem with ⟨chars, chars_mem, rfl⟩
    rw [String.toList_ofList]
    exact named chars chars_mem
  have steps := noneArises_iff isName set named
  rw [writeAll_segments] at steps
  rcases substituteNames_of_set set content.toList with ⟨output, substituted⟩
  refine ⟨String.ofList output, ?_, ?_, steps, ?_⟩
  · rw [prepare, substitute, substituted]
    rfl
  · intro none
    have filled := steps.mp none names [] (List.append_nil _).symm
    rw [substituted, writeAll_fillAll fun other other_mem =>
      mem_references.mpr ⟨other, other_mem, rfl⟩] at filled
    rw [String.toList_ofList, Except.ok.inj filled]
    apply singlePass_replaced
    intro chars chars_mem
    exact set _ (mem_references.mpr ⟨chars, chars_mem, rfl⟩)
  · intro isPlain unsigned
    apply noneArises_of_plain _ isPlain
    intro name name_mem
    rcases Option.isSome_iff_exists.mp (set name name_mem) with ⟨value, hasValue⟩
    rw [hasValue]
    exact unsigned name name_mem value hasValue

theorem prepare_of_later_value :
    let environment : Environment := ⟨[("A", "x".toUTF8), ("B", "${A}".toUTF8)], ""⟩
    ∃ output, prepare .enabled environment "${A}-${B}" = .ok output ∧
      SinglePass environment.text? "${A}-${B}".toList output.toList := by
  intro environment
  rcases prepare_of_set environment "${A}-${B}" (by decide +kernel) with
    ⟨output, prepared, single, -⟩
  exact ⟨output, prepared, single (by decide +kernel)⟩

/-- The value of a variable is looked at again for the variables that follow. -/
theorem rescans_earlier_value :
    ¬∀ (environment : Environment) (content : String),
      (∀ name ∈ references content, (environment.text? name).isSome = true) →
        ∃ output, prepare .enabled environment content = .ok output ∧
          SinglePass environment.text? content.toList output.toList := by
  intro claim
  let environment : Environment := ⟨[("A", "${B}".toUTF8), ("B", "x".toUTF8)], ""⟩
  rcases claim environment "${A}${B}" (by decide +kernel) with ⟨output, prepared, single⟩
  have rescanned : (prepare .enabled environment "${A}${B}").toOption = some "xx" := by
    decide +kernel
  rw [prepared] at rescanned
  obtain rfl := Option.some.inj rescanned
  have replaced := single.output_eq
  revert replaced
  decide +kernel

end Vitals.Config
