import Mathlib.Data.List.Infix
import Mathlib.Logic.Relation
import Vitals.Probes.Mount
import Vitals.Proofs.Text.Parts

/-!
# The deepest mount point

Mount points are compared by their components and chosen by their length in bytes. The two agree for
mount points in their usual spelling: such a mount point is spelled from its components, so more
components make a longer text. Of the mount points that hold a path each holds the next one, since
all their components begin the same path; so the longest of them is the deepest. Slashes and points
that add no component to the path change nothing.
-/

namespace Vitals.Mount

/-- A mount point in its usual spelling: no slash behind a slash, none at the end but that of the
root, and no part that is a single point. -/
structure IsNormal (mount : String) : Prop where
  noRepeat : ¬['/', '/'] <:+: mount.toList
  noTrailing : mount.toList.getLast? = some '/' → mount = "/"
  noPoint : ['.'] ∉ mount.toList.splitOn '/'

/-- The mount point of a list that holds a path, and that every other one holds. -/
structure IsDeepest (path : String) (mounts : List String) (mount : String) : Prop where
  listed : mount ∈ mounts
  prefixOf : components mount <+: components path
  deepest : ∀ other ∈ mounts, components other <+: components path →
    components other <+: components mount ∧
      (other ≠ mount → (components other).length < (components mount).length)

/-- A longer spelling of a path: a slash behind a slash, a single point between slashes, or a slash
at the end. -/
inductive Redundant : List Char → List Char → Prop where
  | slash (front back : List Char) : Redundant (front ++ '/' :: back) (front ++ '/' :: '/' :: back)
  | point (front back : List Char) :
      Redundant (front ++ '/' :: back) (front ++ '/' :: '.' :: '/' :: back)
  | last {text : List Char} (nonempty : text ≠ []) : Redundant text (text ++ ['/'])

variable {mount other : String} {text first : List Char} {parts others : List (List Char)}

/-! ## Parts between slashes -/

theorem splitAtSlashes_cons {c : Char} {rest : List Char} (unlike : c ≠ '/')
    (split : splitAtSlashes rest = first :: parts) :
    splitAtSlashes (c :: rest) = (c :: first) :: parts := by
  rw [splitAtSlashes.eq_3 c rest unlike, split]

theorem splitAtSlashes_eq (text : List Char) : splitAtSlashes text = text.splitOn '/' := by
  induction text with
  | nil => rfl
  | cons c rest ih =>
      obtain ⟨first, parts, split⟩ := List.exists_cons_of_ne_nil (List.splitOn_ne_nil '/' rest)
      rw [List.splitOn_cons_eq_if_modifyHead, split]
      rw [split] at ih
      by_cases slash : c = '/'
      · rw [slash, splitAtSlashes, ih]
        rfl
      · rw [splitAtSlashes_cons slash ih, if_neg (by simpa using slash)]
        rfl

theorem exists_splitAtSlashes (text : List Char) :
    ∃ first parts, splitAtSlashes text = first :: parts :=
  List.exists_cons_of_ne_nil (splitAtSlashes_eq text ▸ List.splitOn_ne_nil '/' text)

theorem splitAtSlashes_append (front back : List Char) :
    splitAtSlashes (front ++ '/' :: back) = splitAtSlashes front ++ splitAtSlashes back := by
  simp only [splitAtSlashes_eq, List.splitOn_append_cons_self]

theorem slash_not_mem {part : List Char} (part_mem : part ∈ splitAtSlashes text) :
    '/' ∉ part := by
  induction text generalizing part with
  | nil => simp [List.mem_singleton.mp part_mem]
  | cons c rest ih =>
      by_cases slash : c = '/'
      · rw [slash, splitAtSlashes] at part_mem
        rcases List.mem_cons.mp part_mem with rfl | later
        · exact List.not_mem_nil
        · exact ih later
      · obtain ⟨first, parts, split⟩ := exists_splitAtSlashes rest
        rw [splitAtSlashes_cons slash split] at part_mem
        rw [split] at ih
        rcases List.mem_cons.mp part_mem with rfl | later
        · rw [List.mem_cons, not_or]
          exact ⟨Ne.symm slash, ih List.mem_cons_self⟩
        · exact ih (List.mem_cons_of_mem first later)

/-- Parts, each behind a slash. -/
def behindSlashes (parts : List (List Char)) : List Char := parts.flatMap fun part => '/' :: part

theorem behindSlashes_nil : behindSlashes [] = [] := rfl

theorem behindSlashes_cons (part : List Char) (parts : List (List Char)) :
    behindSlashes (part :: parts) = '/' :: (part ++ behindSlashes parts) := rfl

theorem behindSlashes_append (front back : List (List Char)) :
    behindSlashes (front ++ back) = behindSlashes front ++ behindSlashes back :=
  List.flatMap_append

theorem eq_append_behindSlashes (split : splitAtSlashes text = first :: parts) :
    text = first ++ behindSlashes parts := by
  have joined := Text.intercalate_cons ['/'] first parts
  rwa [← split, splitAtSlashes_eq, List.intercalate_splitOn] at joined

/-- The names of the parts that count. -/
def names (parts : List (List Char)) : List String :=
  (parts.filter fun part => part ≠ [] ∧ part ≠ ['.']).map String.ofList

theorem components_of_split {path : String} (split : splitAtSlashes path.toList = first :: parts) :
    components path =
      if first ≠ [] then String.ofList first :: names parts
      else if parts.isEmpty then [] else "/" :: names parts := by
  rw [components, split]
  rfl

/-! ## Redundant slashes and points -/

/-- Only the first part and the names behind it matter, if the path has a name or a slash. -/
theorem components_eq_of_splits {path other : String}
    (split : splitAtSlashes path.toList = first :: parts)
    (otherSplit : splitAtSlashes other.toList = first :: others)
    (begun : first ≠ [] ∨ parts ≠ [] ∧ others ≠ []) (same : names parts = names others) :
    components path = components other := by
  rw [components_of_split split, components_of_split otherSplit, same]
  rcases begun with named | ⟨nonempty, otherNonempty⟩
  · rw [if_pos named, if_pos named]
  · simp only [List.isEmpty_eq_false_iff.mpr nonempty, List.isEmpty_eq_false_iff.mpr otherNonempty]

theorem components_eq_of_redundant {path other : List Char} (redundant : Redundant path other) :
    components (String.ofList path) = components (String.ofList other) := by
  have within (front back added : List Char) (unnamed : names (splitAtSlashes added) = []) :
      components (String.ofList (front ++ '/' :: back)) =
        components (String.ofList (front ++ '/' :: (added ++ '/' :: back))) := by
    obtain ⟨first, parts, split⟩ := exists_splitAtSlashes front
    apply @components_eq_of_splits first (parts ++ splitAtSlashes back)
      (parts ++ (splitAtSlashes added ++ splitAtSlashes back))
    · rw [String.toList_ofList, splitAtSlashes_append, split, List.cons_append]
    · rw [String.toList_ofList, splitAtSlashes_append, splitAtSlashes_append, split,
        List.cons_append]
    · exact Or.inr (by simp [splitAtSlashes_eq])
    · simp only [names, List.map_eq_nil_iff] at unnamed
      simp only [names, List.filter_append, unnamed, List.nil_append]
  cases redundant with
  | slash front back => exact within front back [] rfl
  | point front back => exact within front back ['.'] rfl
  | last nonempty =>
      obtain ⟨first, parts, split⟩ := exists_splitAtSlashes path
      apply @components_eq_of_splits first parts (parts ++ [[]])
      · rw [String.toList_ofList, split]
      · rw [String.toList_ofList, splitAtSlashes_append, split]
        rfl
      · by_cases alone : parts = []
        · left
          rintro rfl
          rw [eq_append_behindSlashes split, alone] at nonempty
          exact nonempty rfl
        · exact Or.inr ⟨alone, by simp⟩
      · simp [names]

theorem components_eq_of_eqvGen {path other : List Char}
    (alike : Relation.EqvGen Redundant path other) :
    components (String.ofList path) = components (String.ofList other) := by
  induction alike with
  | rel path other redundant => exact components_eq_of_redundant redundant
  | refl path => rfl
  | symm path other _ ih => exact ih.symm
  | trans path middle other _ _ first second => exact first.trans second

/-! ## Usual spellings -/

/-- The spelling of components: a slash between any two, and that of the root in front. -/
def spell : List String → List Char
  | [] => []
  | first :: rest =>
      if first = "/" ∧ rest ≠ [] then behindSlashes (rest.map String.toList)
      else first.toList ++ behindSlashes (rest.map String.toList)

/-- Every part of a usual spelling behind a slash counts, but that behind the slash of the root. -/
theorem IsNormal.counts (normal : IsNormal mount) (inner : mount ≠ "/")
    (split : splitAtSlashes mount.toList = first :: parts) {part : List Char}
    (part_mem : part ∈ parts) : part ≠ [] ∧ part ≠ ['.'] := by
  have parts_mem : part ∈ mount.toList.splitOn '/' := by
    rw [← splitAtSlashes_eq, split]
    exact List.mem_cons_of_mem first part_mem
  refine ⟨?_, ?_⟩
  · rintro rfl
    obtain ⟨before, after, rfl⟩ := List.append_of_mem part_mem
    have written := eq_append_behindSlashes split
    rw [behindSlashes_append, behindSlashes_cons, ← List.append_assoc, List.nil_append] at written
    -- An empty part is a slash at the end if it is the last one, and otherwise a repeated slash.
    cases after with
    | nil =>
        apply inner
        apply normal.noTrailing
        rw [written, behindSlashes_nil, List.getLast?_append]
        rfl
    | cons next more =>
        apply normal.noRepeat
        rw [written, behindSlashes_cons]
        exact ⟨first ++ behindSlashes before, next ++ behindSlashes more, by simp⟩
  · rintro rfl
    exact normal.noPoint parts_mem

theorem spell_components (normal : IsNormal mount) : spell (components mount) = mount.toList := by
  by_cases root : mount = "/"
  · rw [root]
    decide +kernel
  · obtain ⟨first, parts, split⟩ := exists_splitAtSlashes mount.toList
    have written := eq_append_behindSlashes split
    have all : names parts = parts.map String.ofList := by
      rw [names, List.filter_eq_self.mpr]
      intro part part_mem
      exact decide_eq_true (normal.counts root split part_mem)
    have back : (parts.map String.ofList).map String.toList = parts := by simp
    rw [components_of_split split, all, written]
    by_cases named : first = []
    -- A first part that is empty stands in front of the slash of the root.
    · cases parts with
      | nil => simp [named, spell, behindSlashes_nil]
      | cons part more => simp [named, spell]
    · have unlike : String.ofList first ≠ "/" := by
        intro same
        have slash : first = ['/'] := by
          rw [← @String.toList_ofList first, same]
          rfl
        exact slash_not_mem (split ▸ List.mem_cons_self) (slash ▸ List.mem_singleton_self '/')
      rw [if_pos named, spell, if_neg (fun both => unlike both.1), back, String.toList_ofList]

theorem spell_append_prefix (front back : List String) : spell front <+: spell (front ++ back) := by
  cases front with
  | nil => exact List.nil_prefix
  | cons first rest =>
      rw [List.cons_append, spell, spell, List.map_append, behindSlashes_append]
      by_cases root : first = "/"
      · cases rest with
        | cons name more => simp [root]
        | nil =>
            cases back with
            | nil => simp
            | cons name more => simp [root, behindSlashes_nil, behindSlashes_cons]
      · rw [if_neg (fun both => root both.1), if_neg (fun both => root both.1),
          ← List.append_assoc]
        exact List.prefix_append _ _

theorem eq_of_components_eq (normal : IsNormal mount) (otherNormal : IsNormal other)
    (same : components mount = components other) : mount = other := by
  apply String.toList_injective
  rw [← spell_components normal, ← spell_components otherNormal, same]

/-- A mount point is spelled shorter than any other one whose components it begins. -/
theorem utf8ByteSize_lt (normal : IsNormal mount) (otherNormal : IsNormal other)
    (begins : components mount <+: components other) (unlike : mount ≠ other) :
    mount.utf8ByteSize < other.utf8ByteSize := by
  rcases begins with ⟨more, longer⟩
  have spelled := spell_append_prefix (components mount) more
  rw [longer, spell_components normal, spell_components otherNormal] at spelled
  rcases spelled with ⟨rest, written⟩
  have whole : other = mount ++ String.ofList rest := by
    apply String.toList_injective
    rw [← written, String.toList_append, String.toList_ofList]
  have nonempty : (String.ofList rest).utf8ByteSize ≠ 0 := by
    intro none
    rw [String.utf8ByteSize_eq_zero_iff] at none
    rw [none, String.append_empty] at whole
    exact unlike whole.symm
  rw [whole, String.utf8ByteSize_append]
  omega

/-! ## The choice -/

section Choice

variable {path best : String} {mounts : List String}

theorem holds_iff : holds path mount = true ↔ components mount <+: components path :=
  List.isPrefixOf_iff_prefix

theorem foldl_longer_mem (best : String) (mounts : List String) :
    mounts.foldl longer best ∈ best :: mounts := by
  induction mounts generalizing best with
  | nil => exact List.mem_cons_self
  | cons mount rest ih =>
      rcases List.mem_cons.mp (ih (longer best mount)) with chosen | later
      · rw [List.foldl_cons, chosen, longer]
        split <;> simp
      · exact List.mem_cons_of_mem best (List.mem_cons_of_mem mount later)

theorem le_foldl_longer (mount_mem : mount ∈ best :: mounts) :
    mount.utf8ByteSize ≤ (mounts.foldl longer best).utf8ByteSize := by
  induction mounts generalizing best mount with
  | nil => rw [List.mem_singleton.mp mount_mem, List.foldl_nil]
  | cons next rest ih =>
      have bound := @ih (longer best next) (longer best next) List.mem_cons_self
      have bestNext : best.utf8ByteSize ≤ (longer best next).utf8ByteSize ∧
          next.utf8ByteSize ≤ (longer best next).utf8ByteSize := by
        unfold longer
        split <;> omega
      rw [List.foldl_cons]
      rcases List.mem_cons.mp mount_mem with rfl | later
      · exact Nat.le_trans bestNext.1 bound
      · rcases List.mem_cons.mp later with rfl | behind
        · exact Nat.le_trans bestNext.2 bound
        · exact ih (List.mem_cons_of_mem _ behind)

theorem deepest?_eq_none_iff :
    deepest? path mounts = none ↔ ∀ mount ∈ mounts, ¬components mount <+: components path := by
  have empty : deepest? path mounts = none ↔ mounts.filter (holds path) = [] := by
    unfold deepest?
    cases mounts.filter (holds path) <;> simp
  simp only [empty, List.filter_eq_nil_iff, holds_iff]

/-- What is chosen is on the list, holds the path, and no other one that does is longer. -/
theorem longest_of_deepest? (chosen : deepest? path mounts = some mount) :
    mount ∈ mounts ∧ components mount <+: components path ∧
      ∀ other ∈ mounts, components other <+: components path →
        other.utf8ByteSize ≤ mount.utf8ByteSize := by
  unfold deepest? at chosen
  split at chosen
  · cases chosen
  · next first rest candidates =>
      have isCandidate {mount : String} : mount ∈ first :: rest ↔
          mount ∈ mounts ∧ components mount <+: components path := by
        rw [← candidates, List.mem_filter, holds_iff]
      obtain rfl := Option.some.inj chosen
      rcases isCandidate.mp (foldl_longer_mem first rest) with ⟨listed, prefixOf⟩
      refine ⟨listed, prefixOf, ?_⟩
      intro other other_mem otherPrefix
      exact le_foldl_longer (isCandidate.mpr ⟨other_mem, otherPrefix⟩)

variable (normal : ∀ mount ∈ mounts, IsNormal mount)
include normal

/-- Of two mount points that hold a path one holds the other, and the longer one is the deeper. -/
theorem isDeepest_of_deepest? (chosen : deepest? path mounts = some mount) :
    IsDeepest path mounts mount := by
  rcases longest_of_deepest? chosen with ⟨listed, prefixOf, longest⟩
  refine ⟨listed, prefixOf, ?_⟩
  intro other other_mem otherPrefix
  by_cases same : other = mount
  · subst same
    exact ⟨List.prefix_rfl, fun unlike => absurd rfl unlike⟩
  · have begins : components other <+: components mount := by
      rcases List.prefix_or_prefix_of_prefix otherPrefix prefixOf with begins | behind
      · exact begins
      · have shorter := utf8ByteSize_lt (normal mount listed) (normal other other_mem) behind
          (Ne.symm same)
        have bound := longest other other_mem otherPrefix
        omega
    refine ⟨begins, fun _ => Nat.lt_of_le_of_ne begins.length_le ?_⟩
    intro sameLength
    exact same (eq_of_components_eq (normal other other_mem) (normal mount listed)
      (begins.eq_of_length sameLength))

theorem IsDeepest.eq (here : IsDeepest path mounts mount) (too : IsDeepest path mounts other) :
    mount = other := by
  have forth := (too.deepest mount here.listed here.prefixOf).1
  have back := (here.deepest other too.listed too.prefixOf).1
  exact eq_of_components_eq (normal mount here.listed) (normal other too.listed)
    (forth.eq_of_length (Nat.le_antisymm forth.length_le back.length_le))

theorem deepest?_eq_some_iff :
    deepest? path mounts = some mount ↔ IsDeepest path mounts mount := by
  constructor
  · exact isDeepest_of_deepest? normal
  · intro isDeepest
    cases chosen : deepest? path mounts with
    | none =>
        exact absurd isDeepest.prefixOf
          (deepest?_eq_none_iff.mp chosen mount isDeepest.listed)
    | some other => rw [isDeepest.eq normal (isDeepest_of_deepest? normal chosen)]

end Choice

theorem isDeepest_congr {path : String} {mounts others : List String}
    (same : ∀ mount, mount ∈ others ↔ mount ∈ mounts) :
    IsDeepest path others mount ↔ IsDeepest path mounts mount := by
  constructor
  · rintro ⟨listed, prefixOf, deepest⟩
    exact ⟨(same mount).mp listed, prefixOf,
      fun other other_mem => deepest other ((same other).mpr other_mem)⟩
  · rintro ⟨listed, prefixOf, deepest⟩
    exact ⟨(same mount).mpr listed, prefixOf,
      fun other other_mem => deepest other ((same other).mp other_mem)⟩

/-- No mount point is chosen exactly if none holds the path, and otherwise the deepest one that
does: all components of any other one that holds the path begin its components. The choice depends
on which mount points there are, not on their order, and on the components of the path, not on
slashes and points that add none. -/
theorem deepest?_of_normal (path : String) (mounts : List String)
    (normal : ∀ mount ∈ mounts, IsNormal mount) :
    (deepest? path mounts = none ↔ ∀ mount ∈ mounts, ¬components mount <+: components path) ∧
    (∀ mount, deepest? path mounts = some mount ↔ IsDeepest path mounts mount) ∧
    (∀ others, (∀ mount, mount ∈ others ↔ mount ∈ mounts) →
      deepest? path others = deepest? path mounts) ∧
    (∀ other : String, Relation.EqvGen Redundant path.toList other.toList →
      deepest? other mounts = deepest? path mounts) := by
  refine ⟨deepest?_eq_none_iff, fun _ => deepest?_eq_some_iff normal, ?_, ?_⟩
  · intro others same
    have othersNormal : ∀ mount ∈ others, IsNormal mount :=
      fun mount mount_mem => normal mount ((same mount).mp mount_mem)
    apply Option.ext
    intro mount
    rw [deepest?_eq_some_iff othersNormal, deepest?_eq_some_iff normal]
    exact isDeepest_congr same
  · intro other alike
    have sameComponents := components_eq_of_eqvGen alike
    rw [String.ofList_toList, String.ofList_toList] at sameComponents
    have sameHolds : holds other = holds path := by
      funext mount
      rw [holds, holds, sameComponents]
    rw [deepest?, deepest?, sameHolds]

theorem deepest?_of_nested_mounts :
    let mounts := ["/var/lib", "/", "/var"]
    IsDeepest "/var/lib/postgres" mounts "/var/lib" ∧
      deepest? "/var//lib/postgres" mounts = some "/var/lib" := by
  intro mounts
  have normal : ∀ mount ∈ mounts, IsNormal mount := by
    simp only [mounts, List.forall_mem_cons]
    exact ⟨⟨by decide, by decide, by decide⟩, ⟨by decide, by decide, by decide⟩,
      ⟨by decide, by decide, by decide⟩, List.forall_mem_nil _⟩
  have chosen : deepest? "/var/lib/postgres" mounts = some "/var/lib" := by decide +kernel
  have longer : Redundant "/var/lib/postgres".toList "/var//lib/postgres".toList :=
    .slash "/var".toList "lib/postgres".toList
  rcases deepest?_of_normal "/var/lib/postgres" mounts normal with ⟨-, deepest, -, respelled⟩
  refine ⟨(deepest "/var/lib").mp chosen, ?_⟩
  rw [respelled "/var//lib/postgres" (.rel _ _ longer), chosen]

example : deepest? "/var/lib" ["/", "/var/li"] = some "/" := by decide +kernel

end Vitals.Mount
