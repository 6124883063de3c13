import Vitals.Proofs.Data.Entries
import Vitals.Result

/-!
# Reading whatever the order of entries

A document library is free to hold the entries of a table in an order of its own: sorted by key, or
plain values in front of tables. `Value.Reordered depth` relates a tree to the trees that differ
from it in no more than that, in the tables of its outermost `depth` levels.

A tree reads as a value if every reordering of it is read as that value. Texts, numbers and flags
read as themselves, a list reads as the list of what its items read as, and a record is read field
by field: `Record.Holds` says which fields of a record are where.
-/

namespace Vitals

open List (Forall₂)

variable {α β : Type}

namespace Value

/-- The same tree, but for the order of entries in the tables of its outermost levels. -/
def Reordered : ℕ → Value → Value → Prop
  | depth + 1, .list items, tree =>
      ∃ others, tree = .list others ∧ Forall₂ (Reordered depth) items others
  | depth + 1, .table entries, tree =>
      ∃ others, tree = .table others ∧ SameKeys (Reordered depth) entries others
  | _, value, tree => tree = value

/-! ## What becomes of a tree -/

variable {depth : ℕ}

theorem Reordered.refl (depth : ℕ) (value : Value) : value.Reordered depth value := by
  induction depth generalizing value with
  | zero => rfl
  | succ depth ih =>
      cases value with
      | list items => exact ⟨items, rfl, List.forall₂_same.mpr fun item _ => ih item⟩
      | table entries =>
          exact ⟨entries, rfl, entries,
            List.forall₂_same.mpr fun entry _ => ⟨rfl, ih entry.2⟩, .rfl⟩
      | _ => rfl

theorem Reordered.list {items : List Value} {tree : Value}
    (same : (Value.list items).Reordered depth tree) :
    ∃ others, tree = .list others ∧ Forall₂ (Reordered (depth - 1)) items others := by
  cases depth with
  | zero => exact ⟨items, same, List.forall₂_same.mpr fun item _ => Reordered.refl 0 item⟩
  | succ depth => exact same

theorem Reordered.table {entries : List (String × Value)} {tree : Value}
    (same : (Value.table entries).Reordered depth tree) :
    ∃ others, tree = .table others ∧ SameKeys (Reordered (depth - 1)) entries others := by
  cases depth with
  | zero =>
      refine ⟨entries, same, entries, List.forall₂_same.mpr fun entry _ => ⟨rfl, ?_⟩, .rfl⟩
      exact Reordered.refl 0 entry.2
  | succ depth => exact same

theorem Reordered.text {content : String} {tree : Value}
    (same : (Value.text content).Reordered depth tree) : tree = .text content := by
  cases depth <;> exact same

theorem Reordered.null {tree : Value} (same : Value.null.Reordered depth tree) : tree = .null := by
  cases depth <;> exact same

theorem areReadable_iff {items : List Value} :
    areReadable items = true ↔ ∀ item ∈ items, item.isReadable = true := by
  induction items with
  | nil => simp [areReadable]
  | cons item rest ih => simp [areReadable, ih]

theorem entriesReadable_iff {entries : List (String × Value)} :
    entriesReadable entries = true ↔ ∀ entry ∈ entries, entry.2.isReadable = true := by
  induction entries with
  | nil => simp [entriesReadable]
  | cons entry rest ih => simp [entriesReadable, ih]

theorem Reordered.isReadable {value tree : Value} (same : value.Reordered depth tree)
    (readable : value.isReadable = true) : tree.isReadable = true := by
  induction depth generalizing value tree with
  | zero => exact same ▸ readable
  | succ depth ih =>
      cases value with
      | list items =>
          obtain ⟨others, rfl, each⟩ := same
          rw [Value.isReadable, areReadable_iff] at readable ⊢
          intro other found
          obtain ⟨i, inside, rfl⟩ := List.getElem_of_mem found
          have inside' : i < items.length := each.length_eq ▸ inside
          exact ih (each.get inside' inside) (readable _ (List.getElem_mem inside'))
      | table entries =>
          obtain ⟨others, rfl, keys⟩ := same
          rw [Value.isReadable, entriesReadable_iff] at readable ⊢
          intro other found
          obtain ⟨value, earlier, relation⟩ := keys.exists_of_mem_right found
          exact ih relation (readable _ earlier)
      | _ => exact same ▸ readable

theorem entriesReadable_of_sameKeys {entries others : List (String × Value)}
    (same : SameKeys (Reordered depth) entries others)
    (readable : entriesReadable entries = true) : entriesReadable others = true := by
  rw [entriesReadable_iff] at readable ⊢
  intro other found
  obtain ⟨value, earlier, relation⟩ := same.exists_of_mem_right found
  exact relation.isReadable (readable _ earlier)

/-! ## What a tree reads as -/

/-- Every reordering of a tree is read as one value. -/
def Reads (depth : ℕ) (read? : Value → Option α) (value : Value) (result : α) : Prop :=
  ∀ tree, value.Reordered depth tree → read? tree = some result

theorem reads_text (content : String) : Reads depth toText? (.text content) content := by
  cases depth <;> rintro _ rfl <;> rfl

theorem reads_bool (flag : Bool) : Reads depth toBool? (.bool flag) flag := by
  cases depth <;> rintro _ rfl <;> rfl

theorem reads_float (number : Float) : Reads depth toFloat? (.float number) number := by
  cases depth <;> rintro _ rfl <;> rfl

theorem reads_nat {bound number : ℕ} (fits : number < bound) :
    Reads depth (toNat? bound) (.ofNat number) number := by
  cases depth <;> rintro _ rfl <;> simp [toNat?, ofNat, fits]

theorem Reads.map {read? : Value → Option α} {value : Value} {result : α}
    (reads : Reads depth read? value result) (f : α → β) :
    Reads depth (fun tree => (read? tree).map f) value (f result) := by
  intro tree same
  simp [reads tree same]

theorem reads_list {read? : Value → Option α} {write : β → Value} {result : β → α}
    {sources : List β}
    (each : ∀ source ∈ sources, Reads (depth - 1) read? (write source) (result source)) :
    Reads depth (toList? read?) (.list (sources.map write)) (sources.map result) := by
  intro tree same
  obtain ⟨others, rfl, items⟩ := same.list
  rw [List.forall₂_map_left_iff] at items
  rw [toList?]
  clear same
  induction items with
  | nil => rfl
  | cons first _ ih =>
      rw [List.forall_mem_cons] at each
      simp [each.1 _ first, ih each.2]

/-! ## Fields that are left out -/

@[simp]
theorem lookup_entry {name key : String} {value? : Option Value} :
    (Value.entry? name value?).lookup key = if key = name then value? else none := by
  cases value? with
  | none => simp [Value.entry?]
  | some value =>
      by_cases same : key = name
      · simp [Value.entry?, same]
      · simp [Value.entry?, List.lookup_cons, beq_eq_false_iff_ne.mpr same, same]

@[simp]
theorem lookup_entry_append {name key : String} {value? : Option Value}
    {rest : List (String × Value)} : (Value.entry? name value? ++ rest).lookup key =
      if key = name then value?.or (rest.lookup key) else rest.lookup key := by
  rw [List.lookup_append, lookup_entry]
  split <;> simp

end Value

/-! ## Records -/

namespace Record

open Value (Reordered Reads)

/-- The known fields of a record are those of some entries, each reordered. -/
def Holds (depth : ℕ) (record : Record) (names : List String)
    (entries : List (String × Value)) : Prop :=
  ∀ name ∈ names,
    (∀ value, entries.lookup name = some value →
      ∃ tree, record.fields.lookup name = some tree ∧ value.Reordered depth tree) ∧
    (entries.lookup name = none → record.fields.lookup name = none)

variable {depth : ℕ} {names : List String} {entries others : List (String × Value)}

theorem lookup_filter {key : String} (known : key ∈ names) :
    (entries.filter fun entry => names.contains entry.1).lookup key = entries.lookup key := by
  induction entries with
  | nil => rfl
  | cons entry rest ih =>
      obtain ⟨first, value⟩ := entry
      by_cases here : key = first
      · subst here
        simp [known]
      · have other : (key == first) = false := beq_eq_false_iff_ne.mpr here
        rw [List.filter_cons, List.lookup_cons, other]
        split
        · rw [List.lookup_cons, other]
          exact ih
        · exact ih

theorem exists_ofEntries? (names : List String) (same : SameKeys (Reordered depth) entries others)
    (distinct : (entries.map Prod.fst).Nodup) :
    ∃ record, ofEntries? names others = some record ∧ record.Holds depth names entries ∧
      record.positional = false := by
  have distinct' : (others.map Prod.fst).Nodup := same.keys_perm.nodup_iff.mp distinct
  refine ⟨_, if_pos (distinct'.sublist (List.filter_sublist.map _)), ?_, rfl⟩
  intro name known
  simp only [lookup_filter known]
  exact ⟨fun value => same.lookup_eq_some distinct, same.lookup_eq_none⟩

/-- A table of distinct keys is read as a record of its entries. -/
theorem exists_ofValue? {tree : Value} (surplus : Surplus) (names : List String)
    (same : (Value.table entries).Reordered depth tree) (distinct : (entries.map Prod.fst).Nodup) :
    ∃ record, ofValue? surplus names tree = some record ∧ record.Holds (depth - 1) names entries ∧
      record.positional = false := by
  obtain ⟨others, rfl, keys⟩ := same.table
  exact exists_ofEntries? names keys distinct

variable {record : Record} {name : String} {read? : Value → Option α} {value : Value} {result : α}

theorem Holds.require (holds : record.Holds depth names entries) (known : name ∈ names)
    (there : entries.lookup name = some value) (reads : Reads depth read? value result) :
    record.require name read? = some result := by
  obtain ⟨tree, found, same⟩ := (holds name known).1 value there
  rw [Record.require, found, Option.bind_some, reads tree same]

theorem Holds.orElse (holds : record.Holds depth names entries) (known : name ∈ names)
    (there : entries.lookup name = some value) (reads : Reads depth read? value result)
    (fallback : α) : record.orElse name fallback read? = some result := by
  obtain ⟨tree, found, same⟩ := (holds name known).1 value there
  simp [Record.orElse, found, reads tree same]

/-- A field that is left out when it is absent; no value is written as null. -/
theorem Holds.optional (holds : record.Holds depth names entries) (known : name ∈ names)
    {write : α → Value} {present? : Option α} (there : entries.lookup name = present?.map write)
    (reads : ∀ present ∈ present?, Reads depth read? (write present) present)
    (null : read? .null = none) :
    record.optional name read? = some present? := by
  cases present? with
  | none => simp [Record.optional, (holds name known).2 there]
  | some present =>
      obtain ⟨tree, found, same⟩ := (holds name known).1 _ there
      have read := reads present rfl tree same
      cases tree with
      | null => rw [null] at read; cases read
      | _ => simp [Record.optional, found, read]

/-- A field that is written as null when it is absent. -/
theorem Holds.nullable (holds : record.Holds depth names entries) (known : name ∈ names)
    {write : α → Value} {present? : Option α}
    (there : entries.lookup name = some ((present?.map write).getD .null))
    (reads : ∀ present, Reads depth read? (write present) present) (null : read? .null = none) :
    record.nullable name read? = some present? := by
  obtain ⟨tree, found, same⟩ := (holds name known).1 _ there
  cases present? with
  | none => simp [Record.nullable, found, same.null]
  | some present =>
      have read := reads present tree same
      cases tree with
      | null => rw [null] at read; cases read
      | _ => simp [Record.nullable, found, read]

end Record

end Vitals
