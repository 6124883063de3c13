import Vitals.Config.Data
import Vitals.Data.Json
import Vitals.Data.Toml.Printer
import Vitals.Proofs.Data.Reordering
import Vitals.Proofs.Decimal.Order

/-!
# What documents hold of a tree

JSON has no infinities and nothing that is not a number, so a document has a null in their place.
TOML has such floats, but no null: a tree with a null has no document.

A tree is lossless if documents hold it as it is. Then it is readable, JSON writes all of it, TOML
has a document of it, and no key of its tables takes the place of another.
-/

namespace Vitals

/-- A tree that documents of a format hold as it is. -/
inductive Value.Lossless (format : Format) : Value → Prop
  | null (json : format = .json) : Lossless format .null
  | bool (flag : Bool) : Lossless format (.bool flag)
  | int {number : ℤ} (above : -(2 ^ 63) ≤ number) (below : number < 2 ^ 64) :
      Lossless format (.int number)
  | float {number : Float} (isNumber : (Decimal.number? number).isSome) :
      Lossless format (.float number)
  | text (content : String) : Lossless format (.text content)
  | list {items : List Value} (each : ∀ item ∈ items, Lossless format item) :
      Lossless format (.list items)
  | table {entries : List (String × Value)} (distinct : (entries.map Prod.fst).Nodup)
      (each : ∀ entry ∈ entries, Lossless format entry.2) : Lossless format (.table entries)

/-! ## JSON -/

namespace Json

mutual

/-- The tree that a JSON document of a tree holds. -/
def written : Value → Value
  | .unreadable => .null
  | .float number => if (Decimal.number? number).isSome then .float number else .null
  | .list items => .list (writtenItems items)
  | .table entries => .table (writtenEntries entries)
  | value => value

def writtenItems : List Value → List Value
  | [] => []
  | item :: rest => written item :: writtenItems rest

def writtenEntries : List (String × Value) → List (String × Value)
  | [] => []
  | (key, value) :: rest => (key, written value) :: writtenEntries rest

end

theorem render?_eq_none {number : Float} (other : (Decimal.number? number).isSome = false) :
    Decimal.render? number = none := by
  unfold Decimal.number? Decimal.Binary.number? at other
  unfold Decimal.render?
  cases magnitude : (Decimal.Binary.ofFloat number).magnitude with
  | finite mantissa exponent => simp [magnitude] at other
  | _ => simp [magnitude]

mutual

/-- A tree has the document of what it holds. -/
theorem render_written (value : Value) : render (written value) = render value := by
  cases value with
  | float number =>
      unfold written
      split
      · rfl
      · next other => simp [render, renderFloat, render?_eq_none (Bool.not_eq_true _ ▸ other)]
  | list items => simp only [written, render, renderItems_written items]
  | table entries => simp only [written, render, renderEntries_written entries]
  | _ => rfl

theorem renderItems_written (items : List Value) :
    renderItems (writtenItems items) = renderItems items := by
  match items with
  | [] => rfl
  | [item] => simp only [writtenItems, renderItems, render_written item]
  | item :: next :: rest =>
      have others := renderItems_written (next :: rest)
      rw [writtenItems] at others
      simp only [writtenItems, renderItems, render_written item, others]

theorem renderEntries_written (entries : List (String × Value)) :
    renderEntries (writtenEntries entries) = renderEntries entries := by
  match entries with
  | [] => rfl
  | [(key, value)] => simp only [writtenEntries, renderEntries, render_written value]
  | (key, value) :: (other, next) :: rest =>
      have others := renderEntries_written ((other, next) :: rest)
      rw [writtenEntries] at others
      simp only [writtenEntries, renderEntries, render_written value, others]

end

theorem writtenItems_eq_map (items : List Value) : writtenItems items = items.map written := by
  induction items with
  | nil => rfl
  | cons item rest ih => simp [writtenItems, ih]

theorem writtenEntries_eq_map (entries : List (String × Value)) :
    writtenEntries entries = entries.map fun entry => (entry.1, written entry.2) := by
  induction entries with
  | nil => rfl
  | cons entry rest ih => simp [writtenEntries, ih]

end Json

/-! ## TOML -/

namespace Toml

theorem isSome_renderItems? {items : List Value}
    (each : ∀ item ∈ items, (renderInline? item).isSome) : (renderItems? items).isSome := by
  induction items with
  | nil => rfl
  | cons item rest ih =>
      rw [List.forall_mem_cons] at each
      obtain ⟨text, first⟩ := Option.isSome_iff_exists.mp each.1
      obtain ⟨texts, others⟩ := Option.isSome_iff_exists.mp (ih each.2)
      simp [renderItems?, first, others]

theorem isSome_renderEntries? {entries : List (String × Value)}
    (each : ∀ entry ∈ entries, (renderInline? entry.2).isSome) :
    (renderEntries? entries).isSome := by
  induction entries with
  | nil => rfl
  | cons entry rest ih =>
      rw [List.forall_mem_cons] at each
      obtain ⟨text, first⟩ := Option.isSome_iff_exists.mp each.1
      obtain ⟨texts, others⟩ := Option.isSome_iff_exists.mp (ih each.2)
      simp [renderEntries?, first, others]

end Toml

/-! ## Lossless trees -/

theorem Value.itemsWithoutRepeats_eq {items : List Value}
    (each : ∀ item ∈ items, item.withoutRepeats = item) : itemsWithoutRepeats items = items := by
  induction items with
  | nil => rfl
  | cons item rest ih =>
      rw [List.forall_mem_cons] at each
      rw [itemsWithoutRepeats, each.1, ih each.2]

theorem Value.entriesWithoutRepeats_eq {entries : List (String × Value)}
    (distinct : (entries.map Prod.fst).Nodup)
    (each : ∀ entry ∈ entries, entry.2.withoutRepeats = entry.2) :
    entriesWithoutRepeats entries = entries := by
  induction entries with
  | nil => rfl
  | cons entry rest ih =>
      obtain ⟨key, value⟩ := entry
      rw [List.map_cons, List.nodup_cons] at distinct
      rw [List.forall_mem_cons] at each
      have last : ¬ rest.any (·.1 == key) := by
        simpa using fun other found => distinct.1 (List.mem_map.mpr ⟨(key, other), found, rfl⟩)
      rw [entriesWithoutRepeats, if_neg last, each.1, ih distinct.2 each.2]

namespace Value.Lossless

variable {format : Format} {value : Value}

theorem ofNat {number : ℕ} (fits : number < 2 ^ 64) : Lossless format (.ofNat number) :=
  .int (by omega) (by omega)

theorem isReadable (lossless : value.Lossless format) : value.isReadable = true := by
  induction lossless with
  | int above below =>
      simp only [Value.isReadable, Bool.and_eq_true, decide_eq_true_eq]
      exact ⟨above, below⟩
  | list _ ih => exact areReadable_iff.mpr ih
  | table _ _ ih => exact entriesReadable_iff.mpr ih
  | _ => rfl

theorem withoutRepeats_eq (lossless : value.Lossless format) : value.withoutRepeats = value := by
  induction lossless with
  | list _ ih => rw [withoutRepeats, itemsWithoutRepeats_eq ih]
  | table distinct _ ih => rw [withoutRepeats, entriesWithoutRepeats_eq distinct ih]
  | _ => rfl

theorem written_eq (lossless : value.Lossless format) : Json.written value = value := by
  induction lossless with
  | float isNumber => simp [Json.written, isNumber]
  | list _ ih =>
      rw [Json.written, Json.writtenItems_eq_map, List.map_congr_left ih, List.map_id']
  | table _ _ ih =>
      have kept : Json.writtenEntries _ = _ :=
        (Json.writtenEntries_eq_map _).trans
          (List.map_congr_left fun entry found => congrArg (Prod.mk entry.1) (ih entry found))
      rw [Json.written, kept, List.map_id']
  | _ => rfl

theorem isSome_renderInline? (lossless : value.Lossless .toml) :
    (Toml.renderInline? value).isSome := by
  induction lossless with
  | null json => cases json
  | list _ ih => simpa [Toml.renderInline?] using Toml.isSome_renderItems? ih
  | table _ _ ih => simpa [Toml.renderInline?] using Toml.isSome_renderEntries? ih
  | _ => rfl

end Value.Lossless

theorem Value.lossless_optional {α : Type} {format : Format} {name : String} {write : α → Value}
    (value? : Option α)
    (lossless : ∀ value, (write value).Lossless format) :
    ∀ entry ∈ Value.entry? name (value?.map write), entry.2.Lossless format := by
  cases value? <;> simp [Value.entry?, lossless]

end Vitals
