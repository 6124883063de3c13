import Mathlib.Data.List.Forall2
import Mathlib.Data.List.Induction
import Mathlib.Data.String.Basic
import Vitals.Data.Named

/-!
# Entries in another order

While no key comes twice, the order of entries does not matter: looking a key up finds the same, and
the map of the entries is the same, because maps are ordered by name.

`SameKeys related` compares entries whose values need not be equal either: the same keys, with
related values, in whatever order.
-/

namespace Vitals

open List (Forall₂)

variable {α β : Type}

/-! ## Maps -/

namespace Named

theorem insert_perm {name : String} {value : α} {map : Named α} (fresh : name ∉ map.names) :
    (insert name value map).Perm ((name, value) :: map) := by
  induction map with
  | nil => rfl
  | cons entry rest ih =>
      simp only [names, List.map_cons, List.mem_cons, not_or] at fresh ih
      unfold insert
      rw [if_neg fresh.1]
      split
      · rfl
      · exact ((ih fresh.2).cons entry).trans (.swap ..)

theorem pairwise_insert {name : String} {value : α} {map : Named α} (fresh : name ∉ map.names)
    (ordered : map.Pairwise fun a b => a.1 < b.1) :
    (insert name value map).Pairwise fun a b => a.1 < b.1 := by
  induction map with
  | nil => simp [insert]
  | cons entry rest ih =>
      simp only [names, List.map_cons, List.mem_cons, not_or] at fresh ih
      obtain ⟨below, ordered⟩ := List.pairwise_cons.mp ordered
      unfold insert
      rw [if_neg fresh.1]
      split
      · next first =>
          refine .cons ?_ (.cons below ordered)
          rintro other (_ | ⟨_, later⟩)
          · exact first
          · exact lt_trans first (below other later)
      · next notFirst =>
          refine .cons ?_ (ih fresh.2 ordered)
          intro other found
          rcases List.mem_cons.mp ((insert_perm fresh.2).mem_iff.mp found) with rfl | later
          · exact lt_of_le_of_ne (not_lt.mp notFirst) (Ne.symm fresh.1)
          · exact below other later

/-- Entries without repeated keys and the map of them are the same up to order. -/
theorem ofList_perm {entries : List (String × α)} (distinct : (entries.map Prod.fst).Nodup) :
    (ofList entries).Perm entries ∧ (ofList entries).Pairwise fun a b => a.1 < b.1 := by
  induction entries using List.reverseRecOn with
  | nil => simp [ofList]
  | append_singleton entries entry ih =>
      rw [List.map_append, List.nodup_append] at distinct
      obtain ⟨same, ordered⟩ := ih distinct.1
      have fresh : entry.1 ∉ (ofList entries).names := by
        intro found
        have known := (same.map Prod.fst).mem_iff.mp found
        exact distinct.2.2 entry.1 known entry.1 (by simp) rfl
      have built : ofList (entries ++ [entry]) = insert entry.1 entry.2 (ofList entries) := by
        simp [ofList]
      rw [built]
      refine ⟨?_, pairwise_insert fresh ordered⟩
      exact ((insert_perm fresh).trans (same.cons entry)).trans (List.perm_append_singleton ..).symm

theorem nodup_of_pairwise {map : Named α} (ordered : map.Pairwise fun a b => a.1 < b.1) :
    (map.map Prod.fst).Nodup :=
  List.pairwise_map.mpr (ordered.imp fun less => ne_of_lt less)

/-- A map is the map of its entries, in whatever order they come. -/
theorem ofList_of_perm {map : Named α} (ordered : map.Pairwise fun a b => a.1 < b.1)
    {entries : List (String × α)} (same : entries.Perm map) : ofList entries = map := by
  obtain ⟨again, sorted⟩ :=
    ofList_perm ((same.map Prod.fst).nodup_iff.mpr (nodup_of_pairwise ordered))
  refine List.Perm.eq_of_pairwise ?_ sorted ordered (again.trans same)
  intro a b _ _ less more
  exact absurd less (lt_asymm more)

end Named

theorem lookup_eq_some_iff_mem {entries : List (String × α)}
    (distinct : (entries.map Prod.fst).Nodup) {key : String} {value : α} :
    entries.lookup key = some value ↔ (key, value) ∈ entries := by
  induction entries with
  | nil => simp
  | cons entry rest ih =>
      obtain ⟨first, existing⟩ := entry
      rw [List.map_cons, List.nodup_cons] at distinct
      by_cases here : key = first
      · subst here
        have fresh (other : α) : (key, other) ∉ rest := fun found =>
          distinct.1 (List.mem_map.mpr ⟨_, found, rfl⟩)
        simp [fresh, eq_comm]
      · simp [List.lookup_cons, beq_eq_false_iff_ne.mpr here, ih distinct.2, here]

/-! ## Entries in another order -/

/-- The same keys with related values, in whatever order. -/
def SameKeys (related : α → β → Prop) (entries : List (String × α))
    (others : List (String × β)) : Prop :=
  ∃ matching, Forall₂ (fun entry other => entry.1 = other.1 ∧ related entry.2 other.2)
    entries matching ∧ matching.Perm others

namespace SameKeys

variable {related : α → β → Prop} {entries : List (String × α)} {others : List (String × β)}

theorem keys_perm (same : SameKeys related entries others) :
    (entries.map Prod.fst).Perm (others.map Prod.fst) := by
  obtain ⟨matching, each, order⟩ := same
  have keys : entries.map Prod.fst = matching.map Prod.fst := by
    rw [← List.forall₂_eq_eq_eq, List.forall₂_map_left_iff, List.forall₂_map_right_iff]
    exact each.imp fun _ _ both => both.1
  rw [keys]
  exact order.map Prod.fst

theorem exists_of_mem_right (same : SameKeys related entries others) {other : String × β}
    (found : other ∈ others) : ∃ value, (other.1, value) ∈ entries ∧ related value other.2 := by
  obtain ⟨matching, each, order⟩ := same
  have there := order.mem_iff.mpr found
  clear found order
  induction each with
  | nil => cases there
  | cons both _ ih =>
      rcases List.mem_cons.mp there with rfl | later
      · exact ⟨_, both.1 ▸ List.mem_cons_self, both.2⟩
      · obtain ⟨value, earlier, relation⟩ := ih later
        exact ⟨value, List.mem_cons_of_mem _ earlier, relation⟩

theorem filter (accepts : String → Bool) (same : SameKeys related entries others) :
    SameKeys related (entries.filter fun entry => accepts entry.1)
      (others.filter fun other => accepts other.1) := by
  obtain ⟨matching, each, order⟩ := same
  refine ⟨matching.filter fun other => accepts other.1, ?_, order.filter _⟩
  clear order
  induction each with
  | nil => exact .nil
  | cons both _ ih =>
      simp only [List.filter_cons, ← both.1]
      split
      · exact .cons both ih
      · exact ih

theorem lookup_eq_some (same : SameKeys related entries others)
    (distinct : (entries.map Prod.fst).Nodup) {key : String} {value : α}
    (there : entries.lookup key = some value) :
    ∃ other, others.lookup key = some other ∧ related value other := by
  have distinct' : (others.map Prod.fst).Nodup := same.keys_perm.nodup_iff.mp distinct
  have known : key ∈ others.map Prod.fst :=
    same.keys_perm.mem_iff.mp
      (List.mem_map_of_mem ((lookup_eq_some_iff_mem distinct).mp there))
  obtain ⟨⟨_, other⟩, found, rfl⟩ := List.mem_map.mp known
  obtain ⟨value', earlier, relation⟩ := same.exists_of_mem_right found
  rw [(lookup_eq_some_iff_mem distinct).mpr earlier, Option.some.injEq] at there
  exact ⟨other, (lookup_eq_some_iff_mem distinct').mpr found, there ▸ relation⟩

theorem lookup_eq_none (same : SameKeys related entries others) {key : String}
    (missing : entries.lookup key = none) : others.lookup key = none := by
  rw [List.lookup_eq_none_iff] at missing ⊢
  intro other found
  obtain ⟨value, earlier, -⟩ := same.exists_of_mem_right found
  exact missing _ earlier

end SameKeys

end Vitals
