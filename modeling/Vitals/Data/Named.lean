/-!
# Maps from names

A finite map from names, kept as a list of entries that is ordered by name. The order makes the
map a canonical form: two maps built from the same last entries are the same list.
-/

namespace Vitals

/-- A map from names, its entries ordered by name. -/
abbrev Named (α : Type) := List (String × α)

namespace Named

variable {α : Type}

/-- The map with a value at a name, which replaces an earlier one. -/
def insert (name : String) (value : α) : Named α → Named α
  | [] => [(name, value)]
  | (key, existing) :: rest =>
      if name = key then (name, value) :: rest
      else if name < key then (name, value) :: (key, existing) :: rest
      else (key, existing) :: insert name value rest

def erase (name : String) (map : Named α) : Named α :=
  map.filter fun entry => entry.1 != name

def get? (map : Named α) (name : String) : Option α :=
  map.lookup name

def names (map : Named α) : List String :=
  map.map Prod.fst

/-- The map of a list of entries; later ones replace earlier ones. -/
def ofList (entries : List (String × α)) : Named α :=
  entries.foldl (fun map entry => insert entry.1 entry.2 map) []

theorem get?_insert (name other : String) (value : α) (map : Named α) :
    (insert name value map).get? other = if other = name then some value else map.get? other := by
  induction map with
  | nil =>
      by_cases same : other = name
      · simp [insert, get?, same]
      · simp [insert, get?, List.lookup_cons, same, beq_eq_false_iff_ne.mpr same]
  | cons entry rest ih =>
      obtain ⟨key, existing⟩ := entry
      simp only [get?] at ih ⊢
      unfold insert
      by_cases sameKey : name = key
      · subst sameKey
        rw [if_pos rfl]
        by_cases same : other = name
        · simp [same]
        · simp [List.lookup_cons, same, beq_eq_false_iff_ne.mpr same]
      · rw [if_neg sameKey]
        split
        · by_cases same : other = name
          · simp [same]
          · simp [List.lookup_cons, same, beq_eq_false_iff_ne.mpr same]
        · rw [List.lookup_cons, List.lookup_cons, ih]
          by_cases same : other = key
          · subst same
            simp [Ne.symm sameKey]
          · simp [beq_eq_false_iff_ne.mpr same]

theorem get?_erase (name other : String) (map : Named α) :
    (map.erase name).get? other = if other = name then none else map.get? other := by
  induction map with
  | nil => simp [erase, get?]
  | cons entry rest ih =>
      obtain ⟨key, existing⟩ := entry
      simp only [get?, erase] at ih ⊢
      by_cases removed : key = name
      · subst removed
        rw [List.filter_cons_of_neg (by simp), ih, List.lookup_cons]
        by_cases same : other = key
        · simp [same]
        · simp [same, beq_eq_false_iff_ne.mpr same]
      · rw [List.filter_cons_of_pos (by simpa using removed), List.lookup_cons, List.lookup_cons,
          ih]
        by_cases same : other = key
        · subst same
          simp [removed]
        · simp [beq_eq_false_iff_ne.mpr same]

end Named

end Vitals
