/-!
# Finite maps from names

A map from names to values, listed in strictly increasing order of the names. Names compare by
code points, so two maps with the same values under the same names are equal, whatever the order in
which they were built.

The main statements say what insertion does to the view `get?`: the inserted name holds the new
value, every other name holds what it held before.
-/

namespace RuleBlocks

/-- Finitely many named values, in strictly increasing order of their names. -/
structure NameMap (α : Type) where
  entries : List (String × α)
  sorted : entries.Pairwise fun a b => a.1 < b.1
deriving DecidableEq

namespace NameMap

variable {α β : Type}

/-- Put a value under a name into an ordered list of entries, in the place of any earlier one. -/
def insertEntry (name : String) (value : α) : List (String × α) → List (String × α)
  | [] => [(name, value)]
  | (other, kept) :: rest =>
    if name < other then (name, value) :: (other, kept) :: rest
    else if name = other then (name, value) :: rest
    else (other, kept) :: insertEntry name value rest

/-- The value that a list of entries holds under a name. -/
def findEntry (name : String) : List (String × α) → Option α
  | [] => none
  | (other, value) :: rest => if other = name then some value else findEntry name rest

theorem mem_insertEntry {name : String} {value : α} {entry : String × α}
    {entries : List (String × α)} (h : entry ∈ insertEntry name value entries) :
    entry = (name, value) ∨ entry ∈ entries := by
  induction entries with
  | nil => simpa [insertEntry] using h
  | cons first rest ih =>
    rw [insertEntry] at h
    split at h
    · simpa using h
    · split at h
      · grind
      · rcases List.mem_cons.mp h with h | h
        · exact Or.inr (h ▸ List.mem_cons_self)
        · exact (ih h).imp id (List.mem_cons_of_mem _)

theorem pairwise_insertEntry {name : String} {value : α} {entries : List (String × α)}
    (h : entries.Pairwise fun a b => a.1 < b.1) :
    (insertEntry name value entries).Pairwise fun a b => a.1 < b.1 := by
  induction entries with
  | nil => simp [insertEntry]
  | cons first rest ih =>
    obtain ⟨hFirst, hRest⟩ := List.pairwise_cons.mp h
    rw [insertEntry]
    split
    · rename_i hLt
      refine List.pairwise_cons.mpr ⟨fun entry hEntry => ?_, h⟩
      rcases List.mem_cons.mp hEntry with rfl | hEntry
      · exact hLt
      · exact String.lt_trans hLt (hFirst entry hEntry)
    · split
      · rename_i hEq
        subst hEq
        exact List.pairwise_cons.mpr ⟨hFirst, hRest⟩
      · refine List.pairwise_cons.mpr ⟨fun entry hEntry => ?_, ih hRest⟩
        rcases mem_insertEntry hEntry with rfl | hEntry
        · grind
        · exact hFirst entry hEntry

theorem findEntry_insertEntry (name other : String) (value : α) (entries : List (String × α)) :
    findEntry other (insertEntry name value entries) =
      if name = other then some value else findEntry other entries := by
  induction entries with
  | nil => rfl
  | cons first rest ih =>
    rw [insertEntry]
    split
    · rfl
    · split
      · grind [findEntry]
      · grind [findEntry]

def empty : NameMap α := ⟨[], List.Pairwise.nil⟩

instance : Inhabited (NameMap α) := ⟨empty⟩

/-- Put a value under a name, in the place of any earlier one. -/
def insert (map : NameMap α) (name : String) (value : α) : NameMap α :=
  ⟨insertEntry name value map.entries, pairwise_insertEntry map.sorted⟩

def get? (map : NameMap α) (name : String) : Option α := findEntry name map.entries

/-- Whether the map holds a value under the name. -/
def contains (map : NameMap α) (name : String) : Bool := (map.get? name).isSome

/-- The names of a map, in order. -/
def names (map : NameMap α) : List String := map.entries.map Prod.fst

/-- How many names a map has. -/
def size (map : NameMap α) : Nat := map.entries.length

/-- Apply a function to every value and keep the names. -/
def mapValues (f : α → β) (map : NameMap α) : NameMap β where
  entries := map.entries.map fun entry => (entry.1, f entry.2)
  sorted := List.pairwise_map.mpr map.sorted

/-- Enter the pairs of a list one after the other, so that a later value replaces an earlier one
under the same name. -/
def ofList (entries : List (String × α)) : NameMap α :=
  entries.foldl (fun map entry => map.insert entry.1 entry.2) empty

@[simp] theorem get?_empty (name : String) : (empty : NameMap α).get? name = none := rfl

theorem get?_insert (map : NameMap α) (name other : String) (value : α) :
    (map.insert name value).get? other = if name = other then some value else map.get? other :=
  findEntry_insertEntry name other value map.entries

@[simp] theorem get?_insert_self (map : NameMap α) (name : String) (value : α) :
    (map.insert name value).get? name = some value := by
  simp [get?_insert]

theorem get?_insert_of_ne (map : NameMap α) {name other : String} (value : α) (h : name ≠ other) :
    (map.insert name value).get? other = map.get? other := by
  simp [get?_insert, h]

@[simp] theorem names_mapValues (f : α → β) (map : NameMap α) :
    (map.mapValues f).names = map.names := by
  simp [names, mapValues]

end NameMap

end RuleBlocks
