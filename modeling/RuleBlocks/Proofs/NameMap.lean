import RuleBlocks.NameMap
import Mathlib.Data.List.Nodup

/-!
# Name maps from lists

Pairs with distinct names can be looked up in the map that is built from them, and pairs that come
in the order of their names are just the entries of that map; so a map is built again from its own
entries (`ofList_entries`).
-/

namespace RuleBlocks.NameMap

variable {α : Type} {name : String} {value : α} {entries : List (String × α)} {map : NameMap α}

theorem eq_of_entries_eq {first second : NameMap α} (h : first.entries = second.entries) :
    first = second := by
  obtain ⟨entries, _⟩ := first
  obtain ⟨others, _⟩ := second
  cases h
  rfl

theorem get?_foldl_insert_of_not_mem (hName : name ∉ entries.map Prod.fst) :
    (entries.foldl (fun map entry => map.insert entry.1 entry.2) map).get? name =
      map.get? name := by
  induction entries generalizing map with
  | nil => rfl
  | cons first rest ih =>
    rw [List.map_cons, List.mem_cons, not_or] at hName
    rw [List.foldl_cons, ih hName.2, get?_insert_of_ne _ _ (Ne.symm hName.1)]

theorem get?_foldl_insert (hNames : (entries.map Prod.fst).Nodup)
    (hEntry : (name, value) ∈ entries) :
    (entries.foldl (fun map entry => map.insert entry.1 entry.2) map).get? name = some value := by
  induction entries generalizing map with
  | nil => cases hEntry
  | cons first rest ih =>
    obtain ⟨hFirst, hRest⟩ := List.nodup_cons.mp hNames
    rw [List.foldl_cons]
    rcases List.mem_cons.mp hEntry with rfl | hEntry
    · rw [get?_foldl_insert_of_not_mem hFirst, get?_insert_self]
    · exact ih hRest hEntry

/-- A pair of a list in which no name occurs twice can be looked up. -/
theorem get?_ofList (hNames : (entries.map Prod.fst).Nodup) (hEntry : (name, value) ∈ entries) :
    (ofList entries).get? name = some value := get?_foldl_insert hNames hEntry

/-- A list in which no name occurs twice can be told from its map, once its names are known. -/
theorem ofList_inj {other : List (String × α)} (hNames : entries.map Prod.fst = other.map Prod.fst)
    (hNodup : (entries.map Prod.fst).Nodup) (hEq : ofList entries = ofList other) :
    entries = other := by
  have hLength : entries.length = other.length := by simpa using congrArg List.length hNames
  refine List.ext_getElem hLength fun index hIndex hOther => ?_
  have hName : entries[index].1 = other[index].1 := by
    have hAt := congrArg (fun names : List String => names[index]?) hNames
    simpa [List.getElem?_eq_getElem hIndex, List.getElem?_eq_getElem hOther] using hAt
  have hFirst : (ofList entries).get? entries[index].1 = some entries[index].2 :=
    get?_ofList hNodup (List.getElem_mem hIndex)
  have hSecond : (ofList other).get? other[index].1 = some other[index].2 :=
    get?_ofList (hNames ▸ hNodup) (List.getElem_mem hOther)
  rw [hEq, hName, hSecond] at hFirst
  exact Prod.ext hName (Option.some.inj hFirst).symm

theorem insertEntry_of_forall_lt (hLt : ∀ entry ∈ entries, entry.1 < name) :
    insertEntry name value entries = entries ++ [(name, value)] := by
  induction entries with
  | nil => rfl
  | cons first rest ih =>
    have hFirst : first.1 < name := hLt first List.mem_cons_self
    rw [insertEntry, if_neg (String.lt_asymm hFirst), if_neg fun hEq => ?_,
      ih fun entry hMem => hLt entry (List.mem_cons_of_mem _ hMem), List.cons_append]
    exact String.lt_irrefl _ (hEq ▸ hFirst)

/-- A name after all others comes last. -/
theorem entries_insert_of_forall_lt (hLt : ∀ entry ∈ map.entries, entry.1 < name) :
    (map.insert name value).entries = map.entries ++ [(name, value)] := insertEntry_of_forall_lt hLt

/-- Pairs in the order of their names, all of them after those of a map, come after them. -/
theorem entries_foldl_insert (hSorted : entries.Pairwise fun a b => a.1 < b.1)
    (hAfter : ∀ kept ∈ map.entries, ∀ entry ∈ entries, kept.1 < entry.1) :
    (entries.foldl (fun map entry => map.insert entry.1 entry.2) map).entries =
      map.entries ++ entries := by
  induction entries generalizing map with
  | nil => exact (List.append_nil _).symm
  | cons first rest ih =>
    obtain ⟨hFirst, hSorted⟩ := List.pairwise_cons.mp hSorted
    have hInsert : (map.insert first.1 first.2).entries = map.entries ++ [first] :=
      entries_insert_of_forall_lt fun kept hKept => hAfter kept hKept first List.mem_cons_self
    rw [List.foldl_cons, ih hSorted, hInsert, List.append_assoc, List.singleton_append]
    rw [hInsert]
    intro kept hKept entry hEntry
    rcases List.mem_append.mp hKept with hKept | hKept
    · exact hAfter kept hKept entry (List.mem_cons_of_mem _ hEntry)
    · rw [List.mem_singleton.mp hKept]
      exact hFirst entry hEntry

/-- A map is built again from its entries. -/
theorem ofList_entries (map : NameMap α) : ofList map.entries = map := by
  have hEntries : (ofList map.entries).entries = map.entries :=
    entries_foldl_insert map.sorted fun _ hKept => absurd hKept List.not_mem_nil
  exact eq_of_entries_eq hEntries

/-- The entries of a map are among the pairs that were entered. -/
theorem mem_of_mem_ofList {entry : String × α} (hMem : entry ∈ (ofList entries).entries) :
    entry ∈ entries := by
  have hFold : ∀ map : NameMap α,
      entry ∈ (entries.foldl (fun map entry => map.insert entry.1 entry.2) map).entries →
        entry ∈ map.entries ∨ entry ∈ entries := by
    clear hMem
    induction entries with
    | nil => exact fun _ hMem => Or.inl hMem
    | cons first rest ih =>
      intro map hMem
      rcases ih _ hMem with hInsert | hRest
      · rcases mem_insertEntry hInsert with rfl | hMap
        · exact Or.inr List.mem_cons_self
        · exact Or.inl hMap
      · exact Or.inr (List.mem_cons_of_mem _ hRest)
  exact (hFold empty hMem).resolve_left List.not_mem_nil

theorem findEntry_of_forall_lt (hLt : ∀ entry ∈ entries, entry.1 < name) :
    findEntry name entries = none := by
  induction entries with
  | nil => rfl
  | cons first rest ih =>
    have hFirst : first.1 < name := hLt first List.mem_cons_self
    rw [findEntry, if_neg fun hEq => ?_]
    · exact ih fun entry hMem => hLt entry (List.mem_cons_of_mem _ hMem)
    · exact String.lt_irrefl _ (hEq ▸ hFirst)

theorem contains_of_forall_lt (hLt : ∀ entry ∈ map.entries, entry.1 < name) :
    map.contains name = false := by
  rw [contains, get?, findEntry_of_forall_lt hLt]
  rfl

theorem mapValues_eq_self {f : α → α} (hValues : ∀ entry ∈ map.entries, f entry.2 = entry.2) :
    map.mapValues f = map := by
  have hEntries : map.entries.map (fun entry => (entry.1, f entry.2)) = map.entries := by
    refine (List.map_congr_left fun entry hEntry => ?_).trans (List.map_id _)
    rw [hValues entry hEntry]
    rfl
  exact eq_of_entries_eq hEntries

end RuleBlocks.NameMap
