import Mathlib.Data.List.Nodup
import Mathlib.Data.List.Perm.Subperm

/-!
# General facts

Facts in which no block occurs: about lists without repetition, about values that can be read back,
about names that may be left out, and about what a result says of the results that it was put
together from.
-/

namespace RuleBlocks

variable {α β : Type}

/-! ## Lists without repetition -/

/-- Different numbers below a bound are no more than the bound. -/
theorem length_le_of_nodup {numbers : List Nat} {bound : Nat} (hNodup : numbers.Nodup)
    (hLt : ∀ number ∈ numbers, number < bound) : numbers.length ≤ bound := by
  have hSubset : numbers ⊆ List.range bound := fun number hMem =>
    List.mem_range.mpr (hLt number hMem)
  simpa using (List.subperm_of_subset hNodup hSubset).length_le

/-- The item at a place of a list without repetition is the last item just if the place is the last
one. -/
theorem getLast?_eq_some_iff_of_nodup {items : List α} (hNodup : items.Nodup) {item : α}
    {index : Nat} (hItem : items[index]? = some item) :
    items.getLast? = some item ↔ index + 1 = items.length := by
  obtain ⟨hIndex, hGet⟩ := List.getElem?_eq_some_iff.mp hItem
  rw [List.getLast?_eq_getElem?, ← hItem, List.getElem?_inj (by omega) hNodup]
  omega

/-! ## Values that can be read back -/

/-- What is read back can be told from what is written. -/
theorem injective_of_read {write : α → β} {read? : β → Option α}
    (hRead : ∀ value, read? (write value) = some value) : Function.Injective write := by
  intro first second hEq
  have hFirst := hRead first
  rw [hEq, hRead second] at hFirst
  exact (Option.some.inj hFirst).symm

/-! ## Names that may be left out -/

/-- A name that is not empty stays. -/
theorem filter_of_ne_some_empty {name? : Option String} (h : name? ≠ some "") :
    name?.filter (· ≠ "") = name? := by
  cases name? with
  | none => rfl
  | some name => exact Option.filter_some_pos (by simpa using h)

/-! ## Results

Where no fault came out, none went in.
-/

section

variable {Fault Other : Type}

theorem exists_ok_of_bind {result : Except Fault α} {next : α → Except Fault β} {value : β}
    (h : result >>= next = .ok value) : ∃ first, result = .ok first ∧ next first = .ok value := by
  cases result with
  | error fault => cases h
  | ok first => exact ⟨first, rfl, h⟩

theorem exists_ok_of_map {result : Except Fault α} {f : α → β} {value : β}
    (h : result.map f = .ok value) : ∃ first, result = .ok first ∧ f first = value := by
  cases result with
  | error fault => cases h
  | ok first => exact ⟨first, rfl, Except.ok.inj h⟩

theorem ok_of_mapError {result : Except Fault α} {f : Fault → Other} {value : α}
    (h : result.mapError f = .ok value) : result = .ok value := by
  cases result with
  | error fault => cases h
  | ok first => exact congrArg Except.ok (Except.ok.inj h)

theorem forall_mem_of_mapM {f : α → Except Fault β} {P : β → Prop}
    {values : List α} {results : List β} (hResults : values.mapM f = .ok results)
    (hValues : ∀ value ∈ values, ∀ result, f value = .ok result → P result) :
    ∀ result ∈ results, P result := by
  induction values generalizing results with
  | nil =>
    cases hResults
    exact fun _ hMem => absurd hMem List.not_mem_nil
  | cons value values ih =>
    obtain ⟨hValue, hValues⟩ := List.forall_mem_cons.mp hValues
    rw [List.mapM_cons] at hResults
    obtain ⟨first, hFirst, hNext⟩ := exists_ok_of_bind hResults
    obtain ⟨rest, hRest, hSame⟩ := exists_ok_of_bind hNext
    cases hSame
    exact List.forall_mem_cons.mpr ⟨hValue first hFirst, ih hRest hValues⟩

end

end RuleBlocks
