import RuleBlocks.Proofs.Program.Kept
import RuleBlocks.Proofs.Reading.Blame
import RuleBlocks.Proofs.Reading.Recovers

/-!
# Readings that give all or nothing

A value, and a statement without chains in it, is read as a whole or not at all: it is left out just
if an error is reported (`allOrNothing_closed`). Together with what a reader recovers from what was
drawn, this says what is read for a program in which names are empty (`Recovers.gives`).
-/

namespace RuleBlocks

namespace Reading

variable {α β : Type}

/-- A part is left out just if an error is reported. -/
def AllOrNothing (reading : Reading (Option α)) : Prop :=
  reading.value = none ↔ reading.hasErrors = true

/-- A part is read unless one of its names is empty. -/
def Gives (reading : Reading (Option α)) (names : List String) (value : α) : Prop :=
  reading.value = ifNamed names value

variable {reading : Reading (Option α)} {names more : List String} {value : α}

theorem gives_parts (f : α) : (parts f).Gives [] f := (ifNamed_nil f).symm

theorem Gives.mapSome (f : α → β) (hReading : reading.Gives names value) :
    (reading.mapSome f).Gives names (f value) := by
  unfold Gives at hReading ⊢
  rw [value_mapSome, hReading, ifNamed, ifNamed]
  split <;> rfl

theorem Gives.and {f : Reading (Option (α → β))} {function : α → β}
    (hFunction : f.Gives names function) (hReading : reading.Gives more value) :
    (f.and reading).Gives (names ++ more) (function value) := by
  unfold Gives
  rw [value_and, hFunction, hReading, ifNamed_append]

/-- What is always read takes nothing away. -/
theorem Gives.andAlways {f : Reading (Option (α → β))} {function : α → β} {reading : Reading α}
    (hFunction : f.Gives names function) (hReading : reading.value = value) :
    (f.and reading.always).Gives names (function value) := by
  have hAlways : reading.always.Gives [] value := by
    unfold Gives
    rw [value_always, hReading, ifNamed_nil]
  have hAnd := hFunction.and hAlways
  rwa [List.append_nil] at hAnd

end Reading

namespace Reader

open Reading

variable {reader : Reader} {α : Type}

/-- Whatever is read without chains is read as a whole or not at all. -/
theorem allOrNothing_closed (reader : Reader) :
    reader.Closed fun _ _ reading => reading.AllOrNothing where
  pure _ _ := ⟨nofun, nofun⟩
  fail _ _ := iff_of_true rfl rfl
  mapSome f hReading := by
    unfold AllOrNothing hasErrors at hReading ⊢
    rw [value_mapSome, diagnostics_mapSome, Option.map_eq_none_iff, hReading]
  andThen := by
    intro α β spot reading next hReading hNext
    unfold AllOrNothing hasErrors at hReading hNext ⊢
    unfold Reading.andThen
    rw [value_bind, diagnostics_bind, List.any_append, Bool.or_eq_true, ← hReading]
    cases reading.value with
    | none => exact iff_of_true rfl (Or.inl rfl)
    | some value => simp [hNext value]
  and := by
    intro α β spot f reading hFunction hReading
    unfold AllOrNothing hasErrors at hFunction hReading ⊢
    rw [value_and, diagnostics_and, List.any_append, Bool.or_eq_true, ← hFunction, ← hReading]
    cases f.value <;> simp
  checked spot category name := by
    have hWarnings : (reader.checkReference spot category name).hasErrors = false :=
      List.any_eq_false.mpr fun diagnostic hMem => by
        rw [(mem_diagnostics_checkReference hMem).2]
        exact Bool.false_ne_true
    unfold hasErrors at hWarnings
    simp [AllOrNothing, hasErrors, hWarnings]
  socket _ _ hReading := hReading

/-- **What is read for something drawn**, where a part is read as a whole or not at all. -/
theorem Recovers.gives {reading : Reading (Option α)} {value : α} {names : List String}
    {unresolved : List (Category × String)}
    (hRecovers : reader.Recovers reading (some value) names unresolved)
    (hWhole : reading.AllOrNothing) : reading.Gives names value := by
  by_cases hNames : "" ∈ names
  · exact (hWhole.mpr (hRecovers.faulty hNames)).trans (ifNamed_of_mem hNames value).symm
  · exact (hRecovers.clean hNames).1.trans (ifNamed_of_not_mem hNames value).symm

end Reader

end RuleBlocks
