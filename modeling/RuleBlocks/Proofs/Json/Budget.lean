import RuleBlocks.Proofs.Json.Decoder
import RuleBlocks.Proofs.Basic

/-!
# What decoders read within a budget

A decoder that goes into a bracket has one less in its budget for what stands inside. So there is
something to say of whatever is read within a budget, whether from a text that was written for a
value or from any other: `Decoder.Yields` says that all of it has a property. The lemmas carry this
from the parts of a value to the whole, through lists (`Decoder.Yields.list`), variants
(`Variant.yields_decode`) and records (`Record.Yields.decode`).
-/

namespace RuleBlocks.Json

variable {α β : Type}

/-- Whatever a decoder reads within a budget has a property. -/
def Decoder.Yields (decode : Decoder α) (P : Nat → α → Prop) : Prop :=
  ∀ budget document value, decode budget document = .ok value → P budget value

namespace Decoder

variable {P : Nat → α → Prop} {Q : Nat → β → Prop} {decode : Decoder α}

theorem Yields.mono {R : Nat → α → Prop} (h : decode.Yields P)
    (hImp : ∀ budget value, P budget value → R budget value) : decode.Yields R :=
  fun budget document value hValue => hImp budget value (h budget document value hValue)

theorem Yields.map {f : α → β} (h : decode.Yields fun budget value => Q budget (f value)) :
    (decode.map f).Yields Q := by
  intro budget document result hResult
  obtain ⟨value, hValue, rfl⟩ := exists_ok_of_map hResult
  exact h budget document value hValue

theorem Yields.optional (h : decode.Yields P) :
    decode.optional.Yields fun budget value? => ∀ value ∈ value?, P budget value := by
  intro budget document value? hResult
  by_cases hNull : document = .null
  · subst hNull
    cases hResult
    exact fun _ hMem => absurd hMem (Option.not_mem_none _)
  · have hSome : (decode budget document).map some = .ok value? := by
      cases document <;> first | exact hResult | exact absurd rfl hNull
    obtain ⟨value, hValue, rfl⟩ := exists_ok_of_map hSome
    rintro _ ⟨⟩
    exact h budget document value hValue

/-! ## Lists and maps -/

theorem forall_mem_each {read : Document → Except Fault α} {property : α → Prop}
    (h : ∀ document value, read document = .ok value → property value) {items : List Document}
    {values : List α} (hEach : each read items = .ok values) :
    ∀ value ∈ values, property value := by
  induction items generalizing values with
  | nil =>
    cases hEach
    exact fun _ hMem => absurd hMem List.not_mem_nil
  | cons item items ih =>
    obtain ⟨first, hFirst, hRest⟩ := exists_ok_of_bind hEach
    obtain ⟨rest, hItems, hValues⟩ := exists_ok_of_bind hRest
    cases hValues
    exact List.forall_mem_cons.mpr ⟨h item first hFirst, ih hItems⟩

/-- The items of a list are read within one less. -/
theorem Yields.list {R : Nat → List α → Prop} (h : decode.Yields P)
    (hItems : ∀ budget values, (∀ value ∈ values, P budget value) → R (budget + 1) values) :
    decode.list.Yields R := by
  intro budget document values hValues
  cases budget with
  | zero => cases hValues
  | succ budget =>
    cases document with
    | array items => exact hItems budget values (forall_mem_each (h budget) hValues)
    | _ => cases hValues

theorem forall_mem_eachMember {read : Document → Except Fault α} {property : α → Prop}
    (h : ∀ document value, read document = .ok value → property value)
    {members : List (Option String × Document)} {entries : List (String × α)}
    (hEach : eachMember read members = .ok entries) : ∀ entry ∈ entries, property entry.2 := by
  induction members generalizing entries with
  | nil =>
    cases hEach
    exact fun _ hMem => absurd hMem List.not_mem_nil
  | cons member members ih =>
    obtain ⟨name?, document⟩ := member
    cases name? with
    | none => cases hEach
    | some name =>
      obtain ⟨first, hFirst, hRest⟩ := exists_ok_of_bind hEach
      obtain ⟨rest, hMembers, hEntries⟩ := exists_ok_of_bind hRest
      cases hEntries
      exact List.forall_mem_cons.mpr ⟨h document first hFirst, ih hMembers⟩

/-- The members of an object are read within one less. -/
theorem Yields.members {R : Nat → List (String × α) → Prop} (h : decode.Yields P)
    (hMembers : ∀ budget entries, (∀ entry ∈ entries, P budget entry.2) → R (budget + 1) entries) :
    (members decode).Yields R := by
  intro budget document entries hEntries
  cases budget with
  | zero => cases hEntries
  | succ budget =>
    cases document with
    | object members => exact hMembers budget entries (forall_mem_eachMember (h budget) hEntries)
    | _ => cases hEntries

end Decoder

/-! ## Variants -/

namespace Variant

variable {P : Nat → α → Prop}

/-- Whatever is read for a variant within a budget has a property. -/
def Yields (variant : Variant α) (P : Nat → α → Prop) : Prop :=
  match variant with
  | single value => ∀ budget, P budget value
  | payload decode => decode.Yields fun budget value => P (budget + 1) value

theorem yields_decode {variants : List (String × Variant α)}
    (h : ∀ entry ∈ variants, entry.2.Yields P) : (decode variants).Yields P := by
  have hFind : ∀ {name variant}, find variants name = .ok variant → variant.Yields P := by
    intro name variant hFound
    rw [find] at hFound
    split at hFound
    · rename_i hLookup
      cases hFound
      obtain ⟨before, after, hSplit, -⟩ := List.lookup_eq_some_iff.mp hLookup
      exact h (name, variant) (by rw [hSplit]; simp)
    · cases hFound
  intro budget document value hValue
  unfold decode at hValue
  split at hValue
  · obtain ⟨variant, hVariant, hRest⟩ := exists_ok_of_bind hValue
    cases variant with
    | single only =>
      cases hRest
      exact hFind hVariant _
    | payload decode => cases hRest
  · rename_i budget name document others
    obtain ⟨variant, hVariant, hRest⟩ := exists_ok_of_bind hValue
    obtain ⟨inner, hInner, hLast⟩ := exists_ok_of_bind hRest
    split at hLast
    · cases hLast
      cases variant with
      | single only =>
        cases document with
        | null =>
          cases hInner
          exact hFind hVariant _
        | _ => cases hInner
      | payload decode => exact hFind hVariant budget document value hInner
    · cases hLast
  · cases hValue

end Variant

/-! ## Records -/

namespace Record

variable {P : Nat → α → Prop} {Q : Nat → β → Prop}

/-- Whatever is read for the fields of a record within a budget has a property, both from the
members of an object and from the items of an array. -/
structure Yields (record : Record α) (P : Nat → α → Prop) : Prop where
  members : ∀ budget members value, record.ofMembers budget members = .ok value → P budget value
  items : ∀ budget items value others,
    record.ofItems budget items = .ok (value, others) → P budget value

theorem yields_pure {value : α} (h : ∀ budget, P budget value) : (pure value).Yields P where
  members budget _ _ hValue := by
    cases hValue
    exact h budget
  items budget _ _ _ hValue := by
    cases hValue
    exact h budget

theorem ok_of_together {f : Except PlacedFault (α → β)} {x : Except PlacedFault α} {value : β}
    (h : together f x = .ok value) :
    ∃ function argument, f = .ok function ∧ x = .ok argument ∧ function argument = value := by
  cases f with
  | error fault => cases x <;> cases h
  | ok function =>
    cases x with
    | error fault => cases h
    | ok argument => exact ⟨function, argument, rfl, rfl, Except.ok.inj h⟩

theorem Yields.and {f : Record (α → β)} {record : Record α}
    (hFunction : f.Yields fun budget function =>
      ∀ value, P budget value → Q budget (function value))
    (hRecord : record.Yields P) : (f.and record).Yields Q where
  members budget members value hValue := by
    obtain ⟨function, argument, hF, hX, rfl⟩ := ok_of_together hValue
    exact hFunction.members budget members function hF argument
      (hRecord.members budget members argument hX)
  items budget items value others hValue := by
    obtain ⟨⟨function, rest⟩, hF, hNext⟩ := exists_ok_of_bind hValue
    obtain ⟨⟨argument, last⟩, hX, hPair⟩ := exists_ok_of_bind hNext
    cases hPair
    exact hFunction.items budget items function rest hF argument
      (hRecord.items budget rest argument _ hX)

theorem yields_firstItem {decode : Decoder α} (h : decode.Yields P) {budget : Nat}
    {items others : List Document} {value : α}
    (hValue : firstItem decode budget items = .ok (value, others)) : P budget value := by
  cases items with
  | nil => cases hValue
  | cons item items =>
    obtain ⟨first, hFirst, hPair⟩ := exists_ok_of_map hValue
    cases hPair
    exact h budget item value hFirst

theorem yields_field {decode : Decoder α} {name : String} (h : decode.Yields P) :
    (field name decode).Yields P where
  members budget members value hValue := by
    rw [field] at hValue
    dsimp only at hValue
    split at hValue
    · exact h budget _ value (ok_of_mapError hValue)
    · cases hValue
  items _ _ _ _ hValue := yields_firstItem h hValue

theorem yields_optionalField {decode : Decoder α} {name : String} (h : decode.Yields P) :
    (optionalField name decode).Yields fun budget value? => ∀ value ∈ value?, P budget value where
  members budget members value? hValue := by
    rw [optionalField] at hValue
    dsimp only at hValue
    split at hValue
    · exact h.optional budget _ value? (ok_of_mapError hValue)
    · cases hValue
      exact fun _ hMem => absurd hMem (Option.not_mem_none _)
  items _ _ _ _ hValue := yields_firstItem h.optional hValue

/-- The fields of a record are read within one less. -/
theorem Yields.decode {record : Record α}
    (h : record.Yields fun budget value => P (budget + 1) value) : record.decode.Yields P := by
  intro budget document value hValue
  unfold Record.decode at hValue
  split at hValue
  · obtain ⟨function, argument, hCheck, hMembers, hSame⟩ := ok_of_together (ok_of_mapError hValue)
    obtain ⟨-, -, rfl⟩ := exists_ok_of_map hCheck
    obtain rfl : argument = value := hSame
    exact h.members _ _ argument hMembers
  · obtain ⟨⟨inner, others⟩, hItems, hLast⟩ := exists_ok_of_bind hValue
    dsimp only at hLast
    split at hLast
    · cases hLast
      exact h.items _ _ value others hItems
    · cases hLast
  · cases hValue

end Record

/-! ## Brackets -/

/-- Whatever is read within a budget is written in no more brackets. -/
def Decoder.Fits (decode : Decoder α) (write : α → Json) : Prop :=
  decode.Yields fun budget value => (write value).depth ≤ budget

theorem Decoder.fits_of_flat {decode : Decoder α} {write : α → Json}
    (h : ∀ value, (write value).depth = 0) : decode.Fits write :=
  fun budget _ value _ => Nat.le_trans (Nat.le_of_eq (h value)) (Nat.zero_le budget)

theorem Variant.fits_single {write : α → Json} {value : α} (h : (write value).depth = 0) :
    (single value).Yields fun budget value => (write value).depth ≤ budget :=
  fun budget => Nat.le_trans (Nat.le_of_eq h) (Nat.zero_le budget)

/-- A payload stands in the brackets of its variant. -/
theorem Variant.fits_payload {decode : Decoder β} {inner : β → Json} {write : α → Json} {f : β → α}
    {tag : String} (h : decode.Fits inner)
    (hWrite : ∀ value, write (f value) = tagged tag (inner value)) :
    (payload (decode.map f)).Yields fun budget value => (write value).depth ≤ budget := by
  refine Decoder.Yields.map (h.mono fun budget value hDepth => ?_)
  dsimp only
  rw [hWrite, depth_tagged]
  exact Nat.succ_le_succ hDepth

/-- The fields of a record that is a payload stand in two pairs of brackets. -/
theorem Variant.fits_record {record : Record α} {write : α → Json}
    (h : record.Yields fun budget value => (write value).depth ≤ budget + 2) :
    (payload record.decode).Yields fun budget value => (write value).depth ≤ budget :=
  h.decode

/-! ## Texts -/

/-- Whatever is read from a text is read within the limit. -/
theorem Decoder.Yields.decodeText {P : Nat → α → Prop} {decode : Decoder α} {text : String}
    {value : α} (h : decode.Yields P) (hValue : decodeText decode text = .ok value) :
    P nestingLimit value := by
  obtain ⟨inner, hInner, hLast⟩ := exists_ok_of_bind hValue
  split at hLast
  · cases hLast
    exact h nestingLimit _ value hInner
  · cases hLast

end RuleBlocks.Json
