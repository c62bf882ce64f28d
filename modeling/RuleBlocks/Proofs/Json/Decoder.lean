import RuleBlocks.Json.Decoder
import RuleBlocks.Proofs.Json.Text

/-!
# Decoders and the values that they read

`Decoder.Reads` says that a decoder reads a value back from the JSON value that is written for it,
with every budget of brackets that goes as deep as the JSON value. The lemmas carry this from the
parts of a value to the whole: through variants (`Variant.reads_single`, `Variant.reads_payload`),
records (`Record.Reads`) and lists. A text that is written for a value is then read as the value
(`Decoder.Reads.decodeText_pretty`).
-/

namespace RuleBlocks.Json

variable {α β : Type} {name : String} {json payload : Json}

/-! ## Depths -/

@[simp] theorem depth_text (content : String) : (text content).depth = 0 := rfl

@[simp] theorem depth_integer (value : Int) : (integer value).depth = 0 := rfl

@[simp] theorem depth_boolean (value : Bool) : (boolean value).depth = 0 := rfl

@[simp] theorem depth_array (items : List Json) : (array items).depth = itemsDepth items + 1 := rfl

@[simp] theorem depth_object (members : List (String × Json)) :
    (object members).depth = membersDepth members + 1 := rfl

@[simp] theorem depth_tagged (tag : String) (payload : Json) :
    (tagged tag payload).depth = payload.depth + 1 := by
  simp [tagged, membersDepth, memberDepth]

theorem itemsDepth_le_iff {items : List Json} {bound : Nat} :
    itemsDepth items ≤ bound ↔ ∀ item ∈ items, item.depth ≤ bound := by
  induction items with
  | nil => simp [itemsDepth]
  | cons item items ih => rw [itemsDepth, Nat.max_le, ih, List.forall_mem_cons]

theorem membersDepth_le_iff {members : List (String × Json)} {bound : Nat} :
    membersDepth members ≤ bound ↔ ∀ member ∈ members, member.2.depth ≤ bound := by
  induction members with
  | nil => simp [membersDepth]
  | cons member members ih =>
    obtain ⟨name, value⟩ := member
    rw [membersDepth, memberDepth, Nat.max_le, ih, List.forall_mem_cons]

/-! ## Reading back what was written -/

/-- A decoder reads a value from a JSON value, with every budget that goes as deep. -/
def Decoder.Reads (decode : Decoder α) (json : Json) (value : α) : Prop :=
  ∀ budget, json.depth ≤ budget → decode budget (.ofJson json) = .ok value

namespace Decoder

variable {decode : Decoder α} {value : α}

/-- **What is read from a written text.** -/
theorem Reads.decodeText_pretty (h : decode.Reads json value) (hDepth : json.depth ≤ nestingLimit) :
    decodeText decode json.pretty = .ok value := by
  rw [decodeText, Document.ofText_pretty]
  dsimp only
  rw [h nestingLimit hDepth]
  rfl

theorem reads_text (content : String) : text.Reads (.text content) content := fun _ _ => rfl

theorem reads_boolean (value : Bool) : boolean.Reads (.boolean value) value := fun _ _ => rfl

theorem reads_word (value : Int32) : word.Reads (.integer value.toInt) value := by
  intro budget _
  rw [Document.ofJson, word, Text.Decimal.word?_toInt]

theorem Reads.map (f : α → β) (h : decode.Reads json value) :
    (decode.map f).Reads json (f value) := by
  intro budget hDepth
  rw [Decoder.map, h budget hDepth]
  rfl

theorem reads_optional {write : α → Json} {value? : Option α} (hNull : ∀ value, write value ≠ .null)
    (h : ∀ value, decode.Reads (write value) value) :
    decode.optional.Reads (.optional write value?) value? := by
  cases value? with
  | none => exact fun _ _ => rfl
  | some value =>
    intro budget hDepth
    have hOptional : decode.optional budget (.ofJson (write value)) =
        (decode budget (.ofJson (write value))).map some := by
      cases hJson : write value with
      | null => exact absurd hJson (hNull value)
      | _ => rfl
    rw [Json.optional, hOptional, h value budget hDepth]
    rfl

theorem each_ofItems {read : Document → Except Fault α} {write : α → Json} {values : List α}
    (h : ∀ value ∈ values, read (.ofJson (write value)) = .ok value) :
    each read (Document.ofItems (values.map write)) = .ok values := by
  induction values with
  | nil => rfl
  | cons value values ih =>
    obtain ⟨hValue, hValues⟩ := List.forall_mem_cons.mp h
    rw [List.map_cons, Document.ofItems, each, hValue, ih hValues]
    rfl

theorem reads_list {write : α → Json} {values : List α}
    (h : ∀ value ∈ values, decode.Reads (write value) value) :
    decode.list.Reads (.array (values.map write)) values := by
  intro budget hDepth
  obtain ⟨budget, rfl⟩ : ∃ rest, budget = rest + 1 :=
    Nat.exists_eq_add_one_of_ne_zero (by rw [depth_array] at hDepth; omega)
  have hItems := itemsDepth_le_iff.mp (Nat.le_of_succ_le_succ hDepth)
  rw [Document.ofJson, list]
  exact each_ofItems fun value hMem =>
    h value hMem budget (hItems _ (List.mem_map_of_mem hMem))

theorem eachMember_ofMembers {read : Document → Except Fault α} {write : α → Json}
    {entries : List (String × α)}
    (h : ∀ entry ∈ entries, read (.ofJson (write entry.2)) = .ok entry.2) :
    eachMember read (Document.ofMembers (entries.map fun entry => (entry.1, write entry.2))) =
      .ok entries := by
  induction entries with
  | nil => rfl
  | cons entry entries ih =>
    obtain ⟨name, value⟩ := entry
    obtain ⟨hValue, hValues⟩ := List.forall_mem_cons.mp h
    rw [List.map_cons, Document.ofMembers, Document.ofMember, eachMember, hValue, ih hValues]
    rfl

theorem reads_members (write : α → Json) {entries : List (String × α)}
    (h : ∀ entry ∈ entries, decode.Reads (write entry.2) entry.2) :
    (members decode).Reads (.object (entries.map fun entry => (entry.1, write entry.2)))
      entries := by
  intro budget hDepth
  obtain ⟨budget, rfl⟩ : ∃ rest, budget = rest + 1 :=
    Nat.exists_eq_add_one_of_ne_zero (by rw [depth_object] at hDepth; omega)
  have hMembers := membersDepth_le_iff.mp (Nat.le_of_succ_le_succ hDepth)
  rw [Document.ofJson, members]
  exact eachMember_ofMembers fun entry hMem =>
    h entry hMem budget (hMembers _ (List.mem_map_of_mem hMem))

end Decoder

namespace Variant

variable {variants : List (String × Variant α)} {value : α}

theorem reads_single (h : find variants name = .ok (.single value)) :
    (decode variants).Reads (.text name) value := by
  intro budget _
  rw [Document.ofJson, decode, h]
  rfl

theorem reads_payload {inner : Decoder α} (h : find variants name = .ok (.payload inner))
    (hPayload : inner.Reads payload value) :
    (decode variants).Reads (.tagged name payload) value := by
  intro budget hDepth
  rw [depth_tagged] at hDepth
  obtain ⟨budget, rfl⟩ : ∃ rest, budget = rest + 1 :=
    Nat.exists_eq_add_one_of_ne_zero (by omega)
  have hRead := hPayload budget (by omega)
  rw [tagged, Document.ofJson, Document.ofMembers, Document.ofMember, decode, h]
  dsimp only [bind, Except.bind, readPayload]
  rw [hRead]
  rfl

end Variant

namespace Record

variable {members : List (String × Json)}

@[simp] theorem names_pure (value : α) : (pure value).names = [] := rfl

@[simp] theorem names_and (f : Record (α → β)) (record : Record α) :
    (f.and record).names = f.names ++ record.names := rfl

@[simp] theorem names_field (name : String) (decode : Decoder α) :
    (field name decode).names = [name] := rfl

@[simp] theorem names_optionalField (name : String) (decode : Decoder α) :
    (optionalField name decode).names = [name] := rfl

/-- A record reads a value from among the members of an object, no two of which have one name. -/
def Reads (record : Record α) (members : List (String × Json)) (value : α) : Prop :=
  (members.map Prod.fst).Nodup → ∀ budget, membersDepth members ≤ budget →
    record.ofMembers budget (Document.ofMembers members) = .ok value

theorem reads_pure (value : α) : (pure value).Reads members value := fun _ _ _ => rfl

theorem Reads.and {f : Record (α → β)} {record : Record α} {function : α → β} {value : α}
    (hFunction : f.Reads members function) (hValue : record.Reads members value) :
    (f.and record).Reads members (function value) := by
  intro hNodup budget hDepth
  rw [Record.and]
  dsimp only
  rw [hFunction hNodup budget hDepth, hValue hNodup budget hDepth]
  rfl

theorem exists_findMember (hNodup : (members.map Prod.fst).Nodup) (hMem : (name, json) ∈ members)
    (before : Nat) : ∃ place,
      findMember name before (Document.ofMembers members) = some (place, .ofJson json) := by
  induction members generalizing before with
  | nil => cases hMem
  | cons member members ih =>
    obtain ⟨other, value⟩ := member
    rw [List.map_cons, List.nodup_cons] at hNodup
    rw [Document.ofMembers, Document.ofMember, findMember]
    rcases List.mem_cons.mp hMem with hEq | hLater
    · cases hEq
      exact ⟨before, if_pos rfl⟩
    · have hOther : some other ≠ some name := by
        rintro ⟨⟩
        exact hNodup.1 (List.mem_map.mpr ⟨_, hLater, rfl⟩)
      rw [if_neg hOther]
      exact ih hNodup.2 hLater _

variable {decode : Decoder α} {value : α}

theorem reads_field (hMem : (name, json) ∈ members) (h : decode.Reads json value) :
    (field name decode).Reads members value := by
  intro hNodup budget hDepth
  obtain ⟨place, hFound⟩ := exists_findMember hNodup hMem 0
  have hValue := h budget (membersDepth_le_iff.mp hDepth _ hMem)
  rw [field]
  dsimp only
  rw [hFound]
  dsimp only
  rw [hValue]
  rfl

theorem reads_optionalField {value? : Option α} (hMem : (name, json) ∈ members)
    (h : decode.optional.Reads json value?) :
    (optionalField name decode).Reads members value? := by
  intro hNodup budget hDepth
  obtain ⟨place, hFound⟩ := exists_findMember hNodup hMem 0
  have hValue := h budget (membersDepth_le_iff.mp hDepth _ hMem)
  rw [optionalField]
  dsimp only
  rw [hFound]
  dsimp only
  rw [hValue]
  rfl

/-- Members that are all fields, each of them once, have no faults of their own. -/
theorem checkMembers_ofMembers {names seen : List String} (before : Nat)
    (hFields : ∀ member ∈ members, member.1 ∈ names)
    (hNodup : (members.map Prod.fst).Nodup) (hSeen : ∀ member ∈ members, member.1 ∉ seen) :
    checkMembers names seen before (Document.ofMembers members) = .ok () := by
  induction members generalizing seen before with
  | nil => rfl
  | cons member members ih =>
    obtain ⟨name, value⟩ := member
    obtain ⟨hField, hFields⟩ := List.forall_mem_cons.mp hFields
    obtain ⟨hNew, hSeen⟩ := List.forall_mem_cons.mp hSeen
    rw [List.map_cons, List.nodup_cons] at hNodup
    rw [Document.ofMembers, Document.ofMember, checkMembers, if_pos hField, if_neg hNew]
    refine ih (before + 1) hFields hNodup.2 fun member hMem hBoth => ?_
    rcases List.mem_cons.mp hBoth with hEq | hBoth
    · exact hNodup.1 (hEq ▸ List.mem_map.mpr ⟨_, hMem, rfl⟩)
    · exact hSeen member hMem hBoth

/-- **A record is read from the object of its fields.** -/
theorem reads_object {record : Record α} (hNames : members.map Prod.fst = record.names)
    (hNodup : record.names.Nodup) (h : record.Reads members value) :
    record.decode.Reads (.object members) value := by
  intro budget hDepth
  rw [depth_object] at hDepth
  obtain ⟨budget, rfl⟩ : ∃ rest, budget = rest + 1 :=
    Nat.exists_eq_add_one_of_ne_zero (by omega)
  have hFields : ∀ member ∈ members, member.1 ∈ record.names := fun member hMem =>
    hNames ▸ List.mem_map_of_mem hMem
  have hRead := h (hNames ▸ hNodup) budget (by omega)
  have hCheck : checkMembers record.names [] 0 (Document.ofMembers members) = .ok () :=
    checkMembers_ofMembers 0 hFields (hNames ▸ hNodup) fun _ _ => List.not_mem_nil
  rw [Document.ofJson, Record.decode, hCheck, hRead]
  rfl

end Record

end RuleBlocks.Json
