import RuleBlocks.Proofs.Json.Budget
import RuleBlocks.Proofs.NameMap
import RuleBlocks.Proofs.Wire.Statement

/-!
# How deep what was read is written

There are several ways to write a program, and a file may hold any of them. Whatever is read from a
file within the limit of brackets is again written within that limit, since every bracket of the
written form stands for one that the decoder went into (`Statement.fits_ofJson`,
`Phases.fits_ofJson`).
-/

namespace RuleBlocks

open Json (Decoder Record Variant membersDepth memberDepth)
open Json.Decoder (fits_of_flat)
open Json.Variant (yields_decode fits_single fits_payload fits_record)
open Json.Record (yields_pure yields_field yields_optionalField)

theorem fits_text : Decoder.text.Fits .text := fits_of_flat Json.depth_text

theorem Rank.fits_ofJson : ofJson.Fits toJson := fits_of_flat fun _ => rfl

theorem Suit.fits_ofJson : ofJson.Fits toJson := fits_of_flat fun _ => rfl

theorem Comparison.fits_ofJson : ofJson.Fits toJson := fits_of_flat fun _ => rfl

theorem CardSet.fits_ofJson : ofJson.Fits toJson := fits_of_flat fun _ => rfl

theorem PlayerExpression.fits_ofJson : ofJson.Fits toJson := by
  refine yields_decode ?_
  simp only [List.forall_mem_cons]
  exact ⟨fits_single rfl, fits_payload fits_text fun _ => rfl, List.forall_mem_nil _⟩

theorem PlayerCollectionExpression.fits_ofJson : ofJson.Fits toJson := by
  refine yields_decode ?_
  simp only [List.forall_mem_cons]
  exact ⟨fits_single rfl, fits_payload PlayerExpression.fits_ofJson fun _ => rfl,
    fits_payload fits_text fun _ => rfl, List.forall_mem_nil _⟩

theorem ZoneExpression.fits_ofJson : ofJson.Fits toJson := by
  refine yields_decode ?_
  simp only [List.forall_mem_cons]
  refine ⟨fits_record (((yields_pure ?_).and (yields_field PlayerExpression.fits_ofJson)).and
    (yields_field fits_text)), fits_payload fits_text fun _ => rfl, List.forall_mem_nil _⟩
  intro budget player hPlayer zoneName _
  simp only [toJson, Json.depth_tagged, Json.depth_object, membersDepth, memberDepth,
    Json.depth_text]
  omega

theorem ZoneCollectionExpression.fits_ofJson : ofJson.Fits toJson := by
  refine yields_decode ?_
  simp only [List.forall_mem_cons]
  exact ⟨fits_payload ZoneExpression.fits_ofJson fun _ => rfl, fits_payload fits_text fun _ => rfl,
    fits_payload fits_text fun _ => rfl, List.forall_mem_nil _⟩

theorem CardExpression.fits_ofJson : ofJson.Fits toJson := by
  refine yields_decode ?_
  simp only [List.forall_mem_cons]
  exact ⟨fits_payload fits_text fun _ => rfl, List.forall_mem_nil _⟩

theorem RankExpression.fits_ofJson : ofJson.Fits toJson := by
  refine yields_decode ?_
  simp only [List.forall_mem_cons]
  exact ⟨fits_payload Rank.fits_ofJson fun _ => rfl,
    fits_payload CardExpression.fits_ofJson fun _ => rfl, List.forall_mem_nil _⟩

theorem SuitExpression.fits_ofJson : ofJson.Fits toJson := by
  refine yields_decode ?_
  simp only [List.forall_mem_cons]
  exact ⟨fits_payload Suit.fits_ofJson fun _ => rfl,
    fits_payload CardExpression.fits_ofJson fun _ => rfl, List.forall_mem_nil _⟩

theorem CardCollectionExpression.fits_ofJson : ofJson.Fits toJson := by
  refine yields_decode ?_
  simp only [List.forall_mem_cons]
  refine ⟨fits_payload CardExpression.fits_ofJson fun _ => rfl, fits_payload fits_text fun _ => rfl,
    fits_payload ZoneExpression.fits_ofJson fun _ => rfl,
    fits_payload ZoneExpression.fits_ofJson fun _ => rfl,
    fits_payload ZoneExpression.fits_ofJson fun _ => rfl,
    fits_record (((yields_pure ?_).and (yields_field ZoneExpression.fits_ofJson)).and
      (yields_field SuitExpression.fits_ofJson)),
    fits_record (((yields_pure ?_).and (yields_field ZoneExpression.fits_ofJson)).and
      (yields_field RankExpression.fits_ofJson)), List.forall_mem_nil _⟩
  · intro budget zone hZone suit hSuit
    simp only [toJson, Json.depth_tagged, Json.depth_object, membersDepth, memberDepth]
    omega
  · intro budget zone hZone rank hRank
    simp only [toJson, Json.depth_tagged, Json.depth_object, membersDepth, memberDepth]
    omega

theorem NumberExpression.fits_ofJson : ofJson.Fits toJson := by
  have hWord : Decoder.word.Fits fun value => .integer value.toInt := fits_of_flat fun _ => rfl
  refine yields_decode ?_
  simp only [List.forall_mem_cons]
  exact ⟨fits_payload hWord fun _ => rfl, fits_payload fits_text fun _ => rfl,
    fits_payload CardCollectionExpression.fits_ofJson fun _ => rfl, List.forall_mem_nil _⟩

theorem BooleanExpression.fits_ofJson : ofJson.Fits toJson := by
  have hBoolean : Decoder.boolean.Fits .boolean := fits_of_flat Json.depth_boolean
  refine yields_decode ?_
  simp only [List.forall_mem_cons]
  refine ⟨fits_payload hBoolean fun _ => rfl,
    fits_record ((((yields_pure ?_).and (yields_field NumberExpression.fits_ofJson)).and
      (yields_field Comparison.fits_ofJson)).and (yields_field NumberExpression.fits_ofJson)),
    fits_record (((yields_pure ?_).and (yields_field PlayerExpression.fits_ofJson)).and
      (yields_field fits_text)), List.forall_mem_nil _⟩
  · intro budget left hLeft comparedTo hComparedTo right hRight
    simp only [toJson, Json.depth_tagged, Json.depth_object, membersDepth, memberDepth]
    omega
  · intro budget player hPlayer typeName _
    simp only [toJson, Json.depth_tagged, Json.depth_object, membersDepth, memberDepth,
      Json.depth_text]
    omega

/-! ## Statements -/

theorem ChoiceType.fits_ofJson : ofJson.Fits toJson := by
  refine yields_decode ?_
  simp only [List.forall_mem_cons]
  exact ⟨fits_payload PlayerCollectionExpression.fits_ofJson fun _ => rfl,
    fits_payload PlayerCollectionExpression.fits_ofJson fun _ => rfl,
    fits_payload CardCollectionExpression.fits_ofJson fun _ => rfl,
    fits_payload CardCollectionExpression.fits_ofJson fun _ => rfl, List.forall_mem_nil _⟩

theorem ChoiceAction.fits_ofJson : ofJson.Fits toJson := by
  refine yields_decode ?_
  simp only [List.forall_mem_cons]
  refine ⟨fits_record (((yields_pure ?_).and (yields_field ZoneExpression.fits_ofJson)).and
    (yields_field ZoneExpression.fits_ofJson)), List.forall_mem_nil _⟩
  intro budget source hSource dest hDest
  simp only [toJson, Json.depth_tagged, Json.depth_object, membersDepth, memberDepth]
  omega

theorem OfferChoice.fits_ofJson : ofJson.Fits toJson := by
  refine yields_decode ?_
  simp only [List.forall_mem_cons]
  refine ⟨fits_record (((yields_pure ?_).and (yields_field fits_text)).and
    (yields_field ChoiceType.fits_ofJson)), fits_payload ChoiceAction.fits_ofJson fun _ => rfl,
    List.forall_mem_nil _⟩
  intro budget name _ choiceType hType
  simp only [toJson, Json.depth_tagged, Json.depth_object, membersDepth, memberDepth,
    Json.depth_text]
  omega

/-- A list stands in a pair of brackets. -/
theorem fits_list {α : Type} {decode : Decoder α} {write : α → Json} (h : decode.Fits write) :
    decode.list.Fits fun values => .array (values.map write) := by
  refine Decoder.Yields.list h fun budget values hValues => ?_
  rw [Json.depth_array]
  refine Nat.succ_le_succ (Json.itemsDepth_le_iff.mpr fun item hItem => ?_)
  obtain ⟨value, hMem, rfl⟩ := List.mem_map.mp hItem
  exact hValues value hMem

/-- An optional value is written as deep as the value, if there is one. -/
theorem depth_optional_le {α : Type} {write : α → Json} {value? : Option α} {budget : Nat}
    (h : ∀ value ∈ value?, (write value).depth ≤ budget) :
    (Json.optional write value?).depth ≤ budget := by
  cases value? with
  | none => exact Nat.zero_le budget
  | some value => exact h value rfl

namespace Statement

theorem fits_caseOfJson {inner : Decoder Statement} (hInner : inner.Fits toJson) :
    (caseOfJson inner).Fits caseToJson := by
  refine Json.Record.Yields.decode (((((yields_pure ?_).and
    (yields_optionalField BooleanExpression.fits_ofJson)).and (yields_field fits_text)).and
    (yields_field (fits_list OfferChoice.fits_ofJson))).and (yields_field hInner))
  intro budget condition hCondition message _ choices hChoices body hBody
  have hOptional := depth_optional_le hCondition
  dsimp only at hChoices
  simp only [caseToJson, Json.depth_object, membersDepth, memberDepth, Json.depth_text]
  omega

/-- Statements fit if the statements inside them do. -/
theorem fits_variants {inner : Decoder Statement} (hInner : inner.Fits toJson) :
    Decoder.Fits (Variant.decode (variants inner)) toJson := by
  have hItems : inner.list.Fits fun items => .array (itemsToJson items) := by
    simp only [itemsToJson_eq]
    exact fits_list hInner
  have hCases : (caseOfJson inner).list.Fits fun cases => .array (casesToJson cases) := by
    simp only [casesToJson_eq]
    exact fits_list (fits_caseOfJson hInner)
  refine yields_decode ?_
  unfold variants
  simp only [List.forall_mem_cons]
  refine ⟨fits_payload fits_text fun _ => by rw [toJson],
    fits_record (((yields_pure ?_).and (yields_field fits_text)).and
      (yields_field NumberExpression.fits_ofJson)),
    fits_record ((((yields_pure ?_).and (yields_field BooleanExpression.fits_ofJson)).and
      (yields_field hInner)).and (yields_field hInner)),
    fits_record (((yields_pure ?_).and (yields_field BooleanExpression.fits_ofJson)).and
      (yields_field hInner)),
    fits_payload ZoneCollectionExpression.fits_ofJson fun _ => by rw [toJson],
    fits_record (((yields_pure ?_).and (yields_field CardSet.fits_ofJson)).and
      (yields_field ZoneExpression.fits_ofJson)),
    fits_record ((((yields_pure ?_).and (yields_field NumberExpression.fits_ofJson)).and
      (yields_field ZoneExpression.fits_ofJson)).and
      (yields_field ZoneCollectionExpression.fits_ofJson)),
    fits_record (((yields_pure ?_).and (yields_field CardCollectionExpression.fits_ofJson)).and
      (yields_field ZoneExpression.fits_ofJson)),
    fits_payload PlayerCollectionExpression.fits_ofJson fun _ => by rw [toJson],
    fits_payload NumberExpression.fits_ofJson fun _ => by rw [toJson],
    fits_record ((((yields_pure ?_).and (yields_field PlayerCollectionExpression.fits_ofJson)).and
      (yields_optionalField fits_text)).and (yields_field hCases)),
    fits_payload hItems fun _ => by rw [toJson], fits_single (by rw [toJson]; rfl),
    List.forall_mem_nil _⟩
  · intro budget name _ value hValue
    simp only [toJson, Json.depth_tagged, Json.depth_object, membersDepth, memberDepth,
      Json.depth_text]
    omega
  · intro budget condition hCondition goTrue hTrue goFalse hFalse
    simp only [toJson, Json.depth_tagged, Json.depth_object, membersDepth, memberDepth]
    omega
  · intro budget condition hCondition body hBody
    simp only [toJson, Json.depth_tagged, Json.depth_object, membersDepth, memberDepth]
    omega
  · intro budget cards hCards dest hDest
    simp only [toJson, Json.depth_tagged, Json.depth_object, membersDepth, memberDepth]
    omega
  · intro budget count hCount source hSource dest hDest
    simp only [toJson, Json.depth_tagged, Json.depth_object, membersDepth, memberDepth]
    omega
  · intro budget source hSource dest hDest
    simp only [toJson, Json.depth_tagged, Json.depth_object, membersDepth, memberDepth]
    omega
  · intro budget offerTo hOfferTo playerName hName cases hHolds
    have hOptional := depth_optional_le hName
    dsimp only at hHolds
    simp only [toJson, Json.depth_tagged, Json.depth_object, membersDepth, memberDepth]
    omega

theorem fits_ofJsonWithin (depth : Nat) : (ofJsonWithin depth).Fits toJson := by
  induction depth with
  | zero => exact fun _ _ _ hValue => nomatch hValue
  | succ depth ih => exact fits_variants ih

/-- **A statement is never written deeper than what it was read from.** -/
theorem fits_ofJson : ofJson.Fits toJson := fun budget => fits_ofJsonWithin (budget + 1) budget

end Statement

/-- **Phases are never written deeper than what they were read from.** -/
theorem Phases.fits_ofJson : ofJson.Fits toJson := by
  have hEntry : ((Record.pure id).and (.field "evaluate" Statement.ofJson)).decode.Fits
      fun statement => .object [("evaluate", statement.toJson)] := by
    refine Json.Record.Yields.decode ((yields_pure ?_).and (yields_field Statement.fits_ofJson))
    intro budget statement hDepth
    simp only [id_eq, Json.depth_object, membersDepth, memberDepth]
    omega
  refine Decoder.Yields.map (Decoder.Yields.members hEntry fun budget entries hEntries => ?_)
  rw [toJson, Json.depth_object]
  refine Nat.succ_le_succ (Json.membersDepth_le_iff.mpr fun member hMember => ?_)
  obtain ⟨entry, hMem, rfl⟩ := List.mem_map.mp hMember
  exact hEntries entry (NameMap.mem_of_mem_ofList hMem)

end RuleBlocks
