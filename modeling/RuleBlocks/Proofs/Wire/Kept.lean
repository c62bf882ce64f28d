import RuleBlocks.Proofs.Program.Kept
import RuleBlocks.Proofs.Wire.Statement

/-!
# How deep what is kept is written

Without its unnamed parts a statement is written no deeper than with them
(`Statement.depth_toJson_kept`), nor are phases (`Phases.depth_toJson_kept`). Leaving out an item
may save the brackets of a sequence and never needs new ones: a sequence of what is kept of several
items is written in the brackets of the sequence that held them.
-/

namespace RuleBlocks

open Json (itemsDepth membersDepth memberDepth)

theorem Json.depth_optional_text (value? : Option String) :
    (Json.optional .text value?).depth = 0 := by
  cases value? <;> rfl

namespace Statement

/-- Statements are written within a number of brackets, each by itself and all of them in
sequence. -/
def WrittenWithin (bound : Nat) (items : List Statement) : Prop :=
  (∀ item ∈ items, item.toJson.depth ≤ bound) ∧ (ofChain items).toJson.depth ≤ bound

theorem writtenWithin_nil (bound : Nat) : WrittenWithin bound [] := by
  refine ⟨fun _ hMem => absurd hMem List.not_mem_nil, ?_⟩
  rw [ofChain, toJson]
  exact Nat.zero_le bound

/-- What is kept of a statement that is no sequence is that statement, or nothing. -/
theorem writtenWithin_ifNamed {names : List String} {statement : Statement} {bound : Nat}
    (h : statement.toJson.depth ≤ bound) :
    WrittenWithin bound (ifNamed names statement).toList := by
  by_cases hNames : "" ∈ names
  · rw [ifNamed_of_mem hNames]
    exact writtenWithin_nil bound
  · rw [ifNamed_of_not_mem hNames]
    exact ⟨fun item hMem => by rwa [List.mem_singleton.mp hMem], h⟩

/-- A sequence costs two pairs of brackets. -/
theorem writtenWithin_of_forall {items : List Statement} {bound : Nat}
    (h : ∀ item ∈ items, item.toJson.depth ≤ bound) : WrittenWithin (bound + 2) items := by
  refine ⟨fun item hMem => Nat.le_add_right_of_le (h item hMem), ?_⟩
  rcases items with _ | ⟨first, _ | ⟨second, rest⟩⟩
  · rw [ofChain, toJson]
    exact Nat.zero_le _
  · exact Nat.le_add_right_of_le (h first List.mem_cons_self)
  · have hBlock : ofChain (first :: second :: rest) = block (first :: second :: rest) := rfl
    rw [hBlock, toJson, itemsToJson_eq, Json.depth_tagged, Json.depth_array]
    refine Nat.add_le_add_right (Json.itemsDepth_le_iff.mpr fun json hJson => ?_) 2
    obtain ⟨item, hMem, rfl⟩ := List.mem_map.mp hJson
    exact h item hMem

mutual

theorem writtenWithin_keptItems : ∀ statement : Statement,
    WrittenWithin statement.toJson.depth statement.keptItems
  | .empty => by
    rw [keptItems]
    exact writtenWithin_nil _
  | .block items => by
    rw [keptItems, toJson, Json.depth_tagged, Json.depth_array]
    exact writtenWithin_of_forall (depth_of_mem_keptItemsOfAll items)
  | .enterPhase _ | .setNumber _ _ | .shuffle _ | .generateCards _ _ | .deal _ _ _ | .moveCards _ _
  | .declareWinner _ | .advancePlayer _ => by
    rw [keptItems]
    exact writtenWithin_ifNamed (Nat.le_refl _)
  | .conditional condition goTrue goFalse => by
    obtain ⟨-, hTrue⟩ := writtenWithin_keptItems goTrue
    obtain ⟨-, hFalse⟩ := writtenWithin_keptItems goFalse
    rw [keptItems]
    refine writtenWithin_ifNamed ?_
    simp only [toJson, Json.depth_tagged, Json.depth_object, membersDepth, memberDepth]
    omega
  | .repeatWhile condition body => by
    obtain ⟨-, hBody⟩ := writtenWithin_keptItems body
    rw [keptItems]
    refine writtenWithin_ifNamed ?_
    simp only [toJson, Json.depth_tagged, Json.depth_object, membersDepth, memberDepth]
    omega
  | .offer offerTo playerName cases => by
    have hCases := itemsDepth_keptCases cases
    rw [keptItems]
    refine writtenWithin_ifNamed ?_
    simp only [toJson, Json.depth_tagged, Json.depth_object, Json.depth_array, membersDepth,
      memberDepth, Json.depth_optional_text]
    omega

theorem depth_of_mem_keptItemsOfAll : ∀ statements : List Statement,
    ∀ item ∈ keptItemsOfAll statements, item.toJson.depth ≤ itemsDepth (itemsToJson statements)
  | [], item, hMem => by
    rw [keptItemsOfAll] at hMem
    cases hMem
  | first :: rest, item, hMem => by
    rw [keptItemsOfAll, List.mem_append] at hMem
    rw [itemsToJson, itemsDepth]
    rcases hMem with hFirst | hRest
    · exact Nat.le_trans ((writtenWithin_keptItems first).1 item hFirst) (Nat.le_max_left _ _)
    · exact Nat.le_trans (depth_of_mem_keptItemsOfAll rest item hRest) (Nat.le_max_right _ _)

theorem itemsDepth_keptCases : ∀ cases : List (OfferCaseOf Statement),
    itemsDepth (casesToJson (keptCases cases)) ≤ itemsDepth (casesToJson cases)
  | [] => Nat.le_of_eq (by rw [keptCases])
  | ⟨condition, message, choices, body⟩ :: rest => by
    obtain ⟨-, hBody⟩ := writtenWithin_keptItems body
    have hRest := itemsDepth_keptCases rest
    have hChoices : itemsDepth ((OfferChoice.kept choices).map OfferChoice.toJson) ≤
        itemsDepth (choices.map OfferChoice.toJson) := by
      refine Json.itemsDepth_le_iff.mpr fun json hJson => ?_
      obtain ⟨choice, hMem, rfl⟩ := List.mem_map.mp hJson
      exact Json.itemsDepth_le_iff.mp (Nat.le_refl _) _
        (List.mem_map_of_mem (OfferChoice.mem_of_mem_kept hMem))
    rw [keptCases, keptCase?]
    by_cases hNames : "" ∈ condition.toList.flatMap BooleanExpression.requiredNames
    · rw [ifNamed_of_mem hNames]
      exact Nat.le_trans hRest (Nat.le_max_right _ _)
    · rw [ifNamed_of_not_mem hNames]
      simp only [Option.toList_some, List.singleton_append, casesToJson, itemsDepth, caseToJson,
        Json.depth_object, Json.depth_array, membersDepth, memberDepth]
      omega

end

/-- **What is kept of a statement is written no deeper.** -/
theorem depth_toJson_kept (statement : Statement) :
    statement.kept.toJson.depth ≤ statement.toJson.depth := (writtenWithin_keptItems statement).2

end Statement

/-- **What is kept of phases is written no deeper.** -/
theorem Phases.depth_toJson_kept (phases : Phases) :
    (Phases.toJson phases.kept).depth ≤ (Phases.toJson phases).depth := by
  rw [toJson, toJson, Json.depth_object, Json.depth_object]
  refine Nat.succ_le_succ (Json.membersDepth_le_iff.mpr fun member hMember => ?_)
  obtain ⟨kept, hKept, rfl⟩ := List.mem_map.mp hMember
  obtain ⟨entry, hEntry, rfl⟩ := List.mem_map.mp hKept
  have hWritten := Json.membersDepth_le_iff.mp (Nat.le_refl _) _
    (List.mem_map_of_mem (f := fun entry : String × Statement =>
      (entry.1, Json.object [("evaluate", entry.2.toJson)])) (List.mem_of_mem_filter hEntry))
  have hStatement := entry.2.depth_toJson_kept
  simp only [Json.depth_object, membersDepth, memberDepth] at hWritten ⊢
  omega

end RuleBlocks
