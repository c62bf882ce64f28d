import RuleBlocks.Proofs.NameMap
import RuleBlocks.Proofs.Wire.Expression
import RuleBlocks.Wire.Statement

/-!
# Written statements and phases are read back

The decoder of statements follows them into one another less deep than it is given. A statement
inside a statement is written inside more brackets, so it is enough to go as deep as the brackets of
the written form (`Statement.reads_toJson`). Phases are written in the order of their names and are
entered one after the other, which gives the same map again (`Phases.reads_toJson`).

So every program that is written within the limit of brackets is read back from its text
(`decodeText_pretty_toJson`).
-/

namespace RuleBlocks

open Json (Decoder Record itemsDepth membersDepth memberDepth nestingLimit decodeText)
open Json.Decoder (reads_text reads_list reads_members reads_optional)
open Json.Variant (reads_single reads_payload)
open Json.Record (reads_pure reads_field reads_optionalField reads_object)

theorem ChoiceType.reads_toJson : ∀ choiceType : ChoiceType,
    ofJson.Reads choiceType.toJson choiceType
  | .player players => reads_payload rfl (players.reads_toJson.map player)
  | .playerSelection players => reads_payload rfl (players.reads_toJson.map playerSelection)
  | .card cards => reads_payload rfl (cards.reads_toJson.map card)
  | .cardSelection cards => reads_payload rfl (cards.reads_toJson.map cardSelection)

theorem ChoiceAction.reads_toJson : ∀ done : ChoiceAction, ofJson.Reads done.toJson done
  | .moveCards source dest => by
    refine reads_payload rfl (reads_object rfl (by decide) ?_)
    exact ((reads_pure moveCards).and (reads_field (by simp) source.reads_toJson)).and
      (reads_field (by simp) dest.reads_toJson)

theorem OfferChoice.reads_toJson : ∀ choice : OfferChoice, ofJson.Reads choice.toJson choice
  | .selection name choiceType => by
    refine reads_payload rfl (reads_object rfl (by decide) ?_)
    exact ((reads_pure selection).and (reads_field (by simp) (reads_text name))).and
      (reads_field (by simp) choiceType.reads_toJson)
  | .action done => reads_payload rfl (done.reads_toJson.map action)

namespace BooleanExpression

theorem toJson_ne_null (condition : BooleanExpression) : condition.toJson ≠ .null := by
  cases condition <;> nofun

end BooleanExpression

namespace Statement

theorem itemsToJson_eq (items : List Statement) : itemsToJson items = items.map toJson := by
  induction items with
  | nil => rfl
  | cons item items ih => rw [itemsToJson, ih, List.map_cons]

theorem casesToJson_eq (cases : List (OfferCaseOf Statement)) :
    casesToJson cases = cases.map caseToJson := by
  induction cases with
  | nil => rfl
  | cons offerCase cases ih => rw [casesToJson, ih, List.map_cons]

/-- A case is read back if its body is. -/
theorem reads_caseToJson {inner : Decoder Statement} {offerCase : OfferCaseOf Statement}
    (hBody : inner.Reads offerCase.body.toJson offerCase.body) :
    (caseOfJson inner).Reads (caseToJson offerCase) offerCase := by
  obtain ⟨condition, message, choices, body⟩ := offerCase
  rw [caseToJson]
  refine reads_object rfl (by simp) ?_
  have hCondition : BooleanExpression.ofJson.optional.Reads
      (.optional BooleanExpression.toJson condition) condition :=
    reads_optional BooleanExpression.toJson_ne_null BooleanExpression.reads_toJson
  exact ((((reads_pure OfferCaseOf.mk).and (reads_optionalField (by simp) hCondition)).and
    (reads_field (by simp) (reads_text message))).and
    (reads_field (by simp) (reads_list fun choice _ => choice.reads_toJson))).and
    (reads_field (by simp) hBody)

mutual

/-- A statement is read back by a decoder that goes as deep as its brackets. -/
theorem reads_within : ∀ (statement : Statement) (depth : Nat), statement.toJson.depth ≤ depth →
    (ofJsonWithin (depth + 1)).Reads statement.toJson statement
  | .enterPhase name, depth, _ => by
    rw [toJson]
    exact reads_payload rfl ((reads_text name).map enterPhase)
  | .setNumber name value, depth, _ => by
    rw [toJson]
    refine reads_payload rfl (reads_object rfl (by simp) ?_)
    exact ((reads_pure setNumber).and (reads_field (by simp) (reads_text name))).and
      (reads_field (by simp) value.reads_toJson)
  | .conditional condition goTrue goFalse, 0, hDepth => by
    simp [toJson] at hDepth
  | .conditional condition goTrue goFalse, depth + 1, hDepth => by
    simp only [toJson, Json.depth_tagged, Json.depth_object, membersDepth, memberDepth] at hDepth
    have hTrue := reads_within goTrue depth (by omega)
    have hFalse := reads_within goFalse depth (by omega)
    rw [toJson]
    refine reads_payload rfl (reads_object rfl (by simp) ?_)
    exact (((reads_pure conditional).and (reads_field (by simp) condition.reads_toJson)).and
      (reads_field (by simp) hTrue)).and (reads_field (by simp) hFalse)
  | .repeatWhile condition body, 0, hDepth => by
    simp [toJson] at hDepth
  | .repeatWhile condition body, depth + 1, hDepth => by
    simp only [toJson, Json.depth_tagged, Json.depth_object, membersDepth, memberDepth] at hDepth
    have hBody := reads_within body depth (by omega)
    rw [toJson]
    refine reads_payload rfl (reads_object rfl (by simp) ?_)
    exact ((reads_pure repeatWhile).and (reads_field (by simp) condition.reads_toJson)).and
      (reads_field (by simp) hBody)
  | .shuffle zones, depth, _ => by
    rw [toJson]
    exact reads_payload rfl (zones.reads_toJson.map shuffle)
  | .generateCards cards dest, depth, _ => by
    rw [toJson]
    refine reads_payload rfl (reads_object rfl (by simp) ?_)
    exact ((reads_pure generateCards).and (reads_field (by simp) cards.reads_toJson)).and
      (reads_field (by simp) dest.reads_toJson)
  | .deal count source dest, depth, _ => by
    rw [toJson]
    refine reads_payload rfl (reads_object rfl (by simp) ?_)
    exact (((reads_pure deal).and (reads_field (by simp) count.reads_toJson)).and
      (reads_field (by simp) source.reads_toJson)).and (reads_field (by simp) dest.reads_toJson)
  | .moveCards source dest, depth, _ => by
    rw [toJson]
    refine reads_payload rfl (reads_object rfl (by simp) ?_)
    exact ((reads_pure moveCards).and (reads_field (by simp) source.reads_toJson)).and
      (reads_field (by simp) dest.reads_toJson)
  | .declareWinner players, depth, _ => by
    rw [toJson]
    exact reads_payload rfl (players.reads_toJson.map declareWinner)
  | .advancePlayer amount, depth, _ => by
    rw [toJson]
    exact reads_payload rfl (amount.reads_toJson.map advancePlayer)
  | .offer offerTo playerName cases, 0, hDepth => by
    simp [toJson] at hDepth
  | .offer offerTo playerName cases, depth + 1, hDepth => by
    simp only [toJson, Json.depth_tagged, Json.depth_object, Json.depth_array, membersDepth,
      memberDepth] at hDepth
    have hCases := reads_list (reads_withinCases cases depth (by omega))
    have hName : Decoder.text.optional.Reads (.optional .text playerName) playerName :=
      reads_optional (fun _ => nofun) reads_text
    rw [toJson, casesToJson_eq]
    refine reads_payload rfl (reads_object rfl (by simp) ?_)
    exact (((reads_pure offer).and (reads_field (by simp) offerTo.reads_toJson)).and
      (reads_optionalField (by simp) hName)).and (reads_field (by simp) hCases)
  | .block items, 0, hDepth => by
    simp [toJson] at hDepth
  | .block items, depth + 1, hDepth => by
    simp only [toJson, Json.depth_tagged, Json.depth_array] at hDepth
    have hItems := reads_list (reads_withinItems items depth (by omega))
    rw [toJson, itemsToJson_eq]
    exact reads_payload rfl (hItems.map block)
  | .empty, depth, _ => by
    rw [toJson]
    exact reads_single rfl

theorem reads_withinItems : ∀ (items : List Statement) (depth : Nat),
    itemsDepth (itemsToJson items) ≤ depth →
      ∀ item ∈ items, (ofJsonWithin (depth + 1)).Reads item.toJson item
  | [], _, _ => fun _ hMem => absurd hMem List.not_mem_nil
  | item :: items, depth, hDepth => by
    rw [itemsToJson, itemsDepth, Nat.max_le] at hDepth
    exact List.forall_mem_cons.mpr
      ⟨reads_within item depth hDepth.1, reads_withinItems items depth hDepth.2⟩

theorem reads_withinCases : ∀ (cases : List (OfferCaseOf Statement)) (depth : Nat),
    itemsDepth (casesToJson cases) ≤ depth → ∀ offerCase ∈ cases,
      (caseOfJson (ofJsonWithin (depth + 1))).Reads (caseToJson offerCase) offerCase
  | [], _, _ => fun _ hMem => absurd hMem List.not_mem_nil
  | ⟨condition, message, choices, body⟩ :: cases, depth, hDepth => by
    rw [casesToJson, itemsDepth, Nat.max_le] at hDepth
    have hBody : body.toJson.depth ≤ depth := by
      have hCase := hDepth.1
      simp only [caseToJson, Json.depth_object, membersDepth, memberDepth] at hCase
      omega
    exact List.forall_mem_cons.mpr ⟨reads_caseToJson (reads_within body depth hBody),
      reads_withinCases cases depth hDepth.2⟩

end

/-- **Every statement is read back from its written form.** -/
theorem reads_toJson (statement : Statement) : ofJson.Reads statement.toJson statement :=
  fun budget hDepth => reads_within statement budget hDepth budget hDepth

end Statement

/-- **Phases are read back from their written form.** -/
theorem Phases.reads_toJson (phases : Phases) : ofJson.Reads phases.toJson phases := by
  have hEntry (entry : String × Statement) :
      ((Record.pure id).and (.field "evaluate" Statement.ofJson)).decode.Reads
        (.object [("evaluate", entry.2.toJson)]) entry.2 := by
    refine reads_object rfl (by simp) ?_
    exact (reads_pure id).and (reads_field (by simp) entry.2.reads_toJson)
  have hEntries := (reads_members (fun statement => .object [("evaluate", statement.toJson)])
    fun entry (_ : entry ∈ phases.entries) => hEntry entry).map NameMap.ofList
  rw [NameMap.ofList_entries] at hEntries
  exact hEntries

/-- **What is written is read back.** Every statement, every expression and all phases whose written
form nests at most 127 brackets are read back from their text, each by the decoder of its type. -/
theorem decodeText_pretty_toJson :
    (∀ statement : Statement, statement.toJson.depth ≤ 127 →
      decodeText Statement.ofJson statement.toJson.pretty = .ok statement) ∧
    (∀ expression : Expression, expression.toJson.depth ≤ 127 →
      decodeText Expression.ofJson expression.toJson.pretty = .ok expression) ∧
    ∀ phases : Phases, phases.toJson.depth ≤ 127 →
      decodeText Phases.ofJson phases.toJson.pretty = .ok phases :=
  ⟨fun statement hDepth => statement.reads_toJson.decodeText_pretty hDepth,
    fun expression hDepth => expression.reads_toJson.decodeText_pretty hDepth,
    fun phases hDepth => phases.reads_toJson.decodeText_pretty hDepth⟩

/-- A condition with the least number, and a name with a letter beyond ASCII. -/
def lowCondition : BooleanExpression :=
  .comparison (.literal (-2147483648)) .lessOrEqual (.var "größe")

/-- An offer whose texts hold quotes, controls and a character beyond the first plane. -/
def playfulOffer : Statement :=
  .offer .allPlayers (some "\"p\\\x01")
    [⟨some lowCondition, "pick\n🂡", [.selection "card" (.card (.allInZone (.var "deck")))],
      .block [.enterPhase "draw", .empty]⟩]

theorem playfulOffer_readBack :
    (playfulOffer.toJson.depth ≤ 127 ∧
      decodeText Statement.ofJson playfulOffer.toJson.pretty = .ok playfulOffer) ∧
    ((Expression.boolean lowCondition).toJson.depth ≤ 127 ∧
      decodeText Expression.ofJson (Expression.boolean lowCondition).toJson.pretty =
        .ok (.boolean lowCondition)) ∧
    ((Phases.toJson (.ofList [("play", playfulOffer), ("", .empty)])).depth ≤ 127 ∧
      decodeText Phases.ofJson
          (Phases.toJson (.ofList [("play", playfulOffer), ("", .empty)])).pretty =
        .ok (.ofList [("play", playfulOffer), ("", .empty)])) := by
  obtain ⟨hStatements, hExpressions, hPhases⟩ := decodeText_pretty_toJson
  have hStatement : playfulOffer.toJson.depth ≤ 127 := by decide
  have hExpression : (Expression.boolean lowCondition).toJson.depth ≤ 127 := by decide
  have hPhasesDepth :
      (Phases.toJson (.ofList [("play", playfulOffer), ("", .empty)])).depth ≤ 127 := by decide
  exact ⟨⟨hStatement, hStatements _ hStatement⟩, ⟨hExpression, hExpressions _ hExpression⟩,
    hPhasesDepth, hPhases _ hPhasesDepth⟩

end RuleBlocks
