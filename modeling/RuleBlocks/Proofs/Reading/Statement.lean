import RuleBlocks.Proofs.Program.Equivalent
import RuleBlocks.Proofs.Reading.Expression

/-!
# What the readers of statements give

Whatever the graph is, a statement that was read is in normal form and has no empty names
(`canonical_readChain`, `canonical_readPhases`).
-/

namespace RuleBlocks

namespace Statement

/-- A statement in normal form whose names, as far as there are any, are not empty. -/
structure Canonical (statement : Statement) : Prop where
  normal : statement.normalForm = statement
  required : "" ∉ statement.requiredNames
  players : "" ∉ statement.playerNames

/-- A canonical statement that is not a sequence. -/
structure CanonicalItem (statement : Statement) : Prop where
  isItem : statement.IsItem
  required : "" ∉ statement.requiredNames
  players : "" ∉ statement.playerNames

/-- A case with a canonical body and without empty names. -/
structure CanonicalCase (offerCase : OfferCase) : Prop where
  body : offerCase.body.Canonical
  required : "" ∉ requiredNamesOfCase offerCase

theorem canonicalItem_of_leaf {statement : Statement} (hItems : statement.items = [statement])
    (hPlayers : statement.playerNames = []) (hRequired : "" ∉ statement.requiredNames) :
    statement.CanonicalItem where
  isItem := hItems
  required := hRequired
  players := by
    rw [hPlayers]
    exact List.not_mem_nil

theorem canonical_ofChain {statements : List Statement}
    (hItems : ∀ statement ∈ statements, statement.CanonicalItem) :
    (ofChain statements).Canonical where
  normal := normalForm_ofChain fun statement hMem => (hItems statement hMem).isItem
  required := by
    rw [requiredNames_ofChain, mem_requiredNamesOfAll]
    rintro ⟨statement, hMem, hName⟩
    exact (hItems statement hMem).required hName
  players := by
    rw [playerNames_ofChain, mem_playerNamesOfAll]
    rintro ⟨statement, hMem, hName⟩
    exact (hItems statement hMem).players hName

theorem canonicalItem_offer {offerTo : PlayerCollectionExpression} {playerName : Option String}
    {cases : List OfferCase} (hPlayer : playerName ≠ some "")
    (hOfferTo : "" ∉ offerTo.requiredNames)
    (hCases : ∀ offerCase ∈ cases, CanonicalCase offerCase) :
    (offer offerTo playerName cases).CanonicalItem where
  isItem := by
    have hFilled := filter_of_ne_some_empty hPlayer
    have hBodies : normalCases cases = cases :=
      normalCases_of_isNormal cases fun offerCase hMem =>
        isNormal_iff.mpr (hCases offerCase hMem).body.normal
    rw [IsItem, items, hFilled, hBodies]
  required := by
    rw [requiredNames, List.mem_append, mem_requiredNamesOfCases]
    rintro (hName | ⟨offerCase, hMem, hName⟩)
    · exact hOfferTo hName
    · exact (hCases offerCase hMem).required hName
  players := by
    rw [playerNames, List.mem_append, mem_playerNamesOfCases]
    rintro (hName | ⟨offerCase, hMem, hName⟩)
    · exact hPlayer (by simpa using hName)
    · exact (hCases offerCase hMem).body.players hName

theorem canonicalItem_conditional {condition : BooleanExpression} {goTrue goFalse : Statement}
    (hCondition : "" ∉ condition.requiredNames) (hTrue : goTrue.Canonical)
    (hFalse : goFalse.Canonical) : (conditional condition goTrue goFalse).CanonicalItem where
  isItem := by
    have hTrueItems : ofChain goTrue.items = goTrue := hTrue.normal
    have hFalseItems : ofChain goFalse.items = goFalse := hFalse.normal
    rw [IsItem, items, hTrueItems, hFalseItems]
  required := by
    simp only [requiredNames, List.mem_append, not_or]
    exact ⟨⟨hCondition, hTrue.required⟩, hFalse.required⟩
  players := by
    simp only [playerNames, List.mem_append, not_or]
    exact ⟨hTrue.players, hFalse.players⟩

theorem canonicalItem_repeatWhile {condition : BooleanExpression} {body : Statement}
    (hCondition : "" ∉ condition.requiredNames) (hBody : body.Canonical) :
    (repeatWhile condition body).CanonicalItem where
  isItem := by
    have hItems : ofChain body.items = body := hBody.normal
    rw [IsItem, items, hItems]
  required := by
    simp only [requiredNames, List.mem_append, not_or]
    exact ⟨hCondition, hBody.required⟩
  players := by
    rw [playerNames]
    exact hBody.players

end Statement

namespace Reader

open Reading Statement

variable {reader : Reader} {spot : Spot} {kind : BlockKind} {path : List PathSegment}
variable {first : Option NodeId} {α : Type}

/-! ## Properties of what is read -/

theorem yields_members {P : α → Prop} {role : BlockRole}
    {read : Spot → BlockKind → Reading (Option α)}
    (hRead : ∀ spot kind, (read spot kind).Yields P) :
    (reader.members path first role read).always.Yields
      fun values => ∀ value ∈ values, P value := by
  refine Yields.always (forall_mem_collect (fun node => Yields.andThen fun kind => ?_) _)
  split
  · exact hRead _ _
  · exact yields_fail _

theorem yields_choiceType {bound : Category} :
    (reader.choiceType spot bound).Yields fun choiceType => "" ∉ choiceType.requiredNames := by
  unfold choiceType
  split
  · exact Yields.mapSome yields_playerCollection
  · exact Yields.mapSome yields_playerCollection
  · exact Yields.mapSome yields_cardCollection
  · exact Yields.mapSome yields_cardCollection

theorem yields_offerChoice :
    (reader.offerChoice spot kind).Yields fun choice => "" ∉ choice.requiredNames := by
  unfold offerChoice
  split
  · refine Yields.and (Yields.and (Yields.parts ?_) yields_zone) yields_zone
    intro source hSource dest hDest
    simpa [OfferChoice.requiredNames] using ⟨hSource, hDest⟩
  · refine Yields.and (Yields.and (Yields.parts ?_) yields_requiredField)
      (Yields.andThen fun _ => yields_choiceType)
    intro name hName choiceType hChoice
    simpa [OfferChoice.requiredNames, eq_comm] using ⟨hName, hChoice⟩

theorem yields_caseCondition :
    (reader.caseCondition spot kind).Yields fun condition =>
      "" ∉ condition.toList.flatMap BooleanExpression.requiredNames := by
  unfold caseCondition
  split
  · refine Yields.mapSome fun condition hCondition => ?_
    simpa using yields_boolean condition hCondition
  · exact Yields.pure (by simp)

variable {read : Spot → Reading (Option Statement)}

theorem canonical_chainStatement (hRead : ∀ spot, (read spot).Yields CanonicalItem) :
    (reader.chainStatement read path first).value.Canonical :=
  canonical_ofChain (forall_mem_collect (fun _ => hRead _) _)

theorem canonical_body {input : String} (hRead : ∀ spot, (read spot).Yields CanonicalItem) :
    (reader.body read spot input).value.Canonical := canonical_chainStatement hRead

theorem yields_offerCase (hRead : ∀ spot, (read spot).Yields CanonicalItem) :
    (reader.offerCase read spot kind).Yields CanonicalCase := by
  refine Yields.and (Yields.and (Yields.and (Yields.parts ?_) yields_caseCondition)
    (yields_members fun _ _ => yields_offerChoice))
    (Yields.always (canonical_body hRead))
  intro condition hCondition choices hChoices body hBody
  refine ⟨hBody, ?_⟩
  simp only [requiredNamesOfCase, List.mem_append, not_or]
  refine ⟨⟨hCondition, fun hMem => ?_⟩, hBody.required⟩
  obtain ⟨choice, hChoice, hName⟩ := List.mem_flatMap.mp hMem
  exact hChoices choice hChoice hName

theorem yields_offerPlayer :
    (reader.offerPlayer spot kind).Yields fun playerName => playerName ≠ some "" := by
  unfold offerPlayer
  split
  · refine Yields.mapSome fun name hName hEmpty => ?_
    exact yields_requiredField name hName (Option.some.inj hEmpty)
  · exact Yields.pure nofun

theorem yields_offer (hRead : ∀ spot, (read spot).Yields CanonicalItem) :
    (reader.offer read spot kind).Yields CanonicalItem := by
  refine Yields.and (Yields.and (Yields.and (Yields.parts ?_) yields_offerPlayer)
    yields_playerCollection)
    (yields_members fun _ _ => yields_offerCase hRead)
  intro playerName hPlayer offerTo hOfferTo cases hCases
  exact canonicalItem_offer hPlayer hOfferTo hCases

theorem yields_cardSet : (reader.cardSet spot).Yields fun _ => True := fun _ _ => trivial

theorem yields_statementOf (hRead : ∀ spot, (read spot).Yields CanonicalItem) :
    (reader.statementOf read spot kind).Yields CanonicalItem := by
  unfold statementOf
  cases kind
  case enterPhase =>
    refine Yields.mapSome fun name hName => canonicalItem_of_leaf (by rw [items])
      (by rw [playerNames]) ?_
    simpa [requiredNames, eq_comm] using yields_requiredField name hName
  case setNumber =>
    refine Yields.and (Yields.and (Yields.parts ?_) yields_requiredField) yields_number
    intro name hName value hValue
    refine canonicalItem_of_leaf (by rw [items]) (by rw [playerNames]) ?_
    simpa [requiredNames, eq_comm] using ⟨hName, hValue⟩
  case ifElse =>
    refine Yields.and (Yields.and (Yields.and (Yields.parts ?_) yields_boolean)
      (Yields.always (canonical_body hRead))) (Yields.always (canonical_body hRead))
    intro condition hCondition goTrue hTrue goFalse hFalse
    exact canonicalItem_conditional hCondition hTrue hFalse
  case repeatWhile =>
    refine Yields.and (Yields.and (Yields.parts ?_) yields_boolean)
      (Yields.always (canonical_body hRead))
    intro condition hCondition body hBody
    exact canonicalItem_repeatWhile hCondition hBody
  case shuffle =>
    refine Yields.mapSome fun zones hZones => canonicalItem_of_leaf (by rw [items])
      (by rw [playerNames]) ?_
    rw [requiredNames]
    exact yields_zoneCollection zones hZones
  case generateCards =>
    refine Yields.and (Yields.and (Yields.parts ?_) yields_cardSet) yields_zone
    intro cards _ dest hDest
    refine canonicalItem_of_leaf (by rw [items]) (by rw [playerNames]) ?_
    rw [requiredNames]
    exact hDest
  case dealCards =>
    refine Yields.and (Yields.and (Yields.and (Yields.parts ?_) yields_number) yields_zone)
      yields_zoneCollection
    intro count hCount source hSource dest hDest
    refine canonicalItem_of_leaf (by rw [items]) (by rw [playerNames]) ?_
    simp only [requiredNames, List.mem_append, not_or]
    exact ⟨⟨hCount, hSource⟩, hDest⟩
  case moveCards =>
    refine Yields.and (Yields.and (Yields.parts ?_) yields_cardCollection) yields_zone
    intro source hSource dest hDest
    refine canonicalItem_of_leaf (by rw [items]) (by rw [playerNames]) ?_
    simp only [requiredNames, List.mem_append, not_or]
    exact ⟨hSource, hDest⟩
  case declareWinner =>
    refine Yields.mapSome fun players hPlayers => canonicalItem_of_leaf (by rw [items])
      (by rw [playerNames]) ?_
    rw [requiredNames]
    exact yields_playerCollection players hPlayers
  case advancePlayer =>
    refine Yields.mapSome fun amount hAmount => canonicalItem_of_leaf (by rw [items])
      (by rw [playerNames]) ?_
    rw [requiredNames]
    exact yields_number amount hAmount
  case offer | unnamedOffer => exact yields_offer hRead
  all_goals exact yields_fail _

theorem yields_statement (depth : Nat) (spot : Spot) :
    (reader.statement depth spot).Yields CanonicalItem := by
  induction depth generalizing spot with
  | zero => exact nofun
  | succ depth ih => exact Yields.andThen fun kind => yields_statementOf ih

/-- **Whatever is read is canonical.** -/
theorem canonical_readChain (reader : Reader) (first : Option NodeId) :
    (reader.readChain first).value.Canonical := canonical_chainStatement (yields_statement _)

/-- Whatever phases are read, each has a name and a canonical statement. -/
theorem canonical_addPhases {hats : List NodeId} {known : Phases}
    (hKnown : ∀ entry ∈ known.entries, entry.1 ≠ "" ∧ entry.2.Canonical) :
    ∀ entry ∈ (reader.addPhases known hats).value.entries, entry.1 ≠ "" ∧ entry.2.Canonical := by
  induction hats generalizing known with
  | nil => exact hKnown
  | cons hat hats ih =>
    rw [addPhases, value_bind]
    have hName : ∀ name, (reader.phase hat).value.1 = some name → name ≠ "" :=
      fun name h => yields_requiredField name h
    have hEvaluate : (reader.phase hat).value.2.Canonical :=
      canonical_chainStatement (yields_statement _)
    generalize (reader.phase hat).value = phase at hName hEvaluate
    obtain ⟨name?, evaluate⟩ := phase
    cases name? with
    | none => exact ih hKnown
    | some name =>
      dsimp only
      split
      · exact ih hKnown
      · refine ih fun entry hEntry => ?_
        rcases NameMap.mem_insertEntry hEntry with rfl | hOld
        · exact ⟨hName name rfl, hEvaluate⟩
        · exact hKnown entry hOld

theorem canonical_readPhases (reader : Reader) :
    ∀ entry ∈ reader.readPhases.value.entries, entry.1 ≠ "" ∧ entry.2.Canonical :=
  canonical_addPhases nofun

end Reader

end RuleBlocks
