import RuleBlocks.Proofs.Blueprint.Expression
import RuleBlocks.Proofs.Blueprint.Insert
import RuleBlocks.Proofs.Blueprint.Program

/-!
# Drawings and normal forms

What is drawn for a statement is its normal form, no more and no less: two statements are drawn as
the same blocks just if they have the same normal form. No name has to be filled for this.

In one direction a statement has the blueprints of its items, one each (`blueprintsOfAll_items`). In
the other direction the workspace tells the blueprints, since these have the forms of their kinds
(`fits_blueprints`), and the blueprints tell the items: an expression is known from its blueprint
(`blueprint_inj`, for every category), and so is an item, by recursion over what it is made of
(`items_eq_of_blueprints_eq`).
-/

namespace RuleBlocks

open Blueprint

/-! ## Statements -/

namespace Statement

mutual

theorem fits_blueprints : ∀ statement : Statement, chainFits statement.blueprints
  | empty => by
    rw [blueprints]
    trivial
  | block items => by
    rw [blueprints]
    exact fits_blueprintsOfAll items
  | enterPhase name => by
    rw [blueprints]
    exact ⟨⟨⟨rfl, rfl⟩, trivial⟩, trivial⟩
  | setNumber name value => by
    rw [blueprints]
    exact ⟨⟨⟨rfl, rfl⟩, value.fits_blueprint, trivial⟩, trivial⟩
  | conditional condition goTrue goFalse => by
    rw [blueprints]
    exact ⟨⟨⟨rfl, rfl⟩, condition.fits_blueprint, fits_blueprints goTrue, fits_blueprints goFalse,
      trivial⟩, trivial⟩
  | repeatWhile condition body => by
    rw [blueprints]
    exact ⟨⟨⟨rfl, rfl⟩, condition.fits_blueprint, fits_blueprints body, trivial⟩, trivial⟩
  | shuffle zones => by
    rw [blueprints]
    exact ⟨⟨⟨rfl, rfl⟩, zones.fits_blueprint, trivial⟩, trivial⟩
  | generateCards .allAllowed dest => by
    rw [blueprints]
    exact ⟨⟨⟨rfl, rfl⟩, dest.fits_blueprint, trivial⟩, trivial⟩
  | deal count source dest => by
    rw [blueprints]
    exact ⟨⟨⟨rfl, rfl⟩, count.fits_blueprint, source.fits_blueprint, dest.fits_blueprint, trivial⟩,
      trivial⟩
  | moveCards source dest => by
    rw [blueprints]
    exact ⟨⟨⟨rfl, rfl⟩, source.fits_blueprint, dest.fits_blueprint, trivial⟩, trivial⟩
  | declareWinner players => by
    rw [blueprints]
    exact ⟨⟨⟨rfl, rfl⟩, players.fits_blueprint, trivial⟩, trivial⟩
  | advancePlayer amount => by
    rw [blueprints]
    exact ⟨⟨⟨rfl, rfl⟩, amount.fits_blueprint, trivial⟩, trivial⟩
  | offer offerTo playerName cases => by
    rw [blueprints]
    cases playerName.filter (· ≠ "") with
    | some name | none =>
      exact ⟨⟨⟨rfl, rfl⟩, offerTo.fits_blueprint, fits_caseBlueprints cases, trivial⟩, trivial⟩

theorem fits_blueprintsOfAll : ∀ statements : List Statement,
    chainFits (blueprintsOfAll statements)
  | [] => by
    rw [blueprintsOfAll]
    trivial
  | first :: rest => by
    rw [blueprintsOfAll]
    exact chainFits_append (fits_blueprints first) (fits_blueprintsOfAll rest)

theorem fits_caseBlueprints : ∀ cases : List (OfferCaseOf Statement),
    chainFits (caseBlueprints cases)
  | [] => by
    rw [caseBlueprints]
    trivial
  | offerCase :: rest => by
    rw [caseBlueprints]
    exact ⟨fits_caseBlueprint offerCase, fits_caseBlueprints rest⟩

theorem fits_caseBlueprint : ∀ offerCase : OfferCaseOf Statement, (caseBlueprint offerCase).Fits
  | ⟨some condition, message, choices, body⟩ => by
    rw [caseBlueprint]
    exact ⟨⟨rfl, rfl⟩, condition.fits_blueprint, OfferChoice.chainFits_blueprints choices,
      fits_blueprints body, trivial⟩
  | ⟨none, message, choices, body⟩ => by
    rw [caseBlueprint]
    exact ⟨⟨rfl, rfl⟩, OfferChoice.chainFits_blueprints choices, fits_blueprints body, trivial⟩

end

/-! ## Items -/

theorem blueprintsOfAll_append (first second : List Statement) :
    blueprintsOfAll (first ++ second) = blueprintsOfAll first ++ blueprintsOfAll second := by
  induction first with
  | nil => rfl
  | cons item items ih =>
    rw [List.cons_append, blueprintsOfAll, blueprintsOfAll, ih, List.append_assoc]

theorem blueprints_ofChain (statements : List Statement) :
    (ofChain statements).blueprints = blueprintsOfAll statements := by
  refine apply_ofChain ?_ (fun statement => ?_) (fun statements => ?_) statements
  · rw [blueprints, blueprintsOfAll]
  · rw [blueprintsOfAll, blueprintsOfAll, List.append_nil]
  · rw [blueprints]

mutual

/-- **A statement has the blueprints of its items.** -/
theorem blueprintsOfAll_items : ∀ statement : Statement,
    blueprintsOfAll statement.items = statement.blueprints
  | empty => by rw [items, blueprintsOfAll, blueprints]
  | block statements => by rw [items, blueprints, blueprintsOfAll_itemsOfAll statements]
  | conditional condition goTrue goFalse => by
    rw [items, blueprintsOfAll, blueprintsOfAll, List.append_nil, blueprints, blueprints,
      blueprints_ofChain, blueprints_ofChain, blueprintsOfAll_items goTrue,
      blueprintsOfAll_items goFalse]
  | repeatWhile condition body => by
    rw [items, blueprintsOfAll, blueprintsOfAll, List.append_nil, blueprints, blueprints,
      blueprints_ofChain, blueprintsOfAll_items body]
  | offer offerTo playerName cases => by
    have hFilter : (playerName.filter (· ≠ "")).filter (· ≠ "") = playerName.filter (· ≠ "") := by
      rw [Option.filter_filter]
      simp
    rw [items, blueprintsOfAll, blueprintsOfAll, List.append_nil, blueprints, blueprints, hFilter,
      caseBlueprints_normalCases cases]
  | enterPhase _ | setNumber _ _ | shuffle _ | generateCards _ _ | deal _ _ _ | moveCards _ _
  | declareWinner _ | advancePlayer _ => by
    rw [items, blueprintsOfAll, blueprintsOfAll, List.append_nil]

theorem blueprintsOfAll_itemsOfAll : ∀ statements : List Statement,
    blueprintsOfAll (itemsOfAll statements) = blueprintsOfAll statements
  | [] => by rw [itemsOfAll]
  | first :: rest => by
    rw [itemsOfAll, blueprintsOfAll_append, blueprintsOfAll, blueprintsOfAll_items first,
      blueprintsOfAll_itemsOfAll rest]

theorem caseBlueprints_normalCases : ∀ cases : List (OfferCaseOf Statement),
    caseBlueprints (normalCases cases) = caseBlueprints cases
  | [] => by rw [normalCases]
  | ⟨condition, message, choices, body⟩ :: cases => by
    have hBody : (ofChain body.items).blueprints = body.blueprints := by
      rw [blueprints_ofChain, blueprintsOfAll_items body]
    rw [normalCases, normalCase, caseBlueprints, caseBlueprints, caseBlueprints_normalCases cases]
    cases condition with
    | some _ | none => rw [caseBlueprint, caseBlueprint, hBody]

end

theorem blueprints_normalForm (statement : Statement) :
    statement.normalForm.blueprints = statement.blueprints := by
  rw [normalForm, blueprints_ofChain, blueprintsOfAll_items]

/-- The block of an offer, if the name of its player is filled or left out. -/
def offerBlueprint (offerTo : PlayerCollectionExpression) (filled? : Option String)
    (cases : List Blueprint) : Blueprint :=
  let sockets := [.value Input.offerTo offerTo.blueprint, .parts Input.cases cases]
  match filled? with
  | some name => .block .offer [(Field.playerName, name)] sockets
  | none => .block .unnamedOffer [] sockets

theorem blueprints_offer (offerTo : PlayerCollectionExpression) (playerName : Option String)
    (cases : List (OfferCaseOf Statement)) :
    (offer offerTo playerName cases).blueprints =
      [offerBlueprint offerTo (playerName.filter (· ≠ "")) (caseBlueprints cases)] := by
  rw [blueprints]
  cases playerName.filter (· ≠ "") with
  | some name | none => rfl

theorem eq_of_offerBlueprint_eq {offerTo other : PlayerCollectionExpression}
    {filled? otherFilled? : Option String} {cases others : List Blueprint}
    (hEq : offerBlueprint offerTo filled? cases = offerBlueprint other otherFilled? others) :
    offerTo = other ∧ filled? = otherFilled? ∧ cases = others := by
  have hKind := congrArg Blueprint.kind hEq
  cases filled? with
  | none =>
    cases otherFilled? with
    | none =>
      obtain ⟨hPlayers, hCases⟩ : offerTo = other ∧ cases = others := by
        simpa [offerBlueprint] using hEq
      exact ⟨hPlayers, rfl, hCases⟩
    | some name => cases hKind
  | some name =>
    cases otherFilled? with
    | none => cases hKind
    | some otherName =>
      obtain ⟨hName, hPlayers, hCases⟩ : name = otherName ∧ offerTo = other ∧ cases = others := by
        simpa [offerBlueprint] using hEq
      exact ⟨hPlayers, congrArg some hName, hCases⟩

/-- The block of a case tells everything about it, apart from how its body is bracketed. -/
theorem eq_of_caseBlueprint_eq {first second : OfferCaseOf Statement}
    (hEq : caseBlueprint first = caseBlueprint second) :
    first.condition = second.condition ∧ first.message = second.message ∧
      first.choices = second.choices ∧ first.body.blueprints = second.body.blueprints := by
  have hChoices := List.map_injective_iff.mpr OfferChoice.blueprint_injective
  obtain ⟨condition, message, choices, body⟩ := first
  obtain ⟨otherCondition, otherMessage, otherChoices, otherBody⟩ := second
  -- only the case with a condition has a filter before its choices and its body
  cases condition with
  | none =>
    cases otherCondition with
    | none =>
      simp only [caseBlueprint, Blueprint.block.injEq, List.cons.injEq, Prod.mk.injEq,
        SocketOf.parts.injEq, SocketOf.body.injEq, true_and, and_true] at hEq
      obtain ⟨hMessage, hList, hBody⟩ := hEq
      exact ⟨rfl, hMessage, hChoices hList, hBody⟩
    | some otherCondition =>
      rw [caseBlueprint, caseBlueprint] at hEq
      cases congrArg Blueprint.kind hEq
  | some condition =>
    cases otherCondition with
    | none =>
      rw [caseBlueprint, caseBlueprint] at hEq
      cases congrArg Blueprint.kind hEq
    | some otherCondition =>
      simp only [caseBlueprint, Blueprint.block.injEq, List.cons.injEq, Prod.mk.injEq,
        SocketOf.value.injEq, BooleanExpression.blueprint_inj, SocketOf.parts.injEq,
        SocketOf.body.injEq, true_and, and_true] at hEq
      obtain ⟨hMessage, hCondition, hList, hBody⟩ := hEq
      exact ⟨congrArg some hCondition, hMessage, hChoices hList, hBody⟩

/-- The kind of block by which an item is drawn. Named offers stand for all offers. -/
def construct? : Statement → Option BlockKind
  | enterPhase _ => some .enterPhase
  | setNumber _ _ => some .setNumber
  | conditional _ _ _ => some .ifElse
  | repeatWhile _ _ => some .repeatWhile
  | shuffle _ => some .shuffle
  | generateCards _ _ => some .generateCards
  | deal _ _ _ => some .dealCards
  | moveCards _ _ => some .moveCards
  | declareWinner _ => some .declareWinner
  | advancePlayer _ => some .advancePlayer
  | offer _ _ _ => some .offer
  | block _ | empty => none

/-- The construct that is drawn by blocks of a kind. -/
def constructOf : BlockKind → BlockKind
  | .unnamedOffer => .offer
  | kind => kind

theorem constructOf_offerBlueprint (offerTo : PlayerCollectionExpression) (filled? : Option String)
    (cases : List Blueprint) :
    constructOf (offerBlueprint offerTo filled? cases).kind = .offer := by
  cases filled? <;> rfl

/-- An item is drawn as a single block, whose kind tells the construct. -/
theorem IsItem.exists_blueprint {item : Statement} (hItem : item.IsItem) :
    ∃ blueprint, item.blueprints = [blueprint] ∧
      item.construct? = some (constructOf blueprint.kind) := by
  cases item with
  | empty =>
    rw [IsItem, items] at hItem
    cases hItem
  | block statements => exact absurd rfl (hItem.ne_block statements)
  | generateCards cards dest =>
    cases cards
    rw [blueprints]
    exact ⟨_, rfl, rfl⟩
  | offer offerTo playerName cases =>
    rw [blueprints_offer, construct?]
    exact ⟨_, rfl, congrArg some (constructOf_offerBlueprint _ _ _).symm⟩
  | enterPhase _ | setNumber _ _ | conditional _ _ _ | repeatWhile _ _ | shuffle _ | deal _ _ _
  | moveCards _ _ | declareWinner _ | advancePlayer _ =>
    rw [blueprints]
    exact ⟨_, rfl, rfl⟩

/-- The first of several blueprints belongs to the first of several items. -/
theorem exists_cons_of_blueprintsOfAll {statements : List Statement} {blueprint : Blueprint}
    {chain : List Blueprint} (hItems : ∀ statement ∈ statements, statement.IsItem)
    (hEq : blueprint :: chain = blueprintsOfAll statements) :
    ∃ item rest, statements = item :: rest ∧ item.blueprints = [blueprint] ∧
      chain = blueprintsOfAll rest := by
  cases statements with
  | nil =>
    rw [blueprintsOfAll] at hEq
    cases hEq
  | cons item rest =>
    obtain ⟨first, hFirst, -⟩ := IsItem.exists_blueprint (hItems item List.mem_cons_self)
    rw [blueprintsOfAll, hFirst] at hEq
    obtain ⟨rfl, rfl⟩ := List.cons.inj hEq
    exact ⟨item, rest, rfl, hFirst, rfl⟩

theorem eq_nil_of_blueprintsOfAll {statements : List Statement}
    (hItems : ∀ statement ∈ statements, statement.IsItem)
    (hEq : [] = blueprintsOfAll statements) : statements = [] := by
  cases statements with
  | nil => rfl
  | cons item rest =>
    obtain ⟨first, hFirst, -⟩ := IsItem.exists_blueprint (hItems item List.mem_cons_self)
    rw [blueprintsOfAll, hFirst] at hEq
    cases hEq

/-- Where blueprints are split, so are the items to which they belong. -/
theorem exists_append_of_blueprintsOfAll {statements : List Statement}
    {first second : List Blueprint} (hItems : ∀ statement ∈ statements, statement.IsItem)
    (hEq : first ++ second = blueprintsOfAll statements) :
    ∃ front back, statements = front ++ back ∧ first = blueprintsOfAll front ∧
      second = blueprintsOfAll back := by
  induction first generalizing statements with
  | nil => exact ⟨[], statements, rfl, rfl, hEq⟩
  | cons blueprint chain ih =>
    obtain ⟨item, rest, rfl, hItem, hChain⟩ := exists_cons_of_blueprintsOfAll hItems hEq
    have hRest : ∀ statement ∈ rest, statement.IsItem := fun statement hMem =>
      hItems statement (List.mem_cons_of_mem _ hMem)
    obtain ⟨front, back, rfl, rfl, rfl⟩ := ih hRest hChain
    refine ⟨item :: front, back, rfl, ?_, rfl⟩
    rw [blueprintsOfAll, hItem]
    rfl

/-- A single blueprint belongs to a single item. -/
theorem exists_item_of_blueprintsOfAll {statements : List Statement} {blueprint : Blueprint}
    (hItems : ∀ statement ∈ statements, statement.IsItem)
    (hEq : [blueprint] = blueprintsOfAll statements) :
    ∃ item, statements = [item] ∧ item.IsItem ∧ item.blueprints = [blueprint] ∧
      item.construct? = some (constructOf blueprint.kind) := by
  obtain ⟨item, rest, rfl, hFirst, hNil⟩ := exists_cons_of_blueprintsOfAll hItems hEq
  obtain rfl := eq_nil_of_blueprintsOfAll
    (fun statement hMem => hItems statement (List.mem_cons_of_mem _ hMem)) hNil
  have hItem : item.IsItem := hItems item List.mem_cons_self
  obtain ⟨only, hOnly, hConstruct⟩ := hItem.exists_blueprint
  obtain rfl : only = blueprint := List.head_eq_of_cons_eq (hOnly.symm.trans hFirst)
  exact ⟨item, rfl, hItem, hFirst, hConstruct⟩

mutual

/-- **The blueprints of a statement tell its items.** -/
theorem items_eq_of_blueprints_eq : ∀ (statement : Statement) {statements : List Statement},
    (∀ item ∈ statements, item.IsItem) → statement.blueprints = blueprintsOfAll statements →
    statement.items = statements
  | empty, statements, hItems, hEq => by
    rw [blueprints] at hEq
    rw [items, eq_nil_of_blueprintsOfAll hItems hEq]
  | block parts, statements, hItems, hEq => by
    rw [blueprints] at hEq
    rw [items]
    exact itemsOfAll_eq_of_blueprints_eq parts hItems hEq
  | enterPhase _, statements, hItems, hEq | setNumber _ _, statements, hItems, hEq
  | shuffle _, statements, hItems, hEq | deal _ _ _, statements, hItems, hEq
  | moveCards _ _, statements, hItems, hEq | declareWinner _, statements, hItems, hEq
  | advancePlayer _, statements, hItems, hEq => by
    rw [blueprints] at hEq
    obtain ⟨item, rfl, -, hBlock, hConstruct⟩ := exists_item_of_blueprintsOfAll hItems hEq
    -- only an item of the same construct is left
    cases item <;> cases hConstruct
    simp only [blueprints, leaf, List.cons.injEq, Blueprint.block.injEq, Prod.mk.injEq,
      SocketOf.value.injEq, NumberExpression.blueprint_inj, ZoneExpression.blueprint_inj,
      ZoneCollectionExpression.blueprint_inj, CardCollectionExpression.blueprint_inj,
      PlayerCollectionExpression.blueprint_inj, true_and, and_true] at hBlock
    simp only [items, hBlock]
  | generateCards .allAllowed dest, statements, hItems, hEq => by
    rw [blueprints] at hEq
    obtain ⟨item, rfl, -, hBlock, hConstruct⟩ := exists_item_of_blueprintsOfAll hItems hEq
    cases item with
    | generateCards cards otherDest =>
      cases cards
      simp only [blueprints, List.cons.injEq, Blueprint.block.injEq, SocketOf.value.injEq,
        ZoneExpression.blueprint_inj, true_and, and_true] at hBlock
      rw [items, hBlock]
    | _ => cases hConstruct
  | conditional condition goTrue goFalse, statements, hItems, hEq => by
    rw [blueprints] at hEq
    obtain ⟨item, rfl, hItem, hBlock, hConstruct⟩ := exists_item_of_blueprintsOfAll hItems hEq
    cases item with
    | conditional otherCondition otherTrue otherFalse =>
      simp only [IsItem, items, List.cons.injEq, conditional.injEq, true_and, and_true] at hItem
      simp only [blueprints, List.cons.injEq, Blueprint.block.injEq, SocketOf.value.injEq,
        BooleanExpression.blueprint_inj, SocketOf.body.injEq, true_and, and_true] at hBlock
      obtain ⟨rfl, hTrue, hFalse⟩ := hBlock
      rw [items, ofChain_items_eq_of_blueprints_eq goTrue hItem.1 hTrue.symm,
        ofChain_items_eq_of_blueprints_eq goFalse hItem.2 hFalse.symm]
    | _ => cases hConstruct
  | repeatWhile condition body, statements, hItems, hEq => by
    rw [blueprints] at hEq
    obtain ⟨item, rfl, hItem, hBlock, hConstruct⟩ := exists_item_of_blueprintsOfAll hItems hEq
    cases item with
    | repeatWhile otherCondition otherBody =>
      simp only [IsItem, items, List.cons.injEq, repeatWhile.injEq, true_and, and_true] at hItem
      simp only [blueprints, List.cons.injEq, Blueprint.block.injEq, SocketOf.value.injEq,
        BooleanExpression.blueprint_inj, SocketOf.body.injEq, true_and, and_true] at hBlock
      obtain ⟨rfl, hBody⟩ := hBlock
      rw [items, ofChain_items_eq_of_blueprints_eq body hItem hBody.symm]
    | _ => cases hConstruct
  | offer offerTo playerName cases, statements, hItems, hEq => by
    rw [blueprints_offer] at hEq
    obtain ⟨item, rfl, hItem, hBlock, hConstruct⟩ := exists_item_of_blueprintsOfAll hItems hEq
    rw [constructOf_offerBlueprint] at hConstruct
    cases item with
    | offer otherTo otherName others =>
      rw [IsItem, items] at hItem
      obtain ⟨-, hFilled, hNormal⟩ := offer.inj (List.head_eq_of_cons_eq hItem)
      rw [blueprints_offer] at hBlock
      obtain ⟨rfl, hName, hCases⟩ := eq_of_offerBlueprint_eq (List.head_eq_of_cons_eq hBlock)
      rw [items, ← hName, hFilled, normalCases_eq_of_blueprints_eq cases hNormal hCases.symm]
    | _ => cases hConstruct

/-- The body of an item is known from its blueprints. -/
theorem ofChain_items_eq_of_blueprints_eq (body : Statement) {other : Statement}
    (hNormal : ofChain other.items = other) (hEq : body.blueprints = other.blueprints) :
    ofChain body.items = other := by
  have hItems : body.items = other.items := items_eq_of_blueprints_eq body
    (isItem_of_mem_items other) (hEq.trans (blueprintsOfAll_items other).symm)
  rw [hItems, hNormal]

theorem itemsOfAll_eq_of_blueprints_eq : ∀ (parts : List Statement) {statements : List Statement},
    (∀ item ∈ statements, item.IsItem) → blueprintsOfAll parts = blueprintsOfAll statements →
    itemsOfAll parts = statements
  | [], statements, hItems, hEq => by
    rw [blueprintsOfAll] at hEq
    rw [itemsOfAll, eq_nil_of_blueprintsOfAll hItems hEq]
  | first :: rest, statements, hItems, hEq => by
    rw [blueprintsOfAll] at hEq
    obtain ⟨front, back, rfl, hFirst, hRest⟩ := exists_append_of_blueprintsOfAll hItems hEq
    have hFront : ∀ item ∈ front, item.IsItem := fun item hMem =>
      hItems item (List.mem_append_left _ hMem)
    have hBack : ∀ item ∈ back, item.IsItem := fun item hMem =>
      hItems item (List.mem_append_right _ hMem)
    rw [itemsOfAll, items_eq_of_blueprints_eq first hFront hFirst,
      itemsOfAll_eq_of_blueprints_eq rest hBack hRest]

theorem normalCases_eq_of_blueprints_eq : ∀ (cases : List (OfferCaseOf Statement))
    {others : List (OfferCaseOf Statement)}, normalCases others = others →
    caseBlueprints cases = caseBlueprints others → normalCases cases = others
  | [], others, _, hEq => by
    cases others with
    | nil => rw [normalCases]
    | cons other others =>
      rw [caseBlueprints, caseBlueprints] at hEq
      cases hEq
  | ⟨condition, message, choices, body⟩ :: cases, others, hNormal, hEq => by
    cases others with
    | nil =>
      rw [caseBlueprints, caseBlueprints] at hEq
      cases hEq
    | cons other others =>
      rw [caseBlueprints, caseBlueprints] at hEq
      obtain ⟨hCase, hCases⟩ := List.cons.inj hEq
      obtain ⟨rfl, rfl, rfl, hBody⟩ := eq_of_caseBlueprint_eq hCase
      rw [normalCases, normalCase] at hNormal
      obtain ⟨hNormalCase, hNormalCases⟩ := List.cons.inj hNormal
      have hNormalBody : ofChain other.body.items = other.body :=
        congrArg OfferCaseOf.body hNormalCase
      rw [normalCases, normalCase, ofChain_items_eq_of_blueprints_eq body hNormalBody hBody,
        normalCases_eq_of_blueprints_eq cases hNormalCases hCases]

end

/-- Just the statements with the same normal form have the same blueprints. -/
theorem blueprints_eq_iff (first second : Statement) :
    first.blueprints = second.blueprints ↔ first.normalForm = second.normalForm := by
  constructor
  · intro hEq
    have hItems : first.items = second.items := items_eq_of_blueprints_eq first
      (isItem_of_mem_items second) (hEq.trans (blueprintsOfAll_items second).symm)
    rw [normalForm, hItems, normalForm]
  · intro hEq
    rw [← blueprints_normalForm first, hEq, blueprints_normalForm second]

/-! ## Drawings -/

/-- **What is drawn for a statement is its normal form, no more and no less.** Drawing a statement
in the empty workspace is never refused, and two statements are drawn as the same blocks, with the
same numbers, tags, fields and links, just if they have the same normal form. -/
theorem insertChain_eq_iff_normalForm_eq (first second : Statement) :
    (∃ last?, (EditableGraph.insertChain Workspace.empty .detached first.blueprints).2 =
        .ok last?) ∧
      ((EditableGraph.insertChain Workspace.empty .detached first.blueprints).1 =
          (EditableGraph.insertChain Workspace.empty .detached second.blueprints).1 ↔
        first.normalForm = second.normalForm) := by
  have hInsert : ∀ statement : Statement,
      EditableGraph.insertChain Workspace.empty .detached statement.blueprints =
        (Workspace.empty.extend (chainLayout 0 none statement.blueprints),
          .ok (chainNodes 0 statement.blueprints).getLast?) := fun statement =>
    Workspace.forest_empty.insertChain_detached (chainEvery_distinct statement.every_blueprints)
  rw [hInsert first, hInsert second]
  refine ⟨⟨_, rfl⟩, ?_⟩
  rw [← blueprints_eq_iff]
  constructor
  · intro hEq
    exact chainLayout_inj first.fits_blueprints second.fits_blueprints
      (Workspace.extend_inj.mp hEq)
  · intro hEq
    rw [hEq]

end Statement

end RuleBlocks
