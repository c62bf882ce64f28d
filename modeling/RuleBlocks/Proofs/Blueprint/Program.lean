import RuleBlocks.Blueprint.Statement
import RuleBlocks.Proofs.Blueprint.Layout
import RuleBlocks.Proofs.NameMap
import RuleBlocks.Proofs.Program.Names

/-!
# The blocks of a program

What blocks the blueprints of a program are made of. No two inputs of a block have the same name, an
expression is made of values only, and a statement holds no hat of a phase (`every_blueprints`). The
numbers that a statement sets are named by the blocks of its layout that set a number
(`filterMap_setNumber?_chainLayout`).
-/

namespace RuleBlocks

namespace Blueprint

variable {P Q : BlockKind → List String → Prop}

/-! ## Properties of all blocks -/

mutual

theorem every_mono (h : ∀ kind inputs, P kind inputs → Q kind inputs) :
    ∀ blueprint : Blueprint, blueprint.Every P → blueprint.Every Q
  | .block _ _ sockets, hEvery => ⟨h _ _ hEvery.1, socketsEvery_mono h sockets hEvery.2⟩

theorem socketsEvery_mono (h : ∀ kind inputs, P kind inputs → Q kind inputs) :
    ∀ sockets : List (SocketOf Blueprint), socketsEvery P sockets → socketsEvery Q sockets
  | [], _ => trivial
  | socket :: sockets, hEvery =>
    ⟨socketEvery_mono h socket hEvery.1, socketsEvery_mono h sockets hEvery.2⟩

theorem socketEvery_mono (h : ∀ kind inputs, P kind inputs → Q kind inputs) :
    ∀ socket : SocketOf Blueprint, socketEvery P socket → socketEvery Q socket
  | .value _ inner, hEvery => every_mono h inner hEvery
  | .body _ chain, hEvery | .parts _ chain, hEvery => chainEvery_mono h chain hEvery

theorem chainEvery_mono (h : ∀ kind inputs, P kind inputs → Q kind inputs) :
    ∀ chain : List Blueprint, chainEvery P chain → chainEvery Q chain
  | [], _ => trivial
  | first :: rest, hEvery => ⟨every_mono h first hEvery.1, chainEvery_mono h rest hEvery.2⟩

end

theorem chainEvery_append {first second : List Blueprint} (hFirst : chainEvery P first)
    (hSecond : chainEvery P second) : chainEvery P (first ++ second) := by
  induction first with
  | nil => exact hSecond
  | cons blueprint rest ih => exact ⟨hFirst.1, ih hFirst.2⟩

/-- Blocks other than hats and statements, with inputs of different names. -/
def OfParts (kind : BlockKind) (inputs : List String) : Prop :=
  inputs.Nodup ∧ kind.role ≠ .hat ∧ kind.role ≠ .statement

/-- Blocks other than hats, with inputs of different names. -/
def OfStatements (kind : BlockKind) (inputs : List String) : Prop :=
  inputs.Nodup ∧ kind.role ≠ .hat

theorem Every.ofStatements {blueprint : Blueprint} (h : blueprint.Every OfParts) :
    blueprint.Every OfStatements := every_mono (fun _ _ hParts => ⟨hParts.1, hParts.2.1⟩) _ h

theorem chainEvery_ofStatements {chain : List Blueprint} (h : chainEvery OfParts chain) :
    chainEvery OfStatements chain :=
  chainEvery_mono (fun _ _ hParts => ⟨hParts.1, hParts.2.1⟩) _ h

theorem chainEvery_distinct {chain : List Blueprint} (h : chainEvery OfStatements chain) :
    chainEvery (fun _ inputs => inputs.Nodup) chain := chainEvery_mono (fun _ _ hAll => hAll.1) _ h

end Blueprint

open Blueprint

/-! ## Expressions -/

theorem Blueprint.every_variableOf (category : Category) (name : String) :
    (variableOf category name).Every OfParts := ⟨⟨List.nodup_nil, by decide⟩, trivial⟩

theorem PlayerExpression.every_blueprint (player : PlayerExpression) :
    player.blueprint.Every OfParts := by
  cases player with
  | currentPlayer => exact ⟨⟨List.nodup_nil, by decide⟩, trivial⟩
  | var name => exact every_variableOf _ _

theorem PlayerCollectionExpression.every_blueprint (players : PlayerCollectionExpression) :
    players.blueprint.Every OfParts := by
  cases players with
  | allPlayers => exact ⟨⟨List.nodup_nil, by decide⟩, trivial⟩
  | single player => exact player.every_blueprint
  | var name => exact every_variableOf _ _

theorem ZoneExpression.every_blueprint (zone : ZoneExpression) :
    zone.blueprint.Every OfParts := by
  cases zone with
  | ownedByPlayer player zoneName =>
    exact ⟨⟨List.nodup_singleton _, by decide⟩, player.every_blueprint, trivial⟩
  | var name => exact every_variableOf _ _

theorem ZoneCollectionExpression.every_blueprint (zones : ZoneCollectionExpression) :
    zones.blueprint.Every OfParts := by
  cases zones with
  | single zone => exact zone.every_blueprint
  | ofType typeName => exact ⟨⟨List.nodup_nil, by decide⟩, trivial⟩
  | var name => exact every_variableOf _ _

theorem CardExpression.every_blueprint (card : CardExpression) :
    card.blueprint.Every OfParts := by
  cases card with
  | var name => exact every_variableOf _ _

theorem RankExpression.every_blueprint (rank : RankExpression) :
    rank.blueprint.Every OfParts := by
  cases rank with
  | literal rank => exact ⟨⟨List.nodup_nil, by decide⟩, trivial⟩
  | ofCard card => exact ⟨⟨List.nodup_singleton _, by decide⟩, card.every_blueprint, trivial⟩

theorem SuitExpression.every_blueprint (suit : SuitExpression) :
    suit.blueprint.Every OfParts := by
  cases suit with
  | literal suit => exact ⟨⟨List.nodup_nil, by decide⟩, trivial⟩
  | ofCard card => exact ⟨⟨List.nodup_singleton _, by decide⟩, card.every_blueprint, trivial⟩

theorem CardCollectionExpression.every_blueprint (cards : CardCollectionExpression) :
    cards.blueprint.Every OfParts := by
  cases cards with
  | single card => exact card.every_blueprint
  | var name => exact every_variableOf _ _
  | allInZone zone | topInZone zone | bottomInZone zone =>
    exact ⟨⟨List.nodup_singleton _, by decide⟩, zone.every_blueprint, trivial⟩
  | matchingSuit zone suit =>
    have hInputs : [Input.zone, Input.suit].Nodup := by decide
    exact ⟨⟨hInputs, by decide⟩, zone.every_blueprint, suit.every_blueprint, trivial⟩
  | matchingRank zone rank =>
    have hInputs : [Input.zone, Input.rank].Nodup := by decide
    exact ⟨⟨hInputs, by decide⟩, zone.every_blueprint, rank.every_blueprint, trivial⟩

theorem NumberExpression.every_blueprint (number : NumberExpression) :
    number.blueprint.Every OfParts := by
  cases number with
  | literal value => exact ⟨⟨List.nodup_nil, by decide⟩, trivial⟩
  | var name => exact ⟨⟨List.nodup_nil, by decide⟩, trivial⟩
  | cardsIn cards => exact ⟨⟨List.nodup_singleton _, by decide⟩, cards.every_blueprint, trivial⟩

theorem BooleanExpression.every_blueprint (condition : BooleanExpression) :
    condition.blueprint.Every OfParts := by
  cases condition with
  | literal value => exact ⟨⟨List.nodup_nil, by decide⟩, trivial⟩
  | comparison left comparedTo right =>
    have hInputs : [Input.left, Input.right].Nodup := by decide
    exact ⟨⟨hInputs, by decide⟩, left.every_blueprint, right.every_blueprint, trivial⟩
  | playerIsType player typeName =>
    exact ⟨⟨List.nodup_singleton _, by decide⟩, player.every_blueprint, trivial⟩

theorem Expression.every_blueprint (expression : Expression) :
    expression.blueprint.Every OfParts := by
  cases expression with
  | number number => exact number.every_blueprint
  | boolean condition => exact condition.every_blueprint
  | player player => exact player.every_blueprint
  | playerCollection players => exact players.every_blueprint
  | zone zone => exact zone.every_blueprint
  | zoneCollection zones => exact zones.every_blueprint
  | card card => exact card.every_blueprint
  | cardCollection cards => exact cards.every_blueprint
  | rank rank => exact rank.every_blueprint
  | suit suit => exact suit.every_blueprint

/-- No two inputs of a block of an expression have the same name. -/
theorem Expression.distinct_blueprint (expression : Expression) :
    expression.blueprint.Distinct :=
  every_mono (fun _ _ hParts => hParts.1) _ expression.every_blueprint

theorem ChoiceType.every_sourceBlueprint (choiceType : ChoiceType) :
    choiceType.sourceBlueprint.Every OfParts := by
  cases choiceType with
  | player players | playerSelection players => exact players.every_blueprint
  | card cards | cardSelection cards => exact cards.every_blueprint

theorem OfferChoice.every_blueprint (choice : OfferChoice) :
    choice.blueprint.Every OfParts := by
  cases choice with
  | selection name choiceType =>
    exact ⟨⟨List.nodup_singleton _, by decide⟩, choiceType.every_sourceBlueprint, trivial⟩
  | action done =>
    cases done with
    | moveCards source dest =>
      have hInputs : [Input.source, Input.dest].Nodup := by decide
      exact ⟨⟨hInputs, by decide⟩, source.every_blueprint, dest.every_blueprint, trivial⟩

theorem OfferChoice.chainEvery_blueprints (choices : List OfferChoice) :
    chainEvery OfParts (choices.map OfferChoice.blueprint) := by
  induction choices with
  | nil => trivial
  | cons choice choices ih => exact ⟨choice.every_blueprint, ih⟩

/-! ## Statements -/

namespace Statement

mutual

theorem every_blueprints : ∀ statement : Statement, chainEvery OfStatements statement.blueprints
  | empty => by
    rw [blueprints]
    trivial
  | block items => by
    rw [blueprints]
    exact every_blueprintsOfAll items
  | enterPhase name => by
    rw [blueprints]
    exact ⟨⟨⟨List.nodup_nil, by decide⟩, trivial⟩, trivial⟩
  | setNumber name value => by
    rw [blueprints]
    exact ⟨⟨⟨List.nodup_singleton _, by decide⟩, value.every_blueprint.ofStatements, trivial⟩,
      trivial⟩
  | conditional condition goTrue goFalse => by
    rw [blueprints]
    have hInputs : [Input.condition, Input.goTrue, Input.goFalse].Nodup := by decide
    exact ⟨⟨⟨hInputs, by decide⟩, condition.every_blueprint.ofStatements, every_blueprints goTrue,
      every_blueprints goFalse, trivial⟩, trivial⟩
  | repeatWhile condition body => by
    rw [blueprints]
    have hInputs : [Input.condition, Input.body].Nodup := by decide
    exact ⟨⟨⟨hInputs, by decide⟩, condition.every_blueprint.ofStatements, every_blueprints body,
      trivial⟩, trivial⟩
  | shuffle zones => by
    rw [blueprints]
    exact ⟨⟨⟨List.nodup_singleton _, by decide⟩, zones.every_blueprint.ofStatements, trivial⟩,
      trivial⟩
  | generateCards .allAllowed dest => by
    rw [blueprints]
    exact ⟨⟨⟨List.nodup_singleton _, by decide⟩, dest.every_blueprint.ofStatements, trivial⟩,
      trivial⟩
  | deal count source dest => by
    rw [blueprints]
    have hInputs : [Input.count, Input.source, Input.dest].Nodup := by decide
    exact ⟨⟨⟨hInputs, by decide⟩, count.every_blueprint.ofStatements,
      source.every_blueprint.ofStatements, dest.every_blueprint.ofStatements, trivial⟩, trivial⟩
  | moveCards source dest => by
    rw [blueprints]
    have hInputs : [Input.source, Input.dest].Nodup := by decide
    exact ⟨⟨⟨hInputs, by decide⟩, source.every_blueprint.ofStatements,
      dest.every_blueprint.ofStatements, trivial⟩, trivial⟩
  | declareWinner players => by
    rw [blueprints]
    exact ⟨⟨⟨List.nodup_singleton _, by decide⟩, players.every_blueprint.ofStatements, trivial⟩,
      trivial⟩
  | advancePlayer amount => by
    rw [blueprints]
    exact ⟨⟨⟨List.nodup_singleton _, by decide⟩, amount.every_blueprint.ofStatements, trivial⟩,
      trivial⟩
  | offer offerTo playerName cases => by
    rw [blueprints]
    have hInputs : [Input.offerTo, Input.cases].Nodup := by decide
    cases playerName.filter (· ≠ "") with
    | some name | none =>
      exact ⟨⟨⟨hInputs, by decide⟩, offerTo.every_blueprint.ofStatements,
        every_caseBlueprints cases, trivial⟩, trivial⟩

theorem every_blueprintsOfAll : ∀ statements : List Statement,
    chainEvery OfStatements (blueprintsOfAll statements)
  | [] => by
    rw [blueprintsOfAll]
    trivial
  | first :: rest => by
    rw [blueprintsOfAll]
    exact chainEvery_append (every_blueprints first) (every_blueprintsOfAll rest)

theorem every_caseBlueprints : ∀ cases : List (OfferCaseOf Statement),
    chainEvery OfStatements (caseBlueprints cases)
  | [] => by
    rw [caseBlueprints]
    trivial
  | offerCase :: rest => by
    rw [caseBlueprints]
    exact ⟨every_caseBlueprint offerCase, every_caseBlueprints rest⟩

theorem every_caseBlueprint : ∀ offerCase : OfferCaseOf Statement,
    (caseBlueprint offerCase).Every OfStatements
  | ⟨some condition, message, choices, body⟩ => by
    rw [caseBlueprint]
    have hInputs : [Input.filter, Input.offers, Input.actions].Nodup := by decide
    exact ⟨⟨hInputs, by decide⟩, condition.every_blueprint.ofStatements,
      chainEvery_ofStatements (OfferChoice.chainEvery_blueprints choices), every_blueprints body,
      trivial⟩
  | ⟨none, message, choices, body⟩ => by
    rw [caseBlueprint]
    have hInputs : [Input.offers, Input.actions].Nodup := by decide
    exact ⟨⟨hInputs, by decide⟩,
      chainEvery_ofStatements (OfferChoice.chainEvery_blueprints choices), every_blueprints body,
      trivial⟩

end

end Statement

/-! ## The numbers that are set -/

/-- The name of the number that a block sets. -/
def Block.setNumber? (block : Block) : Option String :=
  if block.tag = BlockKind.setNumber.tag then block.fields.get? Field.name else none

namespace Blueprint

mutual

/-- The names of the numbers that are set in a blueprint. -/
def setNumbers : Blueprint → List String
  | .block kind fields sockets =>
    (if kind = .setNumber then (NameMap.ofList fields).get? Field.name else none).toList ++
      socketsSetNumbers sockets

def socketsSetNumbers : List (SocketOf Blueprint) → List String
  | [] => []
  | socket :: sockets => socketSetNumbers socket ++ socketsSetNumbers sockets

def socketSetNumbers : SocketOf Blueprint → List String
  | .value _ inner => setNumbers inner
  | .body _ chain | .parts _ chain => chainSetNumbers chain

def chainSetNumbers : List Blueprint → List String
  | [] => []
  | first :: rest => setNumbers first ++ chainSetNumbers rest

end

theorem chainSetNumbers_append (first second : List Blueprint) :
    chainSetNumbers (first ++ second) = chainSetNumbers first ++ chainSetNumbers second := by
  induction first with
  | nil => rw [List.nil_append, chainSetNumbers, List.nil_append]
  | cons blueprint rest ih =>
    rw [List.cons_append, chainSetNumbers, chainSetNumbers, ih, List.append_assoc]

theorem setNumber?_layout_head (kind : BlockKind) (fields : List (String × String))
    (node : NodeId) (inputs : List Connection) (next? : Option NodeId)
    (parent? : Option ParentLink) :
    Block.setNumber? ⟨node, kind.tag, NameMap.ofList fields, inputs, next?, parent?⟩ =
      if kind = .setNumber then (NameMap.ofList fields).get? Field.name else none := by
  have hTag : kind.tag = BlockKind.setNumber.tag ↔ kind = .setNumber := by
    rw [← BlockKind.ofTag?_eq_some_iff, BlockKind.ofTag?_tag]
    simp [eq_comm]
  simp only [Block.setNumber?, hTag]

mutual

theorem filterMap_setNumber?_layout (node : Nat) (parent? : Option ParentLink)
    (next? : Option NodeId) : ∀ blueprint : Blueprint,
    (layout node parent? next? blueprint).filterMap Block.setNumber? = blueprint.setNumbers
  | .block kind fields sockets => by
    rw [layout, setNumbers, List.filterMap_cons, setNumber?_layout_head,
      filterMap_setNumber?_socketsLayout node (node + 1) sockets]
    cases (if kind = .setNumber then (NameMap.ofList fields).get? Field.name else none) <;> rfl

theorem filterMap_setNumber?_socketsLayout (node free : Nat) :
    ∀ sockets : List (SocketOf Blueprint),
    (socketsLayout node free sockets).filterMap Block.setNumber? = socketsSetNumbers sockets
  | [] => by
    rw [socketsLayout, socketsSetNumbers]
    rfl
  | socket :: sockets => by
    rw [socketsLayout, socketsSetNumbers, List.filterMap_append,
      filterMap_setNumber?_socketLayout node free socket,
      filterMap_setNumber?_socketsLayout node _ sockets]

theorem filterMap_setNumber?_socketLayout (node free : Nat) : ∀ socket : SocketOf Blueprint,
    (socketLayout node free socket).filterMap Block.setNumber? = socketSetNumbers socket
  | .value input inner => by
    rw [socketLayout, socketSetNumbers, filterMap_setNumber?_layout free _ _ inner]
  | .body input chain | .parts input chain => by
    rw [socketLayout, socketSetNumbers, filterMap_setNumber?_chainLayout free _ chain]

/-- The blocks of a chain that set numbers name just the numbers that are set in it. -/
theorem filterMap_setNumber?_chainLayout (free : Nat) (parent? : Option ParentLink) :
    ∀ chain : List Blueprint,
    (chainLayout free parent? chain).filterMap Block.setNumber? = chainSetNumbers chain
  | [] => by
    rw [chainLayout, chainSetNumbers]
    rfl
  | first :: rest => by
    rw [chainLayout, chainSetNumbers, List.filterMap_append,
      filterMap_setNumber?_layout free _ _ first, filterMap_setNumber?_chainLayout _ _ rest]

end

mutual

theorem setNumbers_of_parts : ∀ blueprint : Blueprint, blueprint.Every OfParts →
    blueprint.setNumbers = []
  | .block kind fields sockets, hEvery => by
    have hKind : kind ≠ .setNumber := by
      rintro rfl
      exact hEvery.1.2.2 rfl
    rw [setNumbers, if_neg hKind, socketsSetNumbers_of_parts sockets hEvery.2]
    rfl

theorem socketsSetNumbers_of_parts : ∀ sockets : List (SocketOf Blueprint),
    socketsEvery OfParts sockets → socketsSetNumbers sockets = []
  | [], _ => by rw [socketsSetNumbers]
  | socket :: sockets, hEvery => by
    rw [socketsSetNumbers, socketSetNumbers_of_parts socket hEvery.1,
      socketsSetNumbers_of_parts sockets hEvery.2]
    rfl

theorem socketSetNumbers_of_parts : ∀ socket : SocketOf Blueprint,
    socketEvery OfParts socket → socketSetNumbers socket = []
  | .value _ inner, hEvery => by rw [socketSetNumbers, setNumbers_of_parts inner hEvery]
  | .body _ chain, hEvery | .parts _ chain, hEvery => by
    rw [socketSetNumbers, chainSetNumbers_of_parts chain hEvery]

theorem chainSetNumbers_of_parts : ∀ chain : List Blueprint, chainEvery OfParts chain →
    chainSetNumbers chain = []
  | [], _ => by rw [chainSetNumbers]
  | first :: rest, hEvery => by
    rw [chainSetNumbers, setNumbers_of_parts first hEvery.1,
      chainSetNumbers_of_parts rest hEvery.2]
    rfl

end

/-- The numbers that a single block sets in its chains, apart from its values. -/
theorem chainSetNumbers_singleton (kind : BlockKind) (fields : List (String × String))
    (sockets : List (SocketOf Blueprint)) (hKind : kind ≠ .setNumber) :
    chainSetNumbers [.block kind fields sockets] = socketsSetNumbers sockets := by
  rw [chainSetNumbers, chainSetNumbers, setNumbers, if_neg hKind, List.append_nil]
  rfl

theorem socketsSetNumbers_value {input : String} {inner : Blueprint}
    (hInner : inner.Every OfParts) (sockets : List (SocketOf Blueprint)) :
    socketsSetNumbers (.value input inner :: sockets) = socketsSetNumbers sockets := by
  rw [socketsSetNumbers, socketSetNumbers, setNumbers_of_parts inner hInner, List.nil_append]

end Blueprint

namespace Statement

mutual

/-- The numbers that are set in the blueprints of a statement are those that the statement sets. -/
theorem chainSetNumbers_blueprints : ∀ statement : Statement,
    chainSetNumbers statement.blueprints = statement.setNumbers
  | empty => by rw [blueprints, chainSetNumbers, setNumbers]
  | block items => by rw [blueprints, setNumbers, chainSetNumbers_blueprintsOfAll items]
  | enterPhase name => by
    rw [blueprints, Blueprint.leaf, chainSetNumbers_singleton _ _ _ (by decide), setNumbers,
      socketsSetNumbers]
  | setNumber name value => by
    have hName : (NameMap.ofList [(Field.name, name)]).get? Field.name = some name :=
      NameMap.get?_ofList (List.nodup_singleton _) List.mem_cons_self
    rw [blueprints, setNumbers, chainSetNumbers, chainSetNumbers, Blueprint.setNumbers, if_pos rfl,
      socketsSetNumbers_value value.every_blueprint, socketsSetNumbers, hName]
    rfl
  | conditional condition goTrue goFalse => by
    rw [blueprints, setNumbers, chainSetNumbers_singleton _ _ _ (by decide),
      socketsSetNumbers_value condition.every_blueprint, socketsSetNumbers, socketsSetNumbers,
      socketsSetNumbers, socketSetNumbers, socketSetNumbers, chainSetNumbers_blueprints goTrue,
      chainSetNumbers_blueprints goFalse, List.append_nil]
  | repeatWhile condition body => by
    rw [blueprints, setNumbers, chainSetNumbers_singleton _ _ _ (by decide),
      socketsSetNumbers_value condition.every_blueprint, socketsSetNumbers, socketsSetNumbers,
      socketSetNumbers, chainSetNumbers_blueprints body, List.append_nil]
  | shuffle zones => by
    rw [blueprints, setNumbers, chainSetNumbers_singleton _ _ _ (by decide),
      socketsSetNumbers_value zones.every_blueprint, socketsSetNumbers]
  | generateCards .allAllowed dest => by
    rw [blueprints, setNumbers, chainSetNumbers_singleton _ _ _ (by decide),
      socketsSetNumbers_value dest.every_blueprint, socketsSetNumbers]
  | deal count source dest => by
    rw [blueprints, setNumbers, chainSetNumbers_singleton _ _ _ (by decide),
      socketsSetNumbers_value count.every_blueprint, socketsSetNumbers_value source.every_blueprint,
      socketsSetNumbers_value dest.every_blueprint, socketsSetNumbers]
  | moveCards source dest => by
    rw [blueprints, setNumbers, chainSetNumbers_singleton _ _ _ (by decide),
      socketsSetNumbers_value source.every_blueprint, socketsSetNumbers_value dest.every_blueprint,
      socketsSetNumbers]
  | declareWinner players => by
    rw [blueprints, setNumbers, chainSetNumbers_singleton _ _ _ (by decide),
      socketsSetNumbers_value players.every_blueprint, socketsSetNumbers]
  | advancePlayer amount => by
    rw [blueprints, setNumbers, chainSetNumbers_singleton _ _ _ (by decide),
      socketsSetNumbers_value amount.every_blueprint, socketsSetNumbers]
  | offer offerTo playerName cases => by
    rw [blueprints, setNumbers]
    cases playerName.filter (· ≠ "") with
    | some name | none =>
      dsimp only
      rw [chainSetNumbers_singleton _ _ _ (by decide),
        socketsSetNumbers_value offerTo.every_blueprint, socketsSetNumbers, socketsSetNumbers,
        socketSetNumbers, chainSetNumbers_caseBlueprints cases, List.append_nil]

theorem chainSetNumbers_blueprintsOfAll : ∀ statements : List Statement,
    chainSetNumbers (blueprintsOfAll statements) = setNumbersOfAll statements
  | [] => by rw [blueprintsOfAll, chainSetNumbers, setNumbersOfAll]
  | first :: rest => by
    rw [blueprintsOfAll, setNumbersOfAll, chainSetNumbers_append, chainSetNumbers_blueprints first,
      chainSetNumbers_blueprintsOfAll rest]

theorem chainSetNumbers_caseBlueprints : ∀ cases : List (OfferCaseOf Statement),
    chainSetNumbers (caseBlueprints cases) = setNumbersOfCases cases
  | [] => by rw [caseBlueprints, chainSetNumbers, setNumbersOfCases]
  | ⟨condition, message, choices, body⟩ :: rest => by
    have hChoices : chainSetNumbers (choices.map OfferChoice.blueprint) = [] :=
      chainSetNumbers_of_parts _ (OfferChoice.chainEvery_blueprints choices)
    have hParts : socketsSetNumbers [.parts Input.offers (choices.map OfferChoice.blueprint),
        .body Input.actions (blueprints body)] = setNumbers body := by
      rw [socketsSetNumbers, socketsSetNumbers, socketsSetNumbers, socketSetNumbers,
        socketSetNumbers, hChoices, chainSetNumbers_blueprints body, List.append_nil,
        List.nil_append]
    rw [caseBlueprints, chainSetNumbers, setNumbersOfCases, chainSetNumbers_caseBlueprints rest]
    cases condition with
    | some condition =>
      rw [caseBlueprint, Blueprint.setNumbers, if_neg (by decide),
        socketsSetNumbers_value condition.every_blueprint, hParts]
      rfl
    | none =>
      rw [caseBlueprint, Blueprint.setNumbers, if_neg (by decide), hParts]
      rfl

end

end Statement

end RuleBlocks
