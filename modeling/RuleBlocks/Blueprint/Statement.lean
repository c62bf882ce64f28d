import RuleBlocks.Block.Selection
import RuleBlocks.Blueprint.Expression
import RuleBlocks.Program.Phases

/-!
# The blueprints of statements

A statement is a chain of blocks: an empty one for the empty statement, the chains of its items one
after the other for a block, and otherwise a single block. An offer and a case each have two forms,
according to whether they name a player or have a condition.
-/

namespace RuleBlocks

def ChoiceType.sourceBlueprint : ChoiceType → Blueprint
  | player players | playerSelection players => players.blueprint
  | card cards | cardSelection cards => cards.blueprint

def OfferChoice.blueprint : OfferChoice → Blueprint
  | selection name choiceType =>
    .block .choiceSelection [(Field.selectedAs, name), (Field.choiceType, choiceType.tag)]
      [.value Input.source choiceType.sourceBlueprint]
  | action (.moveCards source dest) =>
    .block .choiceMove []
      [.value Input.source source.blueprint, .value Input.dest dest.blueprint]

namespace Statement

mutual

/-- The chain of blocks for a statement. -/
def blueprints : Statement → List Blueprint
  | empty => []
  | block items => blueprintsOfAll items
  | enterPhase name => [.leaf .enterPhase Field.phaseName name]
  | setNumber name value =>
    [.block .setNumber [(Field.name, name)] [.value Input.value value.blueprint]]
  | conditional condition goTrue goFalse =>
    [.block .ifElse []
      [.value Input.condition condition.blueprint, .body Input.goTrue (blueprints goTrue),
        .body Input.goFalse (blueprints goFalse)]]
  | repeatWhile condition body =>
    [.block .repeatWhile []
      [.value Input.condition condition.blueprint, .body Input.body (blueprints body)]]
  | shuffle zones => [.block .shuffle [] [.value Input.zones zones.blueprint]]
  | generateCards .allAllowed dest =>
    [.block .generateCards [(Field.cards, Setting.allAllowed)]
      [.value Input.dest dest.blueprint]]
  | deal count source dest =>
    [.block .dealCards []
      [.value Input.count count.blueprint, .value Input.source source.blueprint,
        .value Input.dest dest.blueprint]]
  | moveCards source dest =>
    [.block .moveCards []
      [.value Input.source source.blueprint, .value Input.dest dest.blueprint]]
  | declareWinner players =>
    [.block .declareWinner [] [.value Input.player players.blueprint]]
  | advancePlayer amount =>
    [.block .advancePlayer [] [.value Input.advance amount.blueprint]]
  | offer offerTo playerName cases =>
    let sockets :=
      [.value Input.offerTo offerTo.blueprint, .parts Input.cases (caseBlueprints cases)]
    match playerName.filter (· ≠ "") with
    | some name => [.block .offer [(Field.playerName, name)] sockets]
    | none => [.block .unnamedOffer [] sockets]

/-- The chains of blocks for statements, one after the other. -/
def blueprintsOfAll : List Statement → List Blueprint
  | [] => []
  | item :: items => blueprints item ++ blueprintsOfAll items

def caseBlueprints : List (OfferCaseOf Statement) → List Blueprint
  | [] => []
  | offerCase :: cases => caseBlueprint offerCase :: caseBlueprints cases

def caseBlueprint : OfferCaseOf Statement → Blueprint
  | ⟨condition, message, choices, body⟩ =>
    let sockets :=
      [.parts Input.offers (choices.map OfferChoice.blueprint),
        .body Input.actions (blueprints body)]
    match condition with
    | some condition =>
      .block .offerCase [(Field.prompt, message)]
        (.value Input.filter condition.blueprint :: sockets)
    | none => .block .openOfferCase [(Field.prompt, message)] sockets

end

end Statement

/-- The chains of blocks for phases, in the order of the names: each chain starts with a hat that
holds the name. -/
def Phases.blueprints (phases : Phases) : List (List Blueprint) :=
  phases.entries.map fun entry =>
    .leaf .phase Field.phase entry.1 :: entry.2.blueprints

end RuleBlocks
