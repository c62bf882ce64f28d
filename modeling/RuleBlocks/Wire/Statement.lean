import RuleBlocks.Program.Phases
import RuleBlocks.Wire.Expression

/-!
# The written form of statements and phases

How statements are written as JSON, and how they are read. Every type has a writer `toJson` and a
decoder `ofJson` beside it. The decoder of statements follows the budget of brackets: a statement
inside a statement stands inside at least one more bracket.
-/

namespace RuleBlocks

open Json (Decoder Record Variant Fault)

namespace ChoiceType

def toJson : ChoiceType → Json
  | player players => .tagged "Player" players.toJson
  | playerSelection players => .tagged "PlayerSelection" players.toJson
  | card cards => .tagged "Card" cards.toJson
  | cardSelection cards => .tagged "CardSelection" cards.toJson

def ofJson : Decoder ChoiceType :=
  Variant.decode
    [("Player", .payload (PlayerCollectionExpression.ofJson.map player)),
      ("PlayerSelection", .payload (PlayerCollectionExpression.ofJson.map playerSelection)),
      ("Card", .payload (CardCollectionExpression.ofJson.map card)),
      ("CardSelection", .payload (CardCollectionExpression.ofJson.map cardSelection))]

end ChoiceType

namespace ChoiceAction

def toJson : ChoiceAction → Json
  | moveCards source dest =>
    .tagged "MoveCards" (.object [("from", source.toJson), ("to", dest.toJson)])

def ofJson : Decoder ChoiceAction :=
  Variant.decode
    [("MoveCards", .payload
      (((Record.pure moveCards).and (.field "from" ZoneExpression.ofJson)).and
        (.field "to" ZoneExpression.ofJson)).decode)]

end ChoiceAction

namespace OfferChoice

def toJson : OfferChoice → Json
  | selection name choiceType =>
    .tagged "Selection" (.object [("name", .text name), ("choice_type", choiceType.toJson)])
  | action done => .tagged "Action" done.toJson

def ofJson : Decoder OfferChoice :=
  Variant.decode
    [("Selection", .payload
        (((Record.pure selection).and (.field "name" Decoder.text)).and
          (.field "choice_type" ChoiceType.ofJson)).decode),
      ("Action", .payload (ChoiceAction.ofJson.map action))]

end OfferChoice

namespace Statement

mutual

def toJson : Statement → Json
  | enterPhase name => .tagged "EnterPhase" (.text name)
  | setNumber name value =>
    .tagged "SetNumber" (.object [("name", .text name), ("value", value.toJson)])
  | conditional condition goTrue goFalse =>
    .tagged "Conditional" (.object
      [("condition", condition.toJson), ("go_true", toJson goTrue), ("go_false", toJson goFalse)])
  | repeatWhile condition body =>
    .tagged "While" (.object [("condition", condition.toJson), ("do", toJson body)])
  | shuffle zones => .tagged "Shuffle" zones.toJson
  | generateCards cards dest =>
    .tagged "GenerateCards" (.object [("cards", cards.toJson), ("dest", dest.toJson)])
  | deal count source dest =>
    .tagged "Deal" (.object
      [("num_cards", count.toJson), ("source", source.toJson), ("dest", dest.toJson)])
  | moveCards source dest =>
    .tagged "MoveCardsTo" (.object [("source", source.toJson), ("dest", dest.toJson)])
  | declareWinner players => .tagged "DeclareWinner" players.toJson
  | advancePlayer amount => .tagged "AdvancePlayerState" amount.toJson
  | offer offerTo playerName cases =>
    .tagged "Offer" (.object
      [("offer_to", offerTo.toJson), ("player_name", .optional .text playerName),
        ("cases", .array (casesToJson cases))])
  | block items => .tagged "Block" (.array (itemsToJson items))
  | empty => .text "Empty"

def itemsToJson : List Statement → List Json
  | [] => []
  | item :: items => toJson item :: itemsToJson items

def casesToJson : List (OfferCaseOf Statement) → List Json
  | [] => []
  | offerCase :: cases => caseToJson offerCase :: casesToJson cases

def caseToJson : OfferCaseOf Statement → Json
  | ⟨condition, message, choices, body⟩ =>
    .object
      [("condition", .optional BooleanExpression.toJson condition), ("message", .text message),
        ("choices", .array (choices.map OfferChoice.toJson)), ("then", toJson body)]

end

/-- Read a case whose body is read by the given decoder. -/
def caseOfJson (body : Decoder Statement) : Decoder OfferCase :=
  ((((Record.pure OfferCaseOf.mk).and
    (.optionalField "condition" BooleanExpression.ofJson)).and
    (.field "message" Decoder.text)).and
    (.field "choices" OfferChoice.ofJson.list)).and
    (.field "then" body) |>.decode

/-- The variants of statements, where a statement inside a statement is read by the given
decoder. -/
def variants (inner : Decoder Statement) : List (String × Variant Statement) :=
  [("EnterPhase", .payload (Decoder.text.map enterPhase)),
    ("SetNumber", .payload
      (((Record.pure setNumber).and (.field "name" Decoder.text)).and
        (.field "value" NumberExpression.ofJson)).decode),
    ("Conditional", .payload
      ((((Record.pure conditional).and (.field "condition" BooleanExpression.ofJson)).and
        (.field "go_true" inner)).and (.field "go_false" inner)).decode),
    ("While", .payload
      (((Record.pure repeatWhile).and (.field "condition" BooleanExpression.ofJson)).and
        (.field "do" inner)).decode),
    ("Shuffle", .payload (ZoneCollectionExpression.ofJson.map shuffle)),
    ("GenerateCards", .payload
      (((Record.pure generateCards).and (.field "cards" CardSet.ofJson)).and
        (.field "dest" ZoneExpression.ofJson)).decode),
    ("Deal", .payload
      ((((Record.pure deal).and (.field "num_cards" NumberExpression.ofJson)).and
        (.field "source" ZoneExpression.ofJson)).and
        (.field "dest" ZoneCollectionExpression.ofJson)).decode),
    ("MoveCardsTo", .payload
      (((Record.pure moveCards).and (.field "source" CardCollectionExpression.ofJson)).and
        (.field "dest" ZoneExpression.ofJson)).decode),
    ("DeclareWinner", .payload (PlayerCollectionExpression.ofJson.map declareWinner)),
    ("AdvancePlayerState", .payload (NumberExpression.ofJson.map advancePlayer)),
    ("Offer", .payload
      ((((Record.pure offer).and (.field "offer_to" PlayerCollectionExpression.ofJson)).and
        (.optionalField "player_name" Decoder.text)).and
        (.field "cases" (caseOfJson inner).list)).decode),
    ("Block", .payload (inner.list.map block)),
    ("Empty", .single empty)]

/-- Read a statement that holds statements inside one another less deep than given. -/
def ofJsonWithin : Nat → Decoder Statement
  | 0, _, _ => .error .malformed
  | depth + 1, budget, document =>
    Variant.decode (variants (ofJsonWithin depth)) budget document

/-- Read a statement. Within a budget, statements cannot stand inside one another deeper than the
budget goes. -/
def ofJson : Decoder Statement := fun budget document => ofJsonWithin (budget + 1) budget document

end Statement

namespace OfferCase

def toJson (offerCase : OfferCase) : Json := Statement.caseToJson offerCase

def ofJson : Decoder OfferCase := Statement.caseOfJson Statement.ofJson

end OfferCase

namespace Phases

/-- Phases are written as an object with one member for each phase, in the order of the names. -/
def toJson (phases : Phases) : Json :=
  .object (phases.entries.map fun entry => (entry.1, .object [("evaluate", entry.2.toJson)]))

/-- Read phases. Of several phases with one name the last one counts. -/
def ofJson : Decoder Phases :=
  (Decoder.members ((Record.pure id).and (.field "evaluate" Statement.ofJson)).decode).map
    NameMap.ofList

end Phases

end RuleBlocks
