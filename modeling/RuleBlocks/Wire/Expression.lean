import RuleBlocks.Json.Decoder
import RuleBlocks.Program.Expression

/-!
# The written form of expressions

How expressions are written as JSON, and how they are read. Every type of expression has a writer
`toJson` and a decoder `ofJson` beside it.
-/

namespace RuleBlocks

open Json (Decoder Record Variant)

namespace Rank

def toJson (rank : Rank) : Json := .text rank.name

def ofJson : Decoder Rank := Variant.decode (all.map fun rank => (rank.name, .single rank))

end Rank

namespace Suit

def toJson (suit : Suit) : Json := .text suit.name

def ofJson : Decoder Suit := Variant.decode (all.map fun suit => (suit.name, .single suit))

end Suit

namespace Comparison

def toJson (comparison : Comparison) : Json := .text comparison.code

def ofJson : Decoder Comparison :=
  Variant.decode (all.map fun comparison => (comparison.code, .single comparison))

end Comparison

namespace CardSet

def toJson : CardSet → Json
  | allAllowed => .text "AllAllowed"

def ofJson : Decoder CardSet := Variant.decode [("AllAllowed", .single allAllowed)]

end CardSet

namespace PlayerExpression

def toJson : PlayerExpression → Json
  | currentPlayer => .text "CurrentPlayer"
  | var name => .tagged "GetVariable" (.text name)

def ofJson : Decoder PlayerExpression :=
  Variant.decode
    [("CurrentPlayer", .single currentPlayer),
      ("GetVariable", .payload (Decoder.text.map var))]

end PlayerExpression

namespace PlayerCollectionExpression

def toJson : PlayerCollectionExpression → Json
  | allPlayers => .text "AllPlayers"
  | single player => .tagged "Single" player.toJson
  | var name => .tagged "GetVariable" (.text name)

def ofJson : Decoder PlayerCollectionExpression :=
  Variant.decode
    [("AllPlayers", .single allPlayers),
      ("Single", .payload (PlayerExpression.ofJson.map single)),
      ("GetVariable", .payload (Decoder.text.map var))]

end PlayerCollectionExpression

namespace ZoneExpression

def toJson : ZoneExpression → Json
  | ownedByPlayer player zoneName =>
    .tagged "OwnedByPlayer" (.object [("player", player.toJson), ("zone_name", .text zoneName)])
  | var name => .tagged "GetVariable" (.text name)

def ofJson : Decoder ZoneExpression :=
  Variant.decode
    [("OwnedByPlayer", .payload
        ((((Record.pure ownedByPlayer).and (.field "player" PlayerExpression.ofJson)).and
          (.field "zone_name" Decoder.text))).decode),
      ("GetVariable", .payload (Decoder.text.map var))]

end ZoneExpression

namespace ZoneCollectionExpression

def toJson : ZoneCollectionExpression → Json
  | single zone => .tagged "Single" zone.toJson
  | ofType typeName => .tagged "OfType" (.text typeName)
  | var name => .tagged "GetVariable" (.text name)

def ofJson : Decoder ZoneCollectionExpression :=
  Variant.decode
    [("Single", .payload (ZoneExpression.ofJson.map single)),
      ("OfType", .payload (Decoder.text.map ofType)),
      ("GetVariable", .payload (Decoder.text.map var))]

end ZoneCollectionExpression

namespace CardExpression

def toJson : CardExpression → Json
  | var name => .tagged "GetVariable" (.text name)

def ofJson : Decoder CardExpression :=
  Variant.decode [("GetVariable", .payload (Decoder.text.map var))]

end CardExpression

namespace RankExpression

def toJson : RankExpression → Json
  | literal rank => .tagged "Literal" rank.toJson
  | ofCard card => .tagged "FromCard" card.toJson

def ofJson : Decoder RankExpression :=
  Variant.decode
    [("Literal", .payload (Rank.ofJson.map literal)),
      ("FromCard", .payload (CardExpression.ofJson.map ofCard))]

end RankExpression

namespace SuitExpression

def toJson : SuitExpression → Json
  | literal suit => .tagged "Literal" suit.toJson
  | ofCard card => .tagged "FromCard" card.toJson

def ofJson : Decoder SuitExpression :=
  Variant.decode
    [("Literal", .payload (Suit.ofJson.map literal)),
      ("FromCard", .payload (CardExpression.ofJson.map ofCard))]

end SuitExpression

namespace CardCollectionExpression

def toJson : CardCollectionExpression → Json
  | single card => .tagged "Single" card.toJson
  | var name => .tagged "GetVariable" (.text name)
  | allInZone zone => .tagged "AllInZone" zone.toJson
  | topInZone zone => .tagged "TopInZone" zone.toJson
  | bottomInZone zone => .tagged "BottomInZone" zone.toJson
  | matchingSuit zone suit =>
    .tagged "MatchingSuit" (.object [("zone", zone.toJson), ("suit", suit.toJson)])
  | matchingRank zone rank =>
    .tagged "MatchingRank" (.object [("zone", zone.toJson), ("rank", rank.toJson)])

def ofJson : Decoder CardCollectionExpression :=
  Variant.decode
    [("Single", .payload (CardExpression.ofJson.map single)),
      ("GetVariable", .payload (Decoder.text.map var)),
      ("AllInZone", .payload (ZoneExpression.ofJson.map allInZone)),
      ("TopInZone", .payload (ZoneExpression.ofJson.map topInZone)),
      ("BottomInZone", .payload (ZoneExpression.ofJson.map bottomInZone)),
      ("MatchingSuit", .payload
        (((Record.pure matchingSuit).and (.field "zone" ZoneExpression.ofJson)).and
          (.field "suit" SuitExpression.ofJson)).decode),
      ("MatchingRank", .payload
        (((Record.pure matchingRank).and (.field "zone" ZoneExpression.ofJson)).and
          (.field "rank" RankExpression.ofJson)).decode)]

end CardCollectionExpression

namespace NumberExpression

def toJson : NumberExpression → Json
  | literal value => .tagged "Literal" (.integer value.toInt)
  | var name => .tagged "GetVariable" (.text name)
  | cardsIn cards => .tagged "CardsIn" cards.toJson

def ofJson : Decoder NumberExpression :=
  Variant.decode
    [("Literal", .payload (Decoder.word.map literal)),
      ("GetVariable", .payload (Decoder.text.map var)),
      ("CardsIn", .payload (CardCollectionExpression.ofJson.map cardsIn))]

end NumberExpression

namespace BooleanExpression

def toJson : BooleanExpression → Json
  | literal value => .tagged "Literal" (.boolean value)
  | comparison left comparedTo right =>
    .tagged "Comparison" (.object
      [("a", left.toJson), ("compared_to", comparedTo.toJson), ("b", right.toJson)])
  | playerIsType player typeName =>
    .tagged "PlayerIsType" (.object [("player", player.toJson), ("type_name", .text typeName)])

def ofJson : Decoder BooleanExpression :=
  Variant.decode
    [("Literal", .payload (Decoder.boolean.map literal)),
      ("Comparison", .payload
        ((((Record.pure comparison).and (.field "a" NumberExpression.ofJson)).and
          (.field "compared_to" Comparison.ofJson)).and
          (.field "b" NumberExpression.ofJson)).decode),
      ("PlayerIsType", .payload
        (((Record.pure playerIsType).and (.field "player" PlayerExpression.ofJson)).and
          (.field "type_name" Decoder.text)).decode)]

end BooleanExpression

namespace Expression

/-- The written form of an expression without its category. -/
def payloadToJson : Expression → Json
  | number expression => expression.toJson
  | boolean expression => expression.toJson
  | player expression => expression.toJson
  | playerCollection expression => expression.toJson
  | zone expression => expression.toJson
  | zoneCollection expression => expression.toJson
  | card expression => expression.toJson
  | cardCollection expression => expression.toJson
  | rank expression => expression.toJson
  | suit expression => expression.toJson

/-- The name by which a category is written. -/
def categoryName : Category → String
  | .number => "Number"
  | .boolean => "Boolean"
  | .player => "Player"
  | .playerCollection => "PlayerCollection"
  | .zone => "Zone"
  | .zoneCollection => "ZoneCollection"
  | .card => "Card"
  | .cardCollection => "CardCollection"
  | .rank => "Rank"
  | .suit => "Suit"

/-- An expression is written under the name of its category. -/
def toJson (expression : Expression) : Json :=
  .tagged (categoryName expression.category) expression.payloadToJson

def ofJson : Decoder Expression :=
  Variant.decode
    [("Number", .payload (NumberExpression.ofJson.map number)),
      ("Boolean", .payload (BooleanExpression.ofJson.map boolean)),
      ("Player", .payload (PlayerExpression.ofJson.map player)),
      ("PlayerCollection", .payload (PlayerCollectionExpression.ofJson.map playerCollection)),
      ("Zone", .payload (ZoneExpression.ofJson.map zone)),
      ("ZoneCollection", .payload (ZoneCollectionExpression.ofJson.map zoneCollection)),
      ("Card", .payload (CardExpression.ofJson.map card)),
      ("CardCollection", .payload (CardCollectionExpression.ofJson.map cardCollection)),
      ("Rank", .payload (RankExpression.ofJson.map rank)),
      ("Suit", .payload (SuitExpression.ofJson.map suit))]

end Expression

end RuleBlocks
