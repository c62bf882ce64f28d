import RuleBlocks.Block.Slot
import RuleBlocks.Blueprint.Basic
import RuleBlocks.Program.Expression
import RuleBlocks.Text.Decimal

/-!
# The blueprints of expressions

Every expression is one block with further expressions in its inputs. A single element that stands
for a collection is the block of the element itself.
-/

namespace RuleBlocks

/-- The block that reads a variable of a category. -/
def Blueprint.variableOf (category : Category) (name : String) : Blueprint :=
  .block .getTyped [(Field.category, category.tag), (Field.variableName, name)] []

def PlayerExpression.blueprint : PlayerExpression → Blueprint
  | currentPlayer => .block .currentPlayer [] []
  | var name => .variableOf .player name

def PlayerCollectionExpression.blueprint : PlayerCollectionExpression → Blueprint
  | allPlayers => .block .allPlayers [] []
  | single player => player.blueprint
  | var name => .variableOf .playerCollection name

def ZoneExpression.blueprint : ZoneExpression → Blueprint
  | ownedByPlayer player zoneName =>
    .block .zoneForPlayer [(Field.zoneName, zoneName)] [.value Input.player player.blueprint]
  | var name => .variableOf .zone name

def ZoneCollectionExpression.blueprint : ZoneCollectionExpression → Blueprint
  | single zone => zone.blueprint
  | ofType typeName => .leaf .zonesOfType Field.zoneType typeName
  | var name => .variableOf .zoneCollection name

def CardExpression.blueprint : CardExpression → Blueprint
  | var name => .variableOf .card name

def RankExpression.blueprint : RankExpression → Blueprint
  | literal rank => .leaf .rankLiteral Field.rank rank.name
  | ofCard card => .block .rankFromCard [] [.value Input.card card.blueprint]

def SuitExpression.blueprint : SuitExpression → Blueprint
  | literal suit => .leaf .suitLiteral Field.suit suit.name
  | ofCard card => .block .suitFromCard [] [.value Input.card card.blueprint]

/-- The block that takes cards from a zone, as a setting says. -/
def Blueprint.selector (setting : String) (zone : ZoneExpression) : Blueprint :=
  .block .cardSelector [(Field.selector, setting)] [.value Input.zone zone.blueprint]

def CardCollectionExpression.blueprint : CardCollectionExpression → Blueprint
  | single card => card.blueprint
  | var name => .variableOf .cardCollection name
  | allInZone zone => .selector Setting.selectAll zone
  | topInZone zone => .selector Setting.selectTop zone
  | bottomInZone zone => .selector Setting.selectBottom zone
  | matchingSuit zone suit =>
    .block .cardsMatchingSuit []
      [.value Input.zone zone.blueprint, .value Input.suit suit.blueprint]
  | matchingRank zone rank =>
    .block .cardsMatchingRank []
      [.value Input.zone zone.blueprint, .value Input.rank rank.blueprint]

def NumberExpression.blueprint : NumberExpression → Blueprint
  | literal value => .leaf .numberLiteral Field.number (Text.Decimal.writeWord value)
  | var name => .leaf .getNumber Field.numberName name
  | cardsIn cards => .block .cardCount [] [.value Input.cards cards.blueprint]

def BooleanExpression.blueprint : BooleanExpression → Blueprint
  | literal value =>
    .leaf .booleanLiteral Field.boolean (if value then Setting.true else Setting.false)
  | comparison left comparedTo right =>
    .block .compare [(Field.comparison, comparedTo.code)]
      [.value Input.left left.blueprint, .value Input.right right.blueprint]
  | playerIsType player typeName =>
    .block .playerOfType [(Field.typeName, typeName)] [.value Input.player player.blueprint]

def Expression.blueprint : Expression → Blueprint
  | number expression => expression.blueprint
  | boolean expression => expression.blueprint
  | player expression => expression.blueprint
  | playerCollection expression => expression.blueprint
  | zone expression => expression.blueprint
  | zoneCollection expression => expression.blueprint
  | card expression => expression.blueprint
  | cardCollection expression => expression.blueprint
  | rank expression => expression.blueprint
  | suit expression => expression.blueprint

end RuleBlocks
