import RuleBlocks.Proofs.Json.Decoder
import RuleBlocks.Wire.Expression

/-!
# Written expressions are read back

Every decoder of expressions reads an expression back from its written form.
-/

namespace RuleBlocks

open Json.Decoder (reads_text reads_boolean reads_word)
open Json.Variant (reads_single reads_payload)
open Json.Record (reads_pure reads_field reads_object)

theorem Rank.reads_toJson (rank : Rank) : ofJson.Reads rank.toJson rank :=
  reads_single (by cases rank <;> rfl)

theorem Suit.reads_toJson (suit : Suit) : ofJson.Reads suit.toJson suit :=
  reads_single (by cases suit <;> rfl)

theorem Comparison.reads_toJson (comparison : Comparison) :
    ofJson.Reads comparison.toJson comparison :=
  reads_single (by cases comparison <;> rfl)

theorem CardSet.reads_toJson : ∀ cards : CardSet, ofJson.Reads cards.toJson cards
  | .allAllowed => reads_single rfl

theorem PlayerExpression.reads_toJson : ∀ player : PlayerExpression,
    ofJson.Reads player.toJson player
  | .currentPlayer => reads_single rfl
  | .var name => reads_payload rfl ((reads_text name).map var)

theorem PlayerCollectionExpression.reads_toJson : ∀ players : PlayerCollectionExpression,
    ofJson.Reads players.toJson players
  | .allPlayers => reads_single rfl
  | .single player => reads_payload rfl (player.reads_toJson.map single)
  | .var name => reads_payload rfl ((reads_text name).map var)

theorem ZoneExpression.reads_toJson : ∀ zone : ZoneExpression, ofJson.Reads zone.toJson zone
  | .ownedByPlayer player zoneName => by
    refine reads_payload rfl (reads_object rfl (by decide) ?_)
    exact ((reads_pure ownedByPlayer).and (reads_field (by simp) player.reads_toJson)).and
      (reads_field (by simp) (reads_text zoneName))
  | .var name => reads_payload rfl ((reads_text name).map var)

theorem ZoneCollectionExpression.reads_toJson : ∀ zones : ZoneCollectionExpression,
    ofJson.Reads zones.toJson zones
  | .single zone => reads_payload rfl (zone.reads_toJson.map single)
  | .ofType typeName => reads_payload rfl ((reads_text typeName).map ofType)
  | .var name => reads_payload rfl ((reads_text name).map var)

theorem CardExpression.reads_toJson : ∀ card : CardExpression, ofJson.Reads card.toJson card
  | .var name => reads_payload rfl ((reads_text name).map var)

theorem RankExpression.reads_toJson : ∀ rank : RankExpression, ofJson.Reads rank.toJson rank
  | .literal rank => reads_payload rfl (rank.reads_toJson.map literal)
  | .ofCard card => reads_payload rfl (card.reads_toJson.map ofCard)

theorem SuitExpression.reads_toJson : ∀ suit : SuitExpression, ofJson.Reads suit.toJson suit
  | .literal suit => reads_payload rfl (suit.reads_toJson.map literal)
  | .ofCard card => reads_payload rfl (card.reads_toJson.map ofCard)

theorem CardCollectionExpression.reads_toJson : ∀ cards : CardCollectionExpression,
    ofJson.Reads cards.toJson cards
  | .single card => reads_payload rfl (card.reads_toJson.map single)
  | .var name => reads_payload rfl ((reads_text name).map var)
  | .allInZone zone => reads_payload rfl (zone.reads_toJson.map allInZone)
  | .topInZone zone => reads_payload rfl (zone.reads_toJson.map topInZone)
  | .bottomInZone zone => reads_payload rfl (zone.reads_toJson.map bottomInZone)
  | .matchingSuit zone suit => by
    refine reads_payload rfl (reads_object rfl (by decide) ?_)
    exact ((reads_pure matchingSuit).and (reads_field (by simp) zone.reads_toJson)).and
      (reads_field (by simp) suit.reads_toJson)
  | .matchingRank zone rank => by
    refine reads_payload rfl (reads_object rfl (by decide) ?_)
    exact ((reads_pure matchingRank).and (reads_field (by simp) zone.reads_toJson)).and
      (reads_field (by simp) rank.reads_toJson)

theorem NumberExpression.reads_toJson : ∀ number : NumberExpression,
    ofJson.Reads number.toJson number
  | .literal value => reads_payload rfl ((reads_word value).map literal)
  | .var name => reads_payload rfl ((reads_text name).map var)
  | .cardsIn cards => reads_payload rfl (cards.reads_toJson.map cardsIn)

theorem BooleanExpression.reads_toJson : ∀ boolean : BooleanExpression,
    ofJson.Reads boolean.toJson boolean
  | .literal value => reads_payload rfl ((reads_boolean value).map literal)
  | .comparison left comparedTo right => by
    refine reads_payload rfl (reads_object rfl (by decide) ?_)
    exact (((reads_pure comparison).and (reads_field (by simp) left.reads_toJson)).and
      (reads_field (by simp) comparedTo.reads_toJson)).and
      (reads_field (by simp) right.reads_toJson)
  | .playerIsType player typeName => by
    refine reads_payload rfl (reads_object rfl (by decide) ?_)
    exact ((reads_pure playerIsType).and (reads_field (by simp) player.reads_toJson)).and
      (reads_field (by simp) (reads_text typeName))

/-- **Every expression is read back under the name of its category.** -/
theorem Expression.reads_toJson : ∀ expression : Expression,
    ofJson.Reads expression.toJson expression
  | .number expression => reads_payload rfl (expression.reads_toJson.map number)
  | .boolean expression => reads_payload rfl (expression.reads_toJson.map boolean)
  | .player expression => reads_payload rfl (expression.reads_toJson.map player)
  | .playerCollection expression => reads_payload rfl (expression.reads_toJson.map playerCollection)
  | .zone expression => reads_payload rfl (expression.reads_toJson.map zone)
  | .zoneCollection expression => reads_payload rfl (expression.reads_toJson.map zoneCollection)
  | .card expression => reads_payload rfl (expression.reads_toJson.map card)
  | .cardCollection expression => reads_payload rfl (expression.reads_toJson.map cardCollection)
  | .rank expression => reads_payload rfl (expression.reads_toJson.map rank)
  | .suit expression => reads_payload rfl (expression.reads_toJson.map suit)

end RuleBlocks
