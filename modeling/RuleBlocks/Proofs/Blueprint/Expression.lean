import RuleBlocks.Blueprint.Statement
import RuleBlocks.Proofs.Basic
import RuleBlocks.Proofs.Blueprint.Form
import Mathlib.Data.Bool.Basic

/-!
# The blueprints of expressions and choices

Every expression and every choice has the blueprint of a block that fits the form of its kind
(`fits_blueprint`), and it is known from this blueprint: for every category, expressions with the
same blueprint are the same (`blueprint_inj`), and so are choices (`blueprint_injective`).

The kind of the block tells how an expression is made, with three exceptions. Variables are told
from one another by their categories, cards that are taken from a zone by the setting, and a single
element of a collection has the block of the element.
-/

namespace RuleBlocks

open Blueprint

namespace Blueprint

theorem leaf_inj {kind : BlockKind} {field text other : String} :
    leaf kind field text = leaf kind field other ↔ text = other := by
  simp [leaf]

@[simp] theorem variableOf_inj {first second : Category} {name other : String} :
    variableOf first name = variableOf second other ↔ first = second ∧ name = other := by
  have hTag : first.tag = second.tag ↔ first = second :=
    ⟨Category.tag_injective, congrArg Category.tag⟩
  simp [variableOf, hTag]

theorem fits_variableOf (category : Category) (name : String) :
    (variableOf category name).Fits := ⟨⟨rfl, rfl⟩, trivial⟩

end Blueprint

namespace PlayerExpression

theorem fits_blueprint (player : PlayerExpression) : player.blueprint.Fits := by
  cases player with
  | currentPlayer => exact ⟨⟨rfl, rfl⟩, trivial⟩
  | var name => exact fits_variableOf _ _

@[simp] theorem blueprint_inj {first second : PlayerExpression} :
    first.blueprint = second.blueprint ↔ first = second := by
  refine ⟨fun hEq => ?_, congrArg _⟩
  have hKind := congrArg Blueprint.kind hEq
  cases first with
  | currentPlayer =>
    cases second with
    | currentPlayer => rfl
    | var name => cases hKind
  | var name =>
    cases second with
    | currentPlayer => cases hKind
    | var other => rw [(variableOf_inj.mp hEq).2]

/-- The block of a single player reads no variable of player collections. -/
theorem blueprint_ne_variableOf (player : PlayerExpression) (name : String) :
    player.blueprint ≠ variableOf .playerCollection name := by
  intro hEq
  cases player with
  | currentPlayer => cases congrArg Blueprint.kind hEq
  | var other => cases (variableOf_inj.mp hEq).1

theorem kind_blueprint_ne_allPlayers (player : PlayerExpression) :
    player.blueprint.kind ≠ .allPlayers := by
  cases player with
  | currentPlayer | var name => exact BlockKind.noConfusion

end PlayerExpression

namespace PlayerCollectionExpression

theorem fits_blueprint (players : PlayerCollectionExpression) : players.blueprint.Fits := by
  cases players with
  | allPlayers => exact ⟨⟨rfl, rfl⟩, trivial⟩
  | single player => exact player.fits_blueprint
  | var name => exact fits_variableOf _ _

@[simp] theorem blueprint_inj {first second : PlayerCollectionExpression} :
    first.blueprint = second.blueprint ↔ first = second := by
  refine ⟨fun hEq => ?_, congrArg _⟩
  have hKind := congrArg Blueprint.kind hEq
  cases first with
  | allPlayers =>
    cases second with
    | allPlayers => rfl
    | single player => exact absurd hKind.symm player.kind_blueprint_ne_allPlayers
    | var name => cases hKind
  | single player =>
    cases second with
    | allPlayers => exact absurd hKind player.kind_blueprint_ne_allPlayers
    | single other => rw [PlayerExpression.blueprint_inj.mp hEq]
    | var name => exact absurd hEq (player.blueprint_ne_variableOf name)
  | var name =>
    cases second with
    | allPlayers => cases hKind
    | single player => exact absurd hEq.symm (player.blueprint_ne_variableOf name)
    | var other => rw [(variableOf_inj.mp hEq).2]

end PlayerCollectionExpression

namespace ZoneExpression

theorem fits_blueprint (zone : ZoneExpression) : zone.blueprint.Fits := by
  cases zone with
  | ownedByPlayer player zoneName => exact ⟨⟨rfl, rfl⟩, player.fits_blueprint, trivial⟩
  | var name => exact fits_variableOf _ _

@[simp] theorem blueprint_inj {first second : ZoneExpression} :
    first.blueprint = second.blueprint ↔ first = second := by
  refine ⟨fun hEq => ?_, congrArg _⟩
  have hKind := congrArg Blueprint.kind hEq
  cases first with
  | ownedByPlayer player zoneName =>
    cases second with
    | ownedByPlayer other otherName =>
      obtain ⟨hName, hPlayer⟩ : zoneName = otherName ∧ player = other := by
        simpa [blueprint] using hEq
      rw [hName, hPlayer]
    | var name => cases hKind
  | var name =>
    cases second with
    | ownedByPlayer player zoneName => cases hKind
    | var other => rw [(variableOf_inj.mp hEq).2]

/-- The block of a single zone reads no variable of zone collections. -/
theorem blueprint_ne_variableOf (zone : ZoneExpression) (name : String) :
    zone.blueprint ≠ variableOf .zoneCollection name := by
  intro hEq
  cases zone with
  | ownedByPlayer player zoneName => cases congrArg Blueprint.kind hEq
  | var other => cases (variableOf_inj.mp hEq).1

theorem kind_blueprint_ne_zonesOfType (zone : ZoneExpression) :
    zone.blueprint.kind ≠ .zonesOfType := by
  cases zone with
  | ownedByPlayer player zoneName | var name => exact BlockKind.noConfusion

end ZoneExpression

namespace ZoneCollectionExpression

theorem fits_blueprint (zones : ZoneCollectionExpression) : zones.blueprint.Fits := by
  cases zones with
  | single zone => exact zone.fits_blueprint
  | ofType typeName => exact ⟨⟨rfl, rfl⟩, trivial⟩
  | var name => exact fits_variableOf _ _

@[simp] theorem blueprint_inj {first second : ZoneCollectionExpression} :
    first.blueprint = second.blueprint ↔ first = second := by
  refine ⟨fun hEq => ?_, congrArg _⟩
  have hKind := congrArg Blueprint.kind hEq
  cases first with
  | single zone =>
    cases second with
    | single other => rw [ZoneExpression.blueprint_inj.mp hEq]
    | ofType typeName => exact absurd hKind zone.kind_blueprint_ne_zonesOfType
    | var name => exact absurd hEq (zone.blueprint_ne_variableOf name)
  | ofType typeName =>
    cases second with
    | single zone => exact absurd hKind.symm zone.kind_blueprint_ne_zonesOfType
    | ofType otherName => rw [leaf_inj.mp hEq]
    | var name => cases hKind
  | var name =>
    cases second with
    | single zone => exact absurd hEq.symm (zone.blueprint_ne_variableOf name)
    | ofType typeName => cases hKind
    | var other => rw [(variableOf_inj.mp hEq).2]

end ZoneCollectionExpression

namespace CardExpression

theorem fits_blueprint (card : CardExpression) : card.blueprint.Fits := by
  cases card with
  | var name => exact fits_variableOf _ _

@[simp] theorem blueprint_inj {first second : CardExpression} :
    first.blueprint = second.blueprint ↔ first = second := by
  refine ⟨fun hEq => ?_, congrArg _⟩
  obtain ⟨name⟩ := first
  obtain ⟨other⟩ := second
  rw [(variableOf_inj.mp hEq).2]

theorem kind_blueprint (card : CardExpression) : card.blueprint.kind = .getTyped := by
  cases card with
  | var name => rfl

end CardExpression

namespace RankExpression

theorem fits_blueprint (rank : RankExpression) : rank.blueprint.Fits := by
  cases rank with
  | literal rank => exact ⟨⟨rfl, rfl⟩, trivial⟩
  | ofCard card => exact ⟨⟨rfl, rfl⟩, card.fits_blueprint, trivial⟩

@[simp] theorem blueprint_inj {first second : RankExpression} :
    first.blueprint = second.blueprint ↔ first = second := by
  refine ⟨fun hEq => ?_, congrArg _⟩
  have hKind := congrArg Blueprint.kind hEq
  cases first with
  | literal rank =>
    cases second with
    | literal other => rw [injective_of_read Rank.ofName?_name (leaf_inj.mp hEq)]
    | ofCard card => cases hKind
  | ofCard card =>
    cases second with
    | literal rank => cases hKind
    | ofCard other =>
      obtain rfl : card = other := by simpa [blueprint] using hEq
      rfl

end RankExpression

namespace SuitExpression

theorem fits_blueprint (suit : SuitExpression) : suit.blueprint.Fits := by
  cases suit with
  | literal suit => exact ⟨⟨rfl, rfl⟩, trivial⟩
  | ofCard card => exact ⟨⟨rfl, rfl⟩, card.fits_blueprint, trivial⟩

@[simp] theorem blueprint_inj {first second : SuitExpression} :
    first.blueprint = second.blueprint ↔ first = second := by
  refine ⟨fun hEq => ?_, congrArg _⟩
  have hKind := congrArg Blueprint.kind hEq
  cases first with
  | literal suit =>
    cases second with
    | literal other => rw [injective_of_read Suit.ofName?_name (leaf_inj.mp hEq)]
    | ofCard card => cases hKind
  | ofCard card =>
    cases second with
    | literal suit => cases hKind
    | ofCard other =>
      obtain rfl : card = other := by simpa [blueprint] using hEq
      rfl

end SuitExpression

theorem Blueprint.selector_inj {setting otherSetting : String} {zone other : ZoneExpression} :
    selector setting zone = selector otherSetting other ↔
      setting = otherSetting ∧ zone = other := by
  simp [selector]

namespace CardCollectionExpression

theorem fits_blueprint (cards : CardCollectionExpression) : cards.blueprint.Fits := by
  cases cards with
  | single card => exact card.fits_blueprint
  | var name => exact fits_variableOf _ _
  | allInZone zone | topInZone zone | bottomInZone zone =>
    exact ⟨⟨rfl, rfl⟩, zone.fits_blueprint, trivial⟩
  | matchingSuit zone suit => exact ⟨⟨rfl, rfl⟩, zone.fits_blueprint, suit.fits_blueprint, trivial⟩
  | matchingRank zone rank => exact ⟨⟨rfl, rfl⟩, zone.fits_blueprint, rank.fits_blueprint, trivial⟩

@[simp] theorem blueprint_inj {first second : CardCollectionExpression} :
    first.blueprint = second.blueprint ↔ first = second := by
  refine ⟨fun hEq => ?_, congrArg _⟩
  have hKind := congrArg Blueprint.kind hEq
  cases first with
  | single card =>
    obtain ⟨name⟩ := card
    cases second with
    | single other => rw [CardExpression.blueprint_inj.mp hEq]
    | var other => cases (variableOf_inj.mp hEq).1
    | _ => cases hKind
  | var name =>
    cases second with
    | single card =>
      obtain ⟨other⟩ := card
      cases (variableOf_inj.mp hEq).1
    | var other => rw [(variableOf_inj.mp hEq).2]
    | _ => cases hKind
  -- these three have blocks of the same kind, and the setting tells which one it is
  | allInZone zone =>
    cases second with
    | allInZone other => rw [(selector_inj.mp hEq).2]
    | topInZone other | bottomInZone other => exact absurd (selector_inj.mp hEq).1 (by decide)
    | single card => cases hKind.trans card.kind_blueprint
    | _ => cases hKind
  | topInZone zone =>
    cases second with
    | topInZone other => rw [(selector_inj.mp hEq).2]
    | allInZone other | bottomInZone other => exact absurd (selector_inj.mp hEq).1 (by decide)
    | single card => cases hKind.trans card.kind_blueprint
    | _ => cases hKind
  | bottomInZone zone =>
    cases second with
    | bottomInZone other => rw [(selector_inj.mp hEq).2]
    | allInZone other | topInZone other => exact absurd (selector_inj.mp hEq).1 (by decide)
    | single card => cases hKind.trans card.kind_blueprint
    | _ => cases hKind
  | matchingSuit zone suit =>
    cases second with
    | matchingSuit other otherSuit =>
      obtain ⟨hZone, hSuit⟩ : zone = other ∧ suit = otherSuit := by simpa [blueprint] using hEq
      rw [hZone, hSuit]
    | single card => cases hKind.trans card.kind_blueprint
    | _ => cases hKind
  | matchingRank zone rank =>
    cases second with
    | matchingRank other otherRank =>
      obtain ⟨hZone, hRank⟩ : zone = other ∧ rank = otherRank := by simpa [blueprint] using hEq
      rw [hZone, hRank]
    | single card => cases hKind.trans card.kind_blueprint
    | _ => cases hKind

end CardCollectionExpression

namespace NumberExpression

theorem fits_blueprint (number : NumberExpression) : number.blueprint.Fits := by
  cases number with
  | literal value => exact ⟨⟨rfl, rfl⟩, trivial⟩
  | var name => exact ⟨⟨rfl, rfl⟩, trivial⟩
  | cardsIn cards => exact ⟨⟨rfl, rfl⟩, cards.fits_blueprint, trivial⟩

@[simp] theorem blueprint_inj {first second : NumberExpression} :
    first.blueprint = second.blueprint ↔ first = second := by
  refine ⟨fun hEq => ?_, congrArg _⟩
  have hKind := congrArg Blueprint.kind hEq
  cases first with
  | literal value =>
    cases second with
    | literal other =>
      rw [injective_of_read Text.Decimal.readWord?_writeWord (leaf_inj.mp hEq)]
    | _ => cases hKind
  | var name =>
    cases second with
    | var other => rw [leaf_inj.mp hEq]
    | _ => cases hKind
  | cardsIn cards =>
    cases second with
    | cardsIn other =>
      obtain rfl : cards = other := by simpa [blueprint] using hEq
      rfl
    | _ => cases hKind

end NumberExpression

namespace BooleanExpression

theorem fits_blueprint (condition : BooleanExpression) : condition.blueprint.Fits := by
  cases condition with
  | literal value => exact ⟨⟨rfl, rfl⟩, trivial⟩
  | comparison left comparedTo right =>
    exact ⟨⟨rfl, rfl⟩, left.fits_blueprint, right.fits_blueprint, trivial⟩
  | playerIsType player typeName => exact ⟨⟨rfl, rfl⟩, player.fits_blueprint, trivial⟩

/-- The two settings of a truth value are different texts. -/
theorem setting_injective :
    Function.Injective fun value : Bool => if value then Setting.true else Setting.false :=
  Bool.injective_iff.mpr (by decide)

@[simp] theorem blueprint_inj {first second : BooleanExpression} :
    first.blueprint = second.blueprint ↔ first = second := by
  refine ⟨fun hEq => ?_, congrArg _⟩
  have hKind := congrArg Blueprint.kind hEq
  cases first with
  | literal value =>
    cases second with
    | literal other => rw [setting_injective (leaf_inj.mp hEq)]
    | _ => cases hKind
  | comparison left comparedTo right =>
    cases second with
    | comparison otherLeft otherComparison otherRight =>
      obtain ⟨hCode, hLeft, hRight⟩ :
          comparedTo.code = otherComparison.code ∧ left = otherLeft ∧ right = otherRight := by
        simpa [blueprint] using hEq
      rw [injective_of_read Comparison.ofCode?_code hCode, hLeft, hRight]
    | _ => cases hKind
  | playerIsType player typeName =>
    cases second with
    | playerIsType other otherType =>
      obtain ⟨hType, hPlayer⟩ : typeName = otherType ∧ player = other := by
        simpa [blueprint] using hEq
      rw [hType, hPlayer]
    | _ => cases hKind

end BooleanExpression

/-! ## Choices -/

namespace ChoiceType

theorem fits_sourceBlueprint (choiceType : ChoiceType) : choiceType.sourceBlueprint.Fits := by
  cases choiceType with
  | player players | playerSelection players => exact players.fits_blueprint
  | card cards | cardSelection cards => exact cards.fits_blueprint

/-- The tag of a choice type and the blueprint of its source tell the choice type. -/
theorem eq_of_tag_eq {first second : ChoiceType} (hTag : first.tag = second.tag)
    (hSource : first.sourceBlueprint = second.sourceBlueprint) : first = second := by
  have hCategory : first.boundCategory = second.boundCategory := Category.tag_injective hTag
  cases first with
  | player players =>
    cases second with
    | player other => rw [PlayerCollectionExpression.blueprint_inj.mp hSource]
    | _ => cases hCategory
  | playerSelection players =>
    cases second with
    | playerSelection other => rw [PlayerCollectionExpression.blueprint_inj.mp hSource]
    | _ => cases hCategory
  | card cards =>
    cases second with
    | card other => rw [CardCollectionExpression.blueprint_inj.mp hSource]
    | _ => cases hCategory
  | cardSelection cards =>
    cases second with
    | cardSelection other => rw [CardCollectionExpression.blueprint_inj.mp hSource]
    | _ => cases hCategory

end ChoiceType

namespace OfferChoice

theorem fits_blueprint (choice : OfferChoice) : choice.blueprint.Fits := by
  cases choice with
  | selection name choiceType => exact ⟨⟨rfl, rfl⟩, choiceType.fits_sourceBlueprint, trivial⟩
  | action done =>
    cases done with
    | moveCards source dest =>
      exact ⟨⟨rfl, rfl⟩, source.fits_blueprint, dest.fits_blueprint, trivial⟩

theorem chainFits_blueprints (choices : List OfferChoice) :
    chainFits (choices.map blueprint) := by
  induction choices with
  | nil => trivial
  | cons choice choices ih => exact ⟨choice.fits_blueprint, ih⟩

theorem blueprint_injective : Function.Injective blueprint := by
  intro first second hEq
  cases first with
  | selection name choiceType =>
    cases second with
    | selection otherName otherType =>
      simp only [blueprint, block.injEq, List.cons.injEq, Prod.mk.injEq, true_and, and_true,
        SocketOf.value.injEq] at hEq
      obtain ⟨⟨rfl, hTag⟩, hSource⟩ := hEq
      rw [ChoiceType.eq_of_tag_eq hTag hSource]
    | action done =>
      cases done
      cases hEq
  | action done =>
    obtain ⟨source, dest⟩ := done
    cases second with
    | selection otherName otherType => cases hEq
    | action other =>
      obtain ⟨otherSource, otherDest⟩ := other
      simp only [blueprint, block.injEq, List.cons.injEq, SocketOf.value.injEq,
        ZoneExpression.blueprint_inj, true_and, and_true] at hEq
      obtain ⟨rfl, rfl⟩ := hEq
      rfl

end OfferChoice

end RuleBlocks
