import RuleBlocks.Program.Category

/-!
# Kinds of blocks

A program is drawn as blocks. There is a kind of block for every construct of the language. Each
kind has one canonical tag, and a role that says where its blocks may stand: a hat starts a phase,
a statement stands in a chain of statements, cases and choices stand in the chains of an offer, and
values stand in the sockets of other blocks. The category of a typed value is named in one of its
fields.

The main statement is that canonical tags are read back: `ofTag?_tag`.
-/

namespace RuleBlocks

/-- Where the blocks of a kind may stand. -/
inductive BlockRole where
  | hat
  | statement
  | offerCase
  | offerChoice
  | value (category : Category)
  | typedValue
deriving DecidableEq, Repr, Inhabited

inductive BlockKind where
  | phase
  | enterPhase
  | setNumber
  | ifElse
  | repeatWhile
  | shuffle
  | generateCards
  | dealCards
  | moveCards
  | declareWinner
  | advancePlayer
  | offer
  | unnamedOffer
  | offerCase
  | openOfferCase
  | choiceSelection
  | choiceMove
  | numberLiteral
  | getNumber
  | cardCount
  | booleanLiteral
  | compare
  | playerOfType
  | currentPlayer
  | allPlayers
  | getTyped
  | zoneForPlayer
  | zonesOfType
  | cardSelector
  | cardsMatchingSuit
  | cardsMatchingRank
  | rankFromCard
  | suitFromCard
  | rankLiteral
  | suitLiteral
deriving DecidableEq, Repr, Inhabited

namespace BlockKind

/-- All kinds, in the order in which they are listed. -/
def all : List BlockKind :=
  [phase, enterPhase, setNumber, ifElse, repeatWhile, shuffle, generateCards, dealCards, moveCards,
    declareWinner, advancePlayer, offer, unnamedOffer, offerCase, openOfferCase, choiceSelection,
    choiceMove, numberLiteral, getNumber, cardCount, booleanLiteral, compare, playerOfType,
    currentPlayer, allPlayers, getTyped, zoneForPlayer, zonesOfType, cardSelector,
    cardsMatchingSuit, cardsMatchingRank, rankFromCard, suitFromCard, rankLiteral, suitLiteral]

/-- The canonical tag of a kind. -/
def tag : BlockKind → String
  | phase => "socs_phase"
  | enterPhase => "socs_enter_phase"
  | setNumber => "socs_set_number"
  | ifElse => "socs_remade_if_else"
  | repeatWhile => "socs_remade_while"
  | shuffle => "socs_shuffle"
  | generateCards => "socs_gen_cards"
  | dealCards => "socs_deal_cards"
  | moveCards => "socs_cards_move"
  | declareWinner => "socs_declare_winner"
  | advancePlayer => "socs_player_advance"
  | offer => "socs_offer"
  | unnamedOffer => "socs_offer_declareless"
  | offerCase => "socs_offer_case"
  | openOfferCase => "socs_offer_case_any"
  | choiceSelection => "socs_choice_unified"
  | choiceMove => "socs_choice_move"
  | numberLiteral => "math_number"
  | getNumber => "socs_get_number"
  | cardCount => "socs_num_cards"
  | booleanLiteral => "logic_boolean"
  | compare => "logic_compare"
  | playerOfType => "socs_player_of_type"
  | currentPlayer => "socs_player_current"
  | allPlayers => "socs_players_all"
  | getTyped => "socs_get_unified"
  | zoneForPlayer => "socs_zone_for_player"
  | zonesOfType => "socs_zones_of_type"
  | cardSelector => "socs_card_selector"
  | cardsMatchingSuit => "socs_cards_matching_suit"
  | cardsMatchingRank => "socs_cards_matching_rank"
  | rankFromCard => "socs_rank_from_card"
  | suitFromCard => "socs_suit_from_card"
  | rankLiteral => "socs_rank_literal"
  | suitLiteral => "socs_suit_literal"

/-- The role of the blocks of a kind. -/
def role : BlockKind → BlockRole
  | phase => .hat
  | enterPhase | setNumber | ifElse | repeatWhile | shuffle | generateCards | dealCards | moveCards
  | declareWinner | advancePlayer | offer | unnamedOffer => .statement
  | offerCase | openOfferCase => .offerCase
  | choiceSelection | choiceMove => .offerChoice
  | numberLiteral | getNumber | cardCount => .value .number
  | booleanLiteral | compare | playerOfType => .value .boolean
  | currentPlayer => .value .player
  | allPlayers => .value .playerCollection
  | getTyped => .typedValue
  | zoneForPlayer => .value .zone
  | zonesOfType => .value .zoneCollection
  | cardSelector | cardsMatchingSuit | cardsMatchingRank => .value .cardCollection
  | rankFromCard | rankLiteral => .value .rank
  | suitFromCard | suitLiteral => .value .suit

def ofTag? (tag : String) : Option BlockKind := all.find? fun kind => kind.tag = tag

@[simp] theorem ofTag?_tag (kind : BlockKind) : ofTag? kind.tag = some kind := by
  cases kind <;> simp [ofTag?, all, tag]

theorem ofTag?_eq_some_iff {text : String} {kind : BlockKind} :
    ofTag? text = some kind ↔ kind.tag = text := by
  constructor
  · intro h
    simpa using List.find?_some h
  · rintro rfl
    exact ofTag?_tag kind

theorem tag_injective {first second : BlockKind} (h : first.tag = second.tag) :
    first = second := by
  have hFirst : ofTag? second.tag = some first := h ▸ ofTag?_tag first
  exact (Option.some.inj ((ofTag?_tag second).symm.trans hFirst)).symm

end BlockKind

end RuleBlocks
