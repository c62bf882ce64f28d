/-!
# Ranks and suits

The thirteen ranks and four suits of a deck of cards. Each has one name, which is also how blocks
and program texts spell it.
-/

namespace RuleBlocks

/-- The rank of a card. -/
inductive Rank where
  | two
  | three
  | four
  | five
  | six
  | seven
  | eight
  | nine
  | ten
  | jack
  | queen
  | king
  | ace
deriving DecidableEq, Repr, Inhabited

namespace Rank

/-- All ranks, from the lowest to the highest. -/
def all : List Rank :=
  [two, three, four, five, six, seven, eight, nine, ten, jack, queen, king, ace]

/-- The name of a rank. -/
def name : Rank → String
  | two => "Two"
  | three => "Three"
  | four => "Four"
  | five => "Five"
  | six => "Six"
  | seven => "Seven"
  | eight => "Eight"
  | nine => "Nine"
  | ten => "Ten"
  | jack => "Jack"
  | queen => "Queen"
  | king => "King"
  | ace => "Ace"

/-- The rank with the given name. -/
def ofName? (name : String) : Option Rank := all.find? fun rank => rank.name = name

@[simp] theorem ofName?_name (rank : Rank) : ofName? rank.name = some rank := by
  cases rank <;> simp [ofName?, all, name]

end Rank

/-- The suit of a card. -/
inductive Suit where
  | hearts
  | diamonds
  | spades
  | clubs
deriving DecidableEq, Repr, Inhabited

namespace Suit

/-- All suits, in the order in which they are listed. -/
def all : List Suit := [hearts, diamonds, spades, clubs]

/-- The name of a suit. -/
def name : Suit → String
  | hearts => "Hearts"
  | diamonds => "Diamonds"
  | spades => "Spades"
  | clubs => "Clubs"

/-- The suit with the given name. -/
def ofName? (name : String) : Option Suit := all.find? fun suit => suit.name = name

@[simp] theorem ofName?_name (suit : Suit) : ofName? suit.name = some suit := by
  cases suit <;> simp [ofName?, all, name]

end Suit

end RuleBlocks
