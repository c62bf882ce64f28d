import RuleBlocks.Program.Category
import RuleBlocks.Program.Card

/-!
# Expressions

The expressions of a card game program, one type for each category of values. A collection may be
given by a single element. Expressions nest only downwards from numbers and conditions to zones,
cards and players, so none of these types is recursive.
-/

namespace RuleBlocks

/-- An expression for a player. -/
inductive PlayerExpression where
  | currentPlayer
  | var (name : String)
deriving DecidableEq, Repr, Inhabited

/-- An expression for a collection of players. -/
inductive PlayerCollectionExpression where
  | allPlayers
  | single (player : PlayerExpression)
  | var (name : String)
deriving DecidableEq, Repr, Inhabited

/-- An expression for a zone of the table. -/
inductive ZoneExpression where
  | ownedByPlayer (player : PlayerExpression) (zoneName : String)
  | var (name : String)
deriving DecidableEq, Repr, Inhabited

/-- An expression for a collection of zones. -/
inductive ZoneCollectionExpression where
  | single (zone : ZoneExpression)
  | ofType (typeName : String)
  | var (name : String)
deriving DecidableEq, Repr, Inhabited

/-- An expression for a card. -/
inductive CardExpression where
  | var (name : String)
deriving DecidableEq, Repr, Inhabited

/-- An expression for a rank. -/
inductive RankExpression where
  | literal (rank : Rank)
  | ofCard (card : CardExpression)
deriving DecidableEq, Repr, Inhabited

/-- An expression for a suit. -/
inductive SuitExpression where
  | literal (suit : Suit)
  | ofCard (card : CardExpression)
deriving DecidableEq, Repr, Inhabited

/-- An expression for a collection of cards. -/
inductive CardCollectionExpression where
  | single (card : CardExpression)
  | var (name : String)
  | allInZone (zone : ZoneExpression)
  | topInZone (zone : ZoneExpression)
  | bottomInZone (zone : ZoneExpression)
  | matchingSuit (zone : ZoneExpression) (suit : SuitExpression)
  | matchingRank (zone : ZoneExpression) (rank : RankExpression)
deriving DecidableEq, Repr, Inhabited

/-- An expression for a number. Literals are words of 32 bits with a sign. -/
inductive NumberExpression where
  | literal (value : Int32)
  | var (name : String)
  | cardsIn (cards : CardCollectionExpression)
deriving DecidableEq, Repr, Inhabited

/-- How two numbers are compared. -/
inductive Comparison where
  | equal
  | unequal
  | less
  | lessOrEqual
  | greater
  | greaterOrEqual
deriving DecidableEq, Repr, Inhabited

namespace Comparison

/-- All comparisons, in the order in which they are listed. -/
def all : List Comparison := [equal, unequal, less, lessOrEqual, greater, greaterOrEqual]

/-- The code by which blocks and program texts spell a comparison. -/
def code : Comparison → String
  | equal => "EQ"
  | unequal => "NEQ"
  | less => "LT"
  | lessOrEqual => "LTE"
  | greater => "GT"
  | greaterOrEqual => "GTE"

/-- The comparison with the given code. -/
def ofCode? (code : String) : Option Comparison :=
  all.find? fun comparison => comparison.code = code

@[simp] theorem ofCode?_code (comparison : Comparison) :
    ofCode? comparison.code = some comparison := by
  cases comparison <;> simp [ofCode?, all, code]

end Comparison

/-- A condition. -/
inductive BooleanExpression where
  | literal (value : Bool)
  | comparison (left : NumberExpression) (comparedTo : Comparison) (right : NumberExpression)
  | playerIsType (player : PlayerExpression) (typeName : String)
deriving DecidableEq, Repr, Inhabited

/-- The set of cards that a deck is made of. -/
inductive CardSet where
  | allAllowed
deriving DecidableEq, Repr, Inhabited

/-- An expression of any category. -/
inductive Expression where
  | number (expression : NumberExpression)
  | boolean (expression : BooleanExpression)
  | player (expression : PlayerExpression)
  | playerCollection (expression : PlayerCollectionExpression)
  | zone (expression : ZoneExpression)
  | zoneCollection (expression : ZoneCollectionExpression)
  | card (expression : CardExpression)
  | cardCollection (expression : CardCollectionExpression)
  | rank (expression : RankExpression)
  | suit (expression : SuitExpression)
deriving DecidableEq, Repr, Inhabited

namespace Expression

/-- The category of the values of an expression. -/
def category : Expression → Category
  | number _ => .number
  | boolean _ => .boolean
  | player _ => .player
  | playerCollection _ => .playerCollection
  | zone _ => .zone
  | zoneCollection _ => .zoneCollection
  | card _ => .card
  | cardCollection _ => .cardCollection
  | rank _ => .rank
  | suit _ => .suit

/-- The variable that an expression reads, if it does nothing but read one. -/
def variableName? : Expression → Option String
  | number (.var name)
  | player (.var name)
  | playerCollection (.var name)
  | zone (.var name)
  | zoneCollection (.var name)
  | card (.var name)
  | cardCollection (.var name) => some name
  | _ => none

/-! ## The expression itself, if it has a category -/

/-- The number that an expression is. -/
def number? : Expression → Option NumberExpression
  | number expression => some expression
  | _ => none

/-- The condition that an expression is. -/
def boolean? : Expression → Option BooleanExpression
  | boolean expression => some expression
  | _ => none

/-- The player that an expression is. -/
def player? : Expression → Option PlayerExpression
  | player expression => some expression
  | _ => none

/-- The collection of players that an expression is. -/
def playerCollection? : Expression → Option PlayerCollectionExpression
  | playerCollection expression => some expression
  | _ => none

/-- The zone that an expression is. -/
def zone? : Expression → Option ZoneExpression
  | zone expression => some expression
  | _ => none

/-- The collection of zones that an expression is. -/
def zoneCollection? : Expression → Option ZoneCollectionExpression
  | zoneCollection expression => some expression
  | _ => none

/-- The card that an expression is. -/
def card? : Expression → Option CardExpression
  | card expression => some expression
  | _ => none

/-- The collection of cards that an expression is. -/
def cardCollection? : Expression → Option CardCollectionExpression
  | cardCollection expression => some expression
  | _ => none

/-- The expression for a rank that an expression is. -/
def rank? : Expression → Option RankExpression
  | rank expression => some expression
  | _ => none

/-- The expression for a suit that an expression is. -/
def suit? : Expression → Option SuitExpression
  | suit expression => some expression
  | _ => none

end Expression

end RuleBlocks
