import RuleBlocks.Program.Expression

/-!
# Statements

The statements of a card game program. Sequences of statements are blocks; offers hold cases, and
each case holds choices and a statement of its own. Equality of statements is decidable
(`Statement.same_iff`).
-/

namespace RuleBlocks

/-- What a player selects in a choice, and from what. The selected thing is bound to a name. -/
inductive ChoiceType where
  | player (players : PlayerCollectionExpression)
  | playerSelection (players : PlayerCollectionExpression)
  | card (cards : CardCollectionExpression)
  | cardSelection (cards : CardCollectionExpression)
deriving DecidableEq, Repr, Inhabited

/-- The category of the name that a selection binds. -/
def ChoiceType.boundCategory : ChoiceType → Category
  | player _ => .player
  | playerSelection _ => .playerCollection
  | card _ => .card
  | cardSelection _ => .cardCollection

/-- Something that a player does as part of a choice. -/
inductive ChoiceAction where
  | moveCards (source dest : ZoneExpression)
deriving DecidableEq, Repr, Inhabited

/-- One thing that a player is asked for in a case of an offer. -/
inductive OfferChoice where
  | selection (name : String) (choiceType : ChoiceType)
  | action (done : ChoiceAction)
deriving DecidableEq, Repr, Inhabited

/-- A case of an offer, with what is done when it is taken. The case is open only under its
condition, if it has one. -/
structure OfferCaseOf (Body : Type) where
  condition : Option BooleanExpression
  message : String
  choices : List OfferChoice
  body : Body
deriving DecidableEq, Repr, Inhabited

/-- A statement of a card game program. -/
inductive Statement where
  | enterPhase (name : String)
  | setNumber (name : String) (value : NumberExpression)
  | conditional (condition : BooleanExpression) (goTrue goFalse : Statement)
  | repeatWhile (condition : BooleanExpression) (body : Statement)
  | shuffle (zones : ZoneCollectionExpression)
  | generateCards (cards : CardSet) (dest : ZoneExpression)
  | deal (count : NumberExpression) (source : ZoneExpression) (dest : ZoneCollectionExpression)
  | moveCards (source : CardCollectionExpression) (dest : ZoneExpression)
  | declareWinner (players : PlayerCollectionExpression)
  | advancePlayer (amount : NumberExpression)
  | offer (offerTo : PlayerCollectionExpression) (playerName : Option String)
      (cases : List (OfferCaseOf Statement))
  | block (items : List Statement)
  | empty
deriving Repr, Inhabited

/-- A case of an offer whose body is a statement. -/
abbrev OfferCase := OfferCaseOf Statement

namespace Statement

/-- The statement that does what a list of statements does: a block is used only where there are at
least two of them. -/
def ofChain : List Statement → Statement
  | [] => empty
  | [statement] => statement
  | statements => block statements

/-! ## Equality -/

mutual

/-- Whether two statements are equal. -/
def same : Statement → Statement → Bool
  | enterPhase name, enterPhase name' => name = name'
  | setNumber name value, setNumber name' value' => name = name' && value = value'
  | conditional condition goTrue goFalse, conditional condition' goTrue' goFalse' =>
    condition = condition' && same goTrue goTrue' && same goFalse goFalse'
  | repeatWhile condition body, repeatWhile condition' body' =>
    condition = condition' && same body body'
  | shuffle zones, shuffle zones' => zones = zones'
  | generateCards cards dest, generateCards cards' dest' => cards = cards' && dest = dest'
  | deal count source dest, deal count' source' dest' =>
    count = count' && source = source' && dest = dest'
  | moveCards source dest, moveCards source' dest' => source = source' && dest = dest'
  | declareWinner players, declareWinner players' => players = players'
  | advancePlayer amount, advancePlayer amount' => amount = amount'
  | offer offerTo playerName cases, offer offerTo' playerName' cases' =>
    offerTo = offerTo' && playerName = playerName' && sameCases cases cases'
  | block items, block items' => sameItems items items'
  | empty, empty => true
  | _, _ => false

def sameItems : List Statement → List Statement → Bool
  | [], [] => true
  | item :: items, item' :: items' => same item item' && sameItems items items'
  | _, _ => false

def sameCases : List (OfferCaseOf Statement) → List (OfferCaseOf Statement) → Bool
  | [], [] => true
  | offerCase :: cases, offerCase' :: cases' =>
    sameCase offerCase offerCase' && sameCases cases cases'
  | _, _ => false

def sameCase : OfferCaseOf Statement → OfferCaseOf Statement → Bool
  | ⟨condition, message, choices, body⟩, ⟨condition', message', choices', body'⟩ =>
    condition = condition' && message = message' && choices = choices' && same body body'

end

mutual

theorem same_iff : ∀ first second : Statement, same first second = true ↔ first = second
  | enterPhase _, second | setNumber _ _, second | shuffle _, second | generateCards _ _, second
  | deal _ _ _, second | moveCards _ _, second | declareWinner _, second
  | advancePlayer _, second | empty, second => by
    cases second <;> simp [same, and_assoc]
  | conditional _ goTrue goFalse, second => by
    cases second <;> simp [same, same_iff goTrue, same_iff goFalse, and_assoc]
  | repeatWhile _ body, second => by
    cases second <;> simp [same, same_iff body]
  | offer _ _ cases, second => by
    cases second <;> simp [same, sameCases_iff cases, and_assoc]
  | block items, second => by
    cases second <;> simp [same, sameItems_iff items]

theorem sameItems_iff : ∀ first second : List Statement,
    sameItems first second = true ↔ first = second
  | [], second => by cases second <;> simp [sameItems]
  | item :: items, second => by
    cases second <;> simp [sameItems, same_iff item, sameItems_iff items]

theorem sameCases_iff : ∀ first second : List (OfferCaseOf Statement),
    sameCases first second = true ↔ first = second
  | [], second => by cases second <;> simp [sameCases]
  | offerCase :: cases, second => by
    cases second <;> simp [sameCases, sameCase_iff offerCase, sameCases_iff cases]

theorem sameCase_iff : ∀ first second : OfferCaseOf Statement,
    sameCase first second = true ↔ first = second
  | ⟨_, _, _, body⟩, ⟨_, _, _, _⟩ => by simp [sameCase, same_iff body, and_assoc]

end

instance : DecidableEq Statement := fun first second =>
  decidable_of_iff (same first second = true) (same_iff first second)

end Statement

end RuleBlocks
