import RuleBlocks.Program.Statement

/-!
# The normal form of a statement

Statements that differ only in how sequences are bracketed do the same. Among them the normal form
is the one without idle brackets: a block has at least two items, none of which is empty or again a
block, and an offer names its player by a non-empty name or not at all.

The normal form of a statement is made of its items, which are what the statement does one after
the other, with every statement inside them in normal form.
-/

namespace RuleBlocks

namespace Statement

mutual

/-- What a statement does, one after the other: nothing for the empty statement, the items of its
items for a block, and the statement itself otherwise. -/
def items : Statement → List Statement
  | empty => []
  | block statements => itemsOfAll statements
  | conditional condition goTrue goFalse =>
    [conditional condition (ofChain (items goTrue)) (ofChain (items goFalse))]
  | repeatWhile condition body => [repeatWhile condition (ofChain (items body))]
  | offer offerTo playerName cases =>
    [offer offerTo (playerName.filter (· ≠ "")) (normalCases cases)]
  | enterPhase name => [enterPhase name]
  | setNumber name value => [setNumber name value]
  | shuffle zones => [shuffle zones]
  | generateCards cards dest => [generateCards cards dest]
  | deal count source dest => [deal count source dest]
  | moveCards source dest => [moveCards source dest]
  | declareWinner players => [declareWinner players]
  | advancePlayer amount => [advancePlayer amount]

/-- The items of all statements of a list. -/
def itemsOfAll : List Statement → List Statement
  | [] => []
  | statement :: rest => items statement ++ itemsOfAll rest

/-- The cases of an offer with their bodies in normal form. -/
def normalCases : List (OfferCaseOf Statement) → List (OfferCaseOf Statement)
  | [] => []
  | offerCase :: rest => normalCase offerCase :: normalCases rest

/-- A case with its body in normal form. -/
def normalCase : OfferCaseOf Statement → OfferCaseOf Statement
  | ⟨condition, message, choices, body⟩ => ⟨condition, message, choices, ofChain (items body)⟩

end

/-- The normal form of a statement. -/
def normalForm (statement : Statement) : Statement := ofChain statement.items

end Statement

end RuleBlocks
