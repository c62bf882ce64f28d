import RuleBlocks.Proofs.Program.Names

/-!
# Lexical scope

Where the names of a program can be referred to, read off the program itself. An offer binds the
name of its player in its cases, but not in what it is offered to. A case binds the names of its
selections in its body and in its other choices: neither in its condition nor in the choice that
binds the name. `Statement.unresolved` lists the references that lead nowhere, in the order in which
they occur.
-/

namespace RuleBlocks

/-- The references that are not to a visible name. -/
def missing (visible references : List (Category × String)) : List (Category × String) :=
  references.filter fun reference => reference ∉ visible

@[simp] theorem missing_append (visible first second : List (Category × String)) :
    missing visible (first ++ second) = missing visible first ++ missing visible second :=
  List.filter_append ..

/-- What a choice binds for the rest of its case. -/
def OfferChoice.bound : OfferChoice → List (Category × String)
  | selection name choiceType => if name = "" then [] else [(choiceType.boundCategory, name)]
  | action _ => []

/-- The unresolved references of choices that come after others in a case. Every choice sees what
the choices before and after it bind. -/
def OfferChoice.unresolved (visible : List (Category × String)) (before : List OfferChoice) :
    List OfferChoice → List (Category × String)
  | [] => []
  | choice :: after =>
    missing ((before ++ after).flatMap bound ++ visible) choice.references ++
      unresolved visible (before ++ [choice]) after

namespace Statement

/-- What an offer binds in its cases. -/
def boundPlayer (playerName : Option String) : List (Category × String) :=
  (playerName.filter (· ≠ "")).toList.map fun name => (.player, name)

mutual

/-- The references in a statement that are neither to a visible name nor to one that is bound around
them in the statement. -/
def unresolved (visible : List (Category × String)) : Statement → List (Category × String)
  | enterPhase _ => []
  | setNumber _ value => missing visible value.references
  | conditional condition goTrue goFalse =>
    missing visible condition.references ++ unresolved visible goTrue ++ unresolved visible goFalse
  | repeatWhile condition body =>
    missing visible condition.references ++ unresolved visible body
  | shuffle zones => missing visible zones.references
  | generateCards _ dest => missing visible dest.references
  | deal count source dest =>
    missing visible count.references ++ missing visible source.references ++
      missing visible dest.references
  | moveCards source dest => missing visible source.references ++ missing visible dest.references
  | declareWinner players => missing visible players.references
  | advancePlayer amount => missing visible amount.references
  | offer offerTo playerName cases =>
    missing visible offerTo.references ++
      unresolvedInCases (boundPlayer playerName ++ visible) cases
  | block items => unresolvedInAll visible items
  | empty => []

def unresolvedInAll (visible : List (Category × String)) :
    List Statement → List (Category × String)
  | [] => []
  | item :: items => unresolved visible item ++ unresolvedInAll visible items

def unresolvedInCases (visible : List (Category × String)) :
    List (OfferCaseOf Statement) → List (Category × String)
  | [] => []
  | offerCase :: cases => unresolvedInCase visible offerCase ++ unresolvedInCases visible cases

def unresolvedInCase (visible : List (Category × String)) :
    OfferCaseOf Statement → List (Category × String)
  | ⟨condition, _, choices, body⟩ =>
    missing visible (condition.toList.flatMap BooleanExpression.references) ++
      OfferChoice.unresolved visible [] choices ++
      unresolved (choices.flatMap OfferChoice.bound ++ visible) body

end

end Statement

end RuleBlocks
