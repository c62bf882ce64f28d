import RuleBlocks.Program.NormalForm

/-!
# The names in a program

Three lists of names can be read off a program. Some names are required: those of the phases that
are entered, of the numbers that are set, of selections and of variables, and those that single out
zones and types (`requiredNames`). The name of the player of an offer may be left out
(`playerNames`). A variable is referred to by its category and its name (`references`), and the
numbers that are set are known everywhere (`setNumbers`).

The normal form of a statement has the same required names (`requiredNames_normalForm`).
-/

namespace RuleBlocks

/-! ## Expressions -/

namespace PlayerExpression

def requiredNames : PlayerExpression → List String
  | currentPlayer => []
  | var name => [name]

def references : PlayerExpression → List (Category × String)
  | currentPlayer => []
  | var name => [(.player, name)]

end PlayerExpression

namespace PlayerCollectionExpression

def requiredNames : PlayerCollectionExpression → List String
  | allPlayers => []
  | single player => player.requiredNames
  | var name => [name]

def references : PlayerCollectionExpression → List (Category × String)
  | allPlayers => []
  | single player => player.references
  | var name => [(.playerCollection, name)]

end PlayerCollectionExpression

namespace ZoneExpression

def requiredNames : ZoneExpression → List String
  | ownedByPlayer player zoneName => zoneName :: player.requiredNames
  | var name => [name]

def references : ZoneExpression → List (Category × String)
  | ownedByPlayer player _ => player.references
  | var name => [(.zone, name)]

end ZoneExpression

namespace ZoneCollectionExpression

def requiredNames : ZoneCollectionExpression → List String
  | single zone => zone.requiredNames
  | ofType typeName => [typeName]
  | var name => [name]

def references : ZoneCollectionExpression → List (Category × String)
  | single zone => zone.references
  | ofType _ => []
  | var name => [(.zoneCollection, name)]

end ZoneCollectionExpression

namespace CardExpression

def requiredNames : CardExpression → List String
  | var name => [name]

def references : CardExpression → List (Category × String)
  | var name => [(.card, name)]

end CardExpression

namespace RankExpression

def requiredNames : RankExpression → List String
  | literal _ => []
  | ofCard card => card.requiredNames

def references : RankExpression → List (Category × String)
  | literal _ => []
  | ofCard card => card.references

end RankExpression

namespace SuitExpression

def requiredNames : SuitExpression → List String
  | literal _ => []
  | ofCard card => card.requiredNames

def references : SuitExpression → List (Category × String)
  | literal _ => []
  | ofCard card => card.references

end SuitExpression

namespace CardCollectionExpression

def requiredNames : CardCollectionExpression → List String
  | single card => card.requiredNames
  | var name => [name]
  | allInZone zone | topInZone zone | bottomInZone zone => zone.requiredNames
  | matchingSuit zone suit => zone.requiredNames ++ suit.requiredNames
  | matchingRank zone rank => zone.requiredNames ++ rank.requiredNames

def references : CardCollectionExpression → List (Category × String)
  | single card => card.references
  | var name => [(.cardCollection, name)]
  | allInZone zone | topInZone zone | bottomInZone zone => zone.references
  | matchingSuit zone suit => zone.references ++ suit.references
  | matchingRank zone rank => zone.references ++ rank.references

end CardCollectionExpression

namespace NumberExpression

def requiredNames : NumberExpression → List String
  | literal _ => []
  | var name => [name]
  | cardsIn cards => cards.requiredNames

def references : NumberExpression → List (Category × String)
  | literal _ => []
  | var name => [(.number, name)]
  | cardsIn cards => cards.references

end NumberExpression

namespace BooleanExpression

def requiredNames : BooleanExpression → List String
  | literal _ => []
  | comparison left _ right => left.requiredNames ++ right.requiredNames
  | playerIsType player typeName => typeName :: player.requiredNames

def references : BooleanExpression → List (Category × String)
  | literal _ => []
  | comparison left _ right => left.references ++ right.references
  | playerIsType player _ => player.references

end BooleanExpression

namespace Expression

def requiredNames : Expression → List String
  | number expression => expression.requiredNames
  | boolean expression => expression.requiredNames
  | player expression => expression.requiredNames
  | playerCollection expression => expression.requiredNames
  | zone expression => expression.requiredNames
  | zoneCollection expression => expression.requiredNames
  | card expression => expression.requiredNames
  | cardCollection expression => expression.requiredNames
  | rank expression => expression.requiredNames
  | suit expression => expression.requiredNames

def references : Expression → List (Category × String)
  | number expression => expression.references
  | boolean expression => expression.references
  | player expression => expression.references
  | playerCollection expression => expression.references
  | zone expression => expression.references
  | zoneCollection expression => expression.references
  | card expression => expression.references
  | cardCollection expression => expression.references
  | rank expression => expression.references
  | suit expression => expression.references

end Expression

namespace ChoiceType

def requiredNames : ChoiceType → List String
  | player players | playerSelection players => players.requiredNames
  | card cards | cardSelection cards => cards.requiredNames

def references : ChoiceType → List (Category × String)
  | player players | playerSelection players => players.references
  | card cards | cardSelection cards => cards.references

end ChoiceType

namespace OfferChoice

def requiredNames : OfferChoice → List String
  | selection name choiceType => name :: choiceType.requiredNames
  | action (.moveCards source dest) => source.requiredNames ++ dest.requiredNames

def references : OfferChoice → List (Category × String)
  | selection _ choiceType => choiceType.references
  | action (.moveCards source dest) => source.references ++ dest.references

end OfferChoice

/-! ## Statements -/

namespace Statement

mutual

/-- The names in a statement that must not be empty. -/
def requiredNames : Statement → List String
  | enterPhase name => [name]
  | setNumber name value => name :: value.requiredNames
  | conditional condition goTrue goFalse =>
    condition.requiredNames ++ requiredNames goTrue ++ requiredNames goFalse
  | repeatWhile condition body => condition.requiredNames ++ requiredNames body
  | shuffle zones => zones.requiredNames
  | generateCards _ dest => dest.requiredNames
  | deal count source dest => count.requiredNames ++ source.requiredNames ++ dest.requiredNames
  | moveCards source dest => source.requiredNames ++ dest.requiredNames
  | declareWinner players => players.requiredNames
  | advancePlayer amount => amount.requiredNames
  | offer offerTo _ cases => offerTo.requiredNames ++ requiredNamesOfCases cases
  | block items => requiredNamesOfAll items
  | empty => []

def requiredNamesOfAll : List Statement → List String
  | [] => []
  | item :: items => requiredNames item ++ requiredNamesOfAll items

def requiredNamesOfCases : List (OfferCaseOf Statement) → List String
  | [] => []
  | offerCase :: cases => requiredNamesOfCase offerCase ++ requiredNamesOfCases cases

def requiredNamesOfCase : OfferCaseOf Statement → List String
  | ⟨condition, _, choices, body⟩ =>
    condition.toList.flatMap BooleanExpression.requiredNames ++
      choices.flatMap OfferChoice.requiredNames ++ requiredNames body

end

mutual

/-- The names that the offers in a statement give to their players. -/
def playerNames : Statement → List String
  | conditional _ goTrue goFalse => playerNames goTrue ++ playerNames goFalse
  | repeatWhile _ body => playerNames body
  | offer _ playerName cases => playerName.toList ++ playerNamesOfCases cases
  | block items => playerNamesOfAll items
  | enterPhase _ | setNumber _ _ | shuffle _ | generateCards _ _ | deal _ _ _ | moveCards _ _
  | declareWinner _ | advancePlayer _ | empty => []

def playerNamesOfAll : List Statement → List String
  | [] => []
  | item :: items => playerNames item ++ playerNamesOfAll items

def playerNamesOfCases : List (OfferCaseOf Statement) → List String
  | [] => []
  | ⟨_, _, _, body⟩ :: cases => playerNames body ++ playerNamesOfCases cases

end

mutual

/-- The names of the numbers that a statement sets. -/
def setNumbers : Statement → List String
  | setNumber name _ => [name]
  | conditional _ goTrue goFalse => setNumbers goTrue ++ setNumbers goFalse
  | repeatWhile _ body => setNumbers body
  | offer _ _ cases => setNumbersOfCases cases
  | block items => setNumbersOfAll items
  | enterPhase _ | shuffle _ | generateCards _ _ | deal _ _ _ | moveCards _ _ | declareWinner _
  | advancePlayer _ | empty => []

def setNumbersOfAll : List Statement → List String
  | [] => []
  | item :: items => setNumbers item ++ setNumbersOfAll items

def setNumbersOfCases : List (OfferCaseOf Statement) → List String
  | [] => []
  | ⟨_, _, _, body⟩ :: cases => setNumbers body ++ setNumbersOfCases cases

end

mutual

/-- The name of a number that is set is required. -/
theorem setNumbers_subset : ∀ statement : Statement,
    statement.setNumbers ⊆ statement.requiredNames
  | setNumber name value => by
    rw [setNumbers, requiredNames]
    exact List.cons_subset_cons name (List.nil_subset _)
  | conditional condition goTrue goFalse => by
    rw [setNumbers, requiredNames, List.append_assoc]
    refine List.subset_append_of_subset_right _ (List.append_subset.mpr ⟨?_, ?_⟩)
    · exact List.subset_append_of_subset_left _ (setNumbers_subset goTrue)
    · exact List.subset_append_of_subset_right _ (setNumbers_subset goFalse)
  | repeatWhile condition body => by
    rw [setNumbers, requiredNames]
    exact List.subset_append_of_subset_right _ (setNumbers_subset body)
  | offer offerTo playerName cases => by
    rw [setNumbers, requiredNames]
    exact List.subset_append_of_subset_right _ (setNumbersOfCases_subset cases)
  | block items => by
    rw [setNumbers, requiredNames]
    exact setNumbersOfAll_subset items
  | enterPhase _ | shuffle _ | generateCards _ _ | deal _ _ _ | moveCards _ _ | declareWinner _
  | advancePlayer _ | empty => by
    rw [setNumbers]
    exact List.nil_subset _

theorem setNumbersOfAll_subset : ∀ statements : List Statement,
    setNumbersOfAll statements ⊆ requiredNamesOfAll statements
  | [] => by
    rw [setNumbersOfAll]
    exact List.nil_subset _
  | item :: items => by
    rw [setNumbersOfAll, requiredNamesOfAll]
    exact List.append_subset.mpr
      ⟨List.subset_append_of_subset_left _ (setNumbers_subset item),
        List.subset_append_of_subset_right _ (setNumbersOfAll_subset items)⟩

theorem setNumbersOfCases_subset : ∀ cases : List (OfferCaseOf Statement),
    setNumbersOfCases cases ⊆ requiredNamesOfCases cases
  | [] => by
    rw [setNumbersOfCases]
    exact List.nil_subset _
  | ⟨condition, message, choices, body⟩ :: cases => by
    rw [setNumbersOfCases, requiredNamesOfCases, requiredNamesOfCase]
    refine List.append_subset.mpr ⟨?_,
      List.subset_append_of_subset_right _ (setNumbersOfCases_subset cases)⟩
    exact List.subset_append_of_subset_left _
      (List.subset_append_of_subset_right _ (setNumbers_subset body))

end

/-! ## Chains -/

/-- What is said of the items one after the other and of a sequence alike is said of the statement
of a chain. -/
theorem apply_ofChain {β : Type} {f : Statement → β} {g : List Statement → β}
    (hEmpty : f empty = g []) (hSingle : ∀ statement, f statement = g [statement])
    (hBlock : ∀ statements, f (block statements) = g statements) (statements : List Statement) :
    f (ofChain statements) = g statements := by
  rcases statements with _ | ⟨first, _ | ⟨second, rest⟩⟩
  · exact hEmpty
  · exact hSingle first
  · exact hBlock (first :: second :: rest)

theorem requiredNames_ofChain (statements : List Statement) :
    (ofChain statements).requiredNames = requiredNamesOfAll statements := by
  refine apply_ofChain ?_ (fun statement => ?_) (fun statements => ?_) statements
  · rw [requiredNames, requiredNamesOfAll]
  · rw [requiredNamesOfAll, requiredNamesOfAll, List.append_nil]
  · rw [requiredNames]

theorem playerNames_ofChain (statements : List Statement) :
    (ofChain statements).playerNames = playerNamesOfAll statements := by
  refine apply_ofChain ?_ (fun statement => ?_) (fun statements => ?_) statements
  · rw [playerNames, playerNamesOfAll]
  · rw [playerNamesOfAll, playerNamesOfAll, List.append_nil]
  · rw [playerNames]

theorem items_ofChain (statements : List Statement) :
    (ofChain statements).items = itemsOfAll statements := by
  refine apply_ofChain ?_ (fun statement => ?_) (fun statements => ?_) statements
  · rw [items, itemsOfAll]
  · rw [itemsOfAll, itemsOfAll, List.append_nil]
  · rw [items]

theorem requiredNamesOfAll_append (first second : List Statement) :
    requiredNamesOfAll (first ++ second) =
      requiredNamesOfAll first ++ requiredNamesOfAll second := by
  induction first with
  | nil => rfl
  | cons item items ih =>
    rw [List.cons_append, requiredNamesOfAll, requiredNamesOfAll, ih, List.append_assoc]

theorem mem_requiredNamesOfAll {name : String} {statements : List Statement} :
    name ∈ requiredNamesOfAll statements ↔
      ∃ statement ∈ statements, name ∈ statement.requiredNames := by
  induction statements with
  | nil => simp [requiredNamesOfAll]
  | cons item items ih => simp [requiredNamesOfAll, ih]

theorem mem_playerNamesOfAll {name : String} {statements : List Statement} :
    name ∈ playerNamesOfAll statements ↔
      ∃ statement ∈ statements, name ∈ statement.playerNames := by
  induction statements with
  | nil => simp [playerNamesOfAll]
  | cons item items ih => simp [playerNamesOfAll, ih]

theorem mem_requiredNamesOfCases {name : String} {cases : List OfferCase} :
    name ∈ requiredNamesOfCases cases ↔
      ∃ offerCase ∈ cases, name ∈ requiredNamesOfCase offerCase := by
  induction cases with
  | nil => simp [requiredNamesOfCases]
  | cons first rest ih => simp [requiredNamesOfCases, ih]

theorem mem_playerNamesOfCases {name : String} {cases : List OfferCase} :
    name ∈ playerNamesOfCases cases ↔
      ∃ offerCase ∈ cases, name ∈ offerCase.body.playerNames := by
  induction cases with
  | nil => simp [playerNamesOfCases]
  | cons first rest ih => simp [playerNamesOfCases, ih]

/-! ## Normal forms -/

mutual

theorem requiredNamesOfAll_items : ∀ statement : Statement,
    requiredNamesOfAll statement.items = statement.requiredNames
  | empty => by rw [items, requiredNames, requiredNamesOfAll]
  | block statements => by
    rw [items, requiredNames, requiredNamesOfAll_itemsOfAll statements]
  | conditional condition goTrue goFalse => by
    rw [items, requiredNamesOfAll, requiredNamesOfAll, List.append_nil, requiredNames,
      requiredNames, requiredNames_ofChain, requiredNames_ofChain,
      requiredNamesOfAll_items goTrue, requiredNamesOfAll_items goFalse]
  | repeatWhile condition body => by
    rw [items, requiredNamesOfAll, requiredNamesOfAll, List.append_nil, requiredNames,
      requiredNames, requiredNames_ofChain, requiredNamesOfAll_items body]
  | offer offerTo playerName cases => by
    rw [items, requiredNamesOfAll, requiredNamesOfAll, List.append_nil, requiredNames,
      requiredNames, requiredNamesOfCases_normalCases cases]
  | enterPhase _ | setNumber _ _ | shuffle _ | generateCards _ _ | deal _ _ _ | moveCards _ _
  | declareWinner _ | advancePlayer _ => by
    rw [items, requiredNamesOfAll, requiredNamesOfAll, List.append_nil]

theorem requiredNamesOfAll_itemsOfAll : ∀ statements : List Statement,
    requiredNamesOfAll (itemsOfAll statements) = requiredNamesOfAll statements
  | [] => by rw [itemsOfAll]
  | statement :: rest => by
    rw [itemsOfAll, requiredNamesOfAll_append, requiredNamesOfAll,
      requiredNamesOfAll_items statement, requiredNamesOfAll_itemsOfAll rest]

theorem requiredNamesOfCases_normalCases : ∀ cases : List (OfferCaseOf Statement),
    requiredNamesOfCases (normalCases cases) = requiredNamesOfCases cases
  | [] => by rw [normalCases]
  | offerCase :: rest => by
    rw [normalCases, requiredNamesOfCases, requiredNamesOfCases,
      requiredNamesOfCase_normalCase offerCase, requiredNamesOfCases_normalCases rest]

theorem requiredNamesOfCase_normalCase : ∀ offerCase : OfferCaseOf Statement,
    requiredNamesOfCase (normalCase offerCase) = requiredNamesOfCase offerCase
  | ⟨condition, message, choices, body⟩ => by
    rw [normalCase, requiredNamesOfCase, requiredNamesOfCase, requiredNames_ofChain,
      requiredNamesOfAll_items body]

end

/-- The normal form of a statement has the same required names. -/
theorem requiredNames_normalForm (statement : Statement) :
    statement.normalForm.requiredNames = statement.requiredNames := by
  rw [normalForm, requiredNames_ofChain, requiredNamesOfAll_items]

/-- A statement is an item if it is in normal form and not a sequence. -/
def IsItem (statement : Statement) : Prop := statement.items = [statement]

theorem itemsOfAll_of_isItem {statements : List Statement}
    (hItems : ∀ statement ∈ statements, statement.IsItem) : itemsOfAll statements = statements := by
  induction statements with
  | nil => rw [itemsOfAll]
  | cons first rest ih =>
    have hFirst : first.items = [first] := hItems first List.mem_cons_self
    rw [itemsOfAll, hFirst, ih fun statement hMem => hItems statement (List.mem_cons_of_mem _ hMem)]
    rfl

/-- A chain of items has just these items. -/
theorem items_ofChain_of_isItem {statements : List Statement}
    (hItems : ∀ statement ∈ statements, statement.IsItem) :
    (ofChain statements).items = statements := by
  rw [items_ofChain, itemsOfAll_of_isItem hItems]

theorem normalForm_ofChain {statements : List Statement}
    (hItems : ∀ statement ∈ statements, statement.IsItem) :
    (ofChain statements).normalForm = ofChain statements := by
  rw [normalForm, items_ofChain_of_isItem hItems]

mutual

/-- Sequences are broken up into their items. -/
theorem ne_block_of_mem_items : ∀ statement : Statement, ∀ item ∈ statement.items,
    ∀ statements, item ≠ block statements
  | empty, item, hItem => by
    rw [items] at hItem
    cases hItem
  | block parts, item, hItem => by
    rw [items] at hItem
    exact ne_block_of_mem_itemsOfAll parts item hItem
  | conditional _ _ _, item, hItem | repeatWhile _ _, item, hItem | offer _ _ _, item, hItem
  | enterPhase _, item, hItem | setNumber _ _, item, hItem | shuffle _, item, hItem
  | generateCards _ _, item, hItem | deal _ _ _, item, hItem | moveCards _ _, item, hItem
  | declareWinner _, item, hItem | advancePlayer _, item, hItem => by
    rw [items] at hItem
    obtain rfl := List.mem_singleton.mp hItem
    nofun

theorem ne_block_of_mem_itemsOfAll : ∀ parts : List Statement, ∀ item ∈ itemsOfAll parts,
    ∀ statements, item ≠ block statements
  | [], item, hItem => by
    rw [itemsOfAll] at hItem
    cases hItem
  | first :: rest, item, hItem => by
    rw [itemsOfAll, List.mem_append] at hItem
    rcases hItem with hItem | hItem
    · exact ne_block_of_mem_items first item hItem
    · exact ne_block_of_mem_itemsOfAll rest item hItem

end

theorem IsItem.ne_block {item : Statement} (hItem : item.IsItem) (statements : List Statement) :
    item ≠ block statements := by
  have hMem : item ∈ item.items := by
    rw [hItem]
    exact List.mem_singleton_self item
  exact ne_block_of_mem_items item item hMem statements

mutual

/-- What a statement does one after the other is in normal form. -/
theorem isItem_of_mem_items : ∀ statement : Statement, ∀ item ∈ statement.items, item.IsItem
  | empty, item, hItem => by
    rw [items] at hItem
    cases hItem
  | block parts, item, hItem => by
    rw [items] at hItem
    exact isItem_of_mem_itemsOfAll parts item hItem
  | conditional condition goTrue goFalse, item, hItem => by
    rw [items] at hItem
    obtain rfl := List.mem_singleton.mp hItem
    rw [IsItem, items, items_ofChain_of_isItem (isItem_of_mem_items goTrue),
      items_ofChain_of_isItem (isItem_of_mem_items goFalse)]
  | repeatWhile condition body, item, hItem => by
    rw [items] at hItem
    obtain rfl := List.mem_singleton.mp hItem
    rw [IsItem, items, items_ofChain_of_isItem (isItem_of_mem_items body)]
  | offer offerTo playerName cases, item, hItem => by
    rw [items] at hItem
    obtain rfl := List.mem_singleton.mp hItem
    rw [IsItem, items, Option.filter_filter, normalCases_normalCases cases]
    simp
  | enterPhase _, item, hItem | setNumber _ _, item, hItem | shuffle _, item, hItem
  | generateCards _ _, item, hItem | deal _ _ _, item, hItem | moveCards _ _, item, hItem
  | declareWinner _, item, hItem | advancePlayer _, item, hItem => by
    rw [items] at hItem
    obtain rfl := List.mem_singleton.mp hItem
    rw [IsItem, items]

theorem isItem_of_mem_itemsOfAll : ∀ parts : List Statement, ∀ item ∈ itemsOfAll parts, item.IsItem
  | [], item, hItem => by
    rw [itemsOfAll] at hItem
    cases hItem
  | first :: rest, item, hItem => by
    rw [itemsOfAll, List.mem_append] at hItem
    rcases hItem with hItem | hItem
    · exact isItem_of_mem_items first item hItem
    · exact isItem_of_mem_itemsOfAll rest item hItem

theorem normalCases_normalCases : ∀ cases : List (OfferCaseOf Statement),
    normalCases (normalCases cases) = normalCases cases
  | [] => by rw [normalCases, normalCases]
  | ⟨condition, message, choices, body⟩ :: cases => by
    rw [normalCases, normalCase, normalCases, normalCase,
      items_ofChain_of_isItem (isItem_of_mem_items body), normalCases_normalCases cases]

end

end Statement

end RuleBlocks
