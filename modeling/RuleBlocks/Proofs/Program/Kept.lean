import RuleBlocks.Program.Phases
import RuleBlocks.Proofs.Program.Names

/-!
# Programs without their unnamed parts

A statement, a case or a choice with an empty name of its own says nothing that could be carried
out. `Statement.keptItems` are the items of a statement without such parts: a statement inside
another one, a case and a choice is left out by itself, everything else that has an empty required
name takes the statement, case or choice around it away.
-/

namespace RuleBlocks

variable {α β : Type}

/-- A value, unless one of its names is empty. -/
def ifNamed (names : List String) (value : α) : Option α :=
  if "" ∈ names then none else some value

theorem ifNamed_of_mem {names : List String} (h : "" ∈ names) (value : α) :
    ifNamed names value = none := if_pos h

theorem ifNamed_of_not_mem {names : List String} (h : "" ∉ names) (value : α) :
    ifNamed names value = some value := if_neg h

@[simp] theorem ifNamed_nil (value : α) : ifNamed [] value = some value :=
  ifNamed_of_not_mem List.not_mem_nil value

theorem mem_of_mem_ifNamed {names : List String} {value other : α}
    (h : other ∈ ifNamed names value) : other = value := by
  by_cases hNames : "" ∈ names
  · rw [ifNamed_of_mem hNames] at h
    cases h
  · rw [ifNamed_of_not_mem hNames] at h
    exact (Option.some.inj h).symm

theorem ifNamed_append (names more : List String) (f : α → β) (value : α) :
    ifNamed (names ++ more) (f value) =
      (ifNamed names f).bind fun f => (ifNamed more value).map f := by
  by_cases hNames : "" ∈ names
  · rw [ifNamed_of_mem hNames, ifNamed_of_mem (List.mem_append_left _ hNames)]
    rfl
  · by_cases hMore : "" ∈ more
    · rw [ifNamed_of_mem hMore, ifNamed_of_mem (List.mem_append_right _ hMore),
        ifNamed_of_not_mem hNames]
      rfl
    · rw [ifNamed_of_not_mem hNames, ifNamed_of_not_mem hMore, ifNamed_of_not_mem]
      · rfl
      · rw [List.mem_append, not_or]
        exact ⟨hNames, hMore⟩

/-- The choices without empty names. -/
def OfferChoice.kept (choices : List OfferChoice) : List OfferChoice :=
  choices.filterMap fun choice => ifNamed choice.requiredNames choice

theorem OfferChoice.mem_of_mem_kept {choice : OfferChoice} {choices : List OfferChoice}
    (h : choice ∈ kept choices) : choice ∈ choices := by
  obtain ⟨other, hMem, hNamed⟩ := List.mem_filterMap.mp h
  rwa [mem_of_mem_ifNamed hNamed]

namespace Statement

mutual

/-- The items of a statement without those that have an empty name of their own. -/
def keptItems : Statement → List Statement
  | empty => []
  | block items => keptItemsOfAll items
  | conditional condition goTrue goFalse =>
    (ifNamed condition.requiredNames
      (conditional condition (ofChain (keptItems goTrue)) (ofChain (keptItems goFalse)))).toList
  | repeatWhile condition body =>
    (ifNamed condition.requiredNames (repeatWhile condition (ofChain (keptItems body)))).toList
  | offer offerTo playerName cases =>
    (ifNamed offerTo.requiredNames
      (offer offerTo (playerName.filter (· ≠ "")) (keptCases cases))).toList
  | enterPhase name => (ifNamed [name] (enterPhase name)).toList
  | setNumber name value => (ifNamed (name :: value.requiredNames) (setNumber name value)).toList
  | shuffle zones => (ifNamed zones.requiredNames (shuffle zones)).toList
  | generateCards cards dest => (ifNamed dest.requiredNames (generateCards cards dest)).toList
  | deal count source dest =>
    (ifNamed (count.requiredNames ++ source.requiredNames ++ dest.requiredNames)
      (deal count source dest)).toList
  | moveCards source dest =>
    (ifNamed (source.requiredNames ++ dest.requiredNames) (moveCards source dest)).toList
  | declareWinner players => (ifNamed players.requiredNames (declareWinner players)).toList
  | advancePlayer amount => (ifNamed amount.requiredNames (advancePlayer amount)).toList

def keptItemsOfAll : List Statement → List Statement
  | [] => []
  | item :: items => keptItems item ++ keptItemsOfAll items

def keptCases : List (OfferCaseOf Statement) → List (OfferCaseOf Statement)
  | [] => []
  | offerCase :: cases => (keptCase? offerCase).toList ++ keptCases cases

def keptCase? : OfferCaseOf Statement → Option (OfferCaseOf Statement)
  | ⟨condition, message, choices, body⟩ =>
    ifNamed (condition.toList.flatMap BooleanExpression.requiredNames)
      ⟨condition, message, OfferChoice.kept choices, ofChain (keptItems body)⟩

end

/-- A statement without its unnamed parts, in normal form. -/
def kept (statement : Statement) : Statement := ofChain statement.keptItems

end Statement

/-- The phases with names, each without its unnamed parts. -/
def Phases.kept (phases : Phases) : Phases where
  entries := (phases.entries.filter (·.1 ≠ "")).map fun entry => (entry.1, entry.2.kept)
  sorted := List.pairwise_map.mpr (phases.sorted.filter _)

end RuleBlocks
