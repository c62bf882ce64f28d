import RuleBlocks.Program.Statement

/-!
# What a selection binds

The choice type of a selection block is the tag of the category that the selection binds. Only
players and cards can be selected, one or several of them, and always from a collection.
-/

namespace RuleBlocks

/-- The tag by which a block names the type of a choice. -/
def ChoiceType.tag (choiceType : ChoiceType) : String := choiceType.boundCategory.tag

/-- The category that a selection binds and the category of its source. -/
structure SelectionCategories where
  bound : Category
  source : Category
deriving DecidableEq, Repr, Inhabited

/-- The categories of a selection of the type with the given tag. -/
def SelectionCategories.ofTag? (tag : String) : Option SelectionCategories :=
  match Category.ofTag? tag with
  | some .player => some ⟨.player, .playerCollection⟩
  | some .playerCollection => some ⟨.playerCollection, .playerCollection⟩
  | some .card => some ⟨.card, .cardCollection⟩
  | some .cardCollection => some ⟨.cardCollection, .cardCollection⟩
  | _ => none

end RuleBlocks
