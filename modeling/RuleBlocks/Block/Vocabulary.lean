import RuleBlocks.NameMap
import RuleBlocks.Block.Kind

/-!
# Vocabularies

A vocabulary says which kind of block a tag stands for. Canonical tags stand for their kinds unless
they have been given another meaning; further tags are aliases. Whatever the aliases, a block that
is made for a kind gets the canonical tag.
-/

namespace RuleBlocks

/-- The tags that have been given a meaning besides or instead of their canonical one. -/
structure Vocabulary where
  aliases : NameMap BlockKind
deriving DecidableEq

namespace Vocabulary

/-- The vocabulary of the canonical tags. -/
def canonical : Vocabulary := ⟨NameMap.empty⟩

instance : Inhabited Vocabulary := ⟨canonical⟩

/-- Give a tag the meaning of a canonical tag. Nothing happens if the latter is not canonical. -/
def addAlias (vocabulary : Vocabulary) (tag canonicalTag : String) : Vocabulary :=
  match BlockKind.ofTag? canonicalTag with
  | some kind => ⟨vocabulary.aliases.insert tag kind⟩
  | none => vocabulary

/-- The vocabulary with the given pairs of a tag and a canonical tag, entered one after the
other. -/
def ofAliases (aliases : List (String × String)) : Vocabulary :=
  aliases.foldl (fun vocabulary pair => vocabulary.addAlias pair.1 pair.2) canonical

/-- The kind of block that a tag stands for. -/
def kind? (vocabulary : Vocabulary) (tag : String) : Option BlockKind :=
  match vocabulary.aliases.get? tag with
  | some kind => some kind
  | none => BlockKind.ofTag? tag

/-- How many tags stand for a kind of block. -/
def size (vocabulary : Vocabulary) : Nat :=
  BlockKind.all.length +
    vocabulary.aliases.names.countP fun tag => (BlockKind.ofTag? tag).isNone

@[simp] theorem kind?_canonical (tag : String) : canonical.kind? tag = BlockKind.ofTag? tag := rfl

end Vocabulary

end RuleBlocks
