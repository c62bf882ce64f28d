import RuleBlocks.Block.Vocabulary
import Mathlib.Data.List.Induction

/-!
# What aliases do to a vocabulary

Aliases are entered one after the other, and the meaning that a tag was given last counts
(`Vocabulary.kind?_ofAliases`). So a canonical tag means its kind unless it was last given the
meaning of another kind (`Vocabulary.kind?_ofAliases_tag_eq_iff`).
-/

namespace RuleBlocks.Vocabulary

variable {aliases : List (String × String)}

/-- The kind whose meaning a tag was given last. Pairs with a second tag that is not canonical give
nothing. -/
def lastMeaning? (aliases : List (String × String)) (tag : String) : Option BlockKind :=
  aliases.reverse.findSome? fun pair => if pair.1 = tag then BlockKind.ofTag? pair.2 else none

theorem kind?_addAlias (vocabulary : Vocabulary) (pair : String × String) (tag : String) :
    (vocabulary.addAlias pair.1 pair.2).kind? tag =
      (if pair.1 = tag then BlockKind.ofTag? pair.2 else none).or (vocabulary.kind? tag) := by
  unfold addAlias
  cases BlockKind.ofTag? pair.2 with
  | none => simp
  | some kind =>
    unfold kind?
    rw [NameMap.get?_insert]
    by_cases hTag : pair.1 = tag
    · rw [if_pos hTag, if_pos hTag]
      rfl
    · rw [if_neg hTag, if_neg hTag]
      rfl

/-- The last meaning counts, and a tag that was given none keeps its canonical meaning. -/
theorem kind?_ofAliases (aliases : List (String × String)) (tag : String) :
    (ofAliases aliases).kind? tag = (lastMeaning? aliases tag).or (BlockKind.ofTag? tag) := by
  induction aliases using List.reverseRecOn with
  | nil => rfl
  | append_singleton rest pair ih =>
    have hLast : ofAliases (rest ++ [pair]) = (ofAliases rest).addAlias pair.1 pair.2 := by
      rw [ofAliases, List.foldl_append]
      rfl
    have hMeaning : lastMeaning? (rest ++ [pair]) tag =
        (if pair.1 = tag then BlockKind.ofTag? pair.2 else none).or (lastMeaning? rest tag) := by
      rw [lastMeaning?, List.reverse_concat, List.findSome?_cons]
      cases if pair.1 = tag then BlockKind.ofTag? pair.2 else none <;> rfl
    rw [hLast, kind?_addAlias, ih, hMeaning, Option.or_assoc]

/-- A canonical tag means its kind unless it was last given the meaning of another one. -/
theorem kind?_ofAliases_tag_eq_iff (aliases : List (String × String)) (kind : BlockKind) :
    (ofAliases aliases).kind? kind.tag = some kind ↔
      ∀ other, lastMeaning? aliases kind.tag = some other → other = kind := by
  rw [kind?_ofAliases, BlockKind.ofTag?_tag]
  cases lastMeaning? aliases kind.tag with
  | none => simp
  | some meaning => simp

/-- If only tags that are not canonical get a meaning, then every canonical tag stays what it is. -/
theorem kind?_ofAliases_tag (hAliases : ∀ pair ∈ aliases, BlockKind.ofTag? pair.1 = none)
    (kind : BlockKind) : (ofAliases aliases).kind? kind.tag = some kind := by
  refine (kind?_ofAliases_tag_eq_iff aliases kind).mpr fun other hOther => ?_
  obtain ⟨pair, hPair, hMeaning⟩ := List.exists_of_findSome?_eq_some hOther
  split at hMeaning
  · rename_i hTag
    have hNone := hAliases pair (List.mem_reverse.mp hPair)
    rw [hTag, BlockKind.ofTag?_tag] at hNone
    cases hNone
  · cases hMeaning

end RuleBlocks.Vocabulary
