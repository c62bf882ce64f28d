import RuleBlocks.Proofs.Reading.Copies
import RuleBlocks.Proofs.Reading.Ways

/-!
# Chains that go on

A chain that has come to its end may go on in another workspace, where further blocks come after its
last one (`ContinuedAfter`). It then has the same members as before, and the further ones after
them. How a statement is read does not depend on what comes next after its block. So the old members
are read as before, although the workspace has more blocks and chains are cut off later
(`Forest.chain_continued`).
-/

namespace RuleBlocks

open Relation

/-! ## The ends of chains -/

/-- The chain of a block comes to its end with another one. -/
def View.ChainEnds (view : View) (first last : NodeId) : Prop :=
  ReflTransGen (fun node next => view.next? node = some next) first last ∧ view.next? last = none

/-- A chain that ends has its members also where it goes on. -/
theorem View.ChainEnds.exists_members {view other : View} {first last : NodeId}
    (hEnds : view.ChainEnds first last)
    (hNext : ∀ node next, view.next? node = some next → other.next? node = some next) :
    ∃ members : List NodeId,
      (∀ more, view.chain (members.length + more) (some first) = members) ∧
      ∀ more, other.chain (members.length + more) (some first) =
        members ++ other.chain more (other.next? last) := by
  obtain ⟨hSteps, hLast⟩ := hEnds
  induction hSteps using ReflTransGen.head_induction_on with
  | refl =>
    refine ⟨[last], fun more => ?_, fun more => ?_⟩
    · rw [List.length_singleton, Nat.add_comm, chain, hLast]
      cases more <;> rfl
    · rw [List.length_singleton, Nat.add_comm, chain]
      rfl
  | @head node next hStep _ ih =>
    obtain ⟨members, hChain, hOther⟩ := ih
    refine ⟨node :: members, fun more => ?_, fun more => ?_⟩
    · rw [List.length_cons, Nat.add_right_comm, chain, hStep, hChain]
    · rw [List.length_cons, Nat.add_right_comm, chain, hNext _ _ hStep, hOther]
      rfl

namespace Reading

theorem additive_eq : Additive (· = ·) where
  nil := rfl
  append hFirst hMore := congrArg₂ _ hFirst hMore

theorem Alike.eq {α : Type} {first second : Reading α} (h : Alike (· = ·) α first second) :
    first = second := by
  obtain ⟨value, diagnostics, finished⟩ := first
  obtain ⟨rfl, rfl, rfl⟩ := h
  rfl

end Reading

theorem Spot.Match.mono {R S : NodeId → NodeId → Prop} {spot other : Spot}
    (h : spot.Match R other) (hMono : ∀ node second, R node second → S node second) :
    spot.Match S other :=
  ⟨hMono _ _ h.node, h.path.imp fun _ _ hStep => ⟨hMono _ _ hStep.1, hStep.2⟩⟩

namespace Workspace

variable {workspace other : Workspace} {node first last : NodeId} {vocabulary : Vocabulary}

/-- No chain of a forest is longer than the forest is large. -/
theorem Forest.length_chain_le_size (hForest : workspace.Forest) (hFirst : first < workspace.size)
    (limit : Nat) : (workspace.view.chain limit (some first)).length ≤ workspace.size :=
  length_le_of_nodup (hForest.nodup_chain limit (some first)) fun _ hMember =>
    (hForest.depth_le_of_mem_chain hFirst hMember).2

theorem chain_ofView (options : ReadOptions) (start : Option NodeId) :
    (Reader.ofView workspace.view vocabulary options).chain start =
      workspace.view.chain workspace.size start :=
  congrArg (workspace.view.chain · start) size_view

/-- The blocks of a workspace hold in another one what they hold here, and the same comes after each
of them, except perhaps after one. -/
structure ContinuedAfter (workspace other : Workspace) (last : NodeId) : Prop where
  tag? {node : NodeId} : node < workspace.size →
    other.view.tag? node = workspace.view.tag? node
  field? {node : NodeId} (field : String) : node < workspace.size →
    other.view.field? node field = workspace.view.field? node field
  input? {node : NodeId} (input : String) : node < workspace.size →
    other.view.input? node input = workspace.view.input? node input
  next? {node : NodeId} : node < workspace.size → node ≠ last →
    other.view.next? node = workspace.view.next? node

theorem ContinuedAfter.lt_size (h : workspace.ContinuedAfter other last)
    (hNode : node < workspace.size) : node < other.size := by
  rw [lt_size_iff_tag?, h.tag? hNode]
  exact lt_size_iff_tag?.mp hNode

/-! ## Inside the blocks of a chain -/

/-- A block that stands below the first one of a chain, and the same block. -/
def SameBelow (workspace : Workspace) (first node second : NodeId) : Prop :=
  node = second ∧ ReflTransGen workspace.IsParent first node

/-- The last block of a chain follows the first one. -/
theorem Forest.follows_of_chainEnds (hForest : workspace.Forest)
    (hEnds : workspace.view.ChainEnds first last) :
    ReflTransGen workspace.Follows last first :=
  ReflTransGen.mono (fun _ _ hNext => hForest.parent?_of_next? hNext) _ _ hEnds.1.swap

section

variable (hForest : workspace.Forest) (hOther : other.Forest) (hFirst : first < workspace.size)
variable (hEnds : workspace.view.ChainEnds first last)
variable (hContinued : workspace.ContinuedAfter other last)

include hForest hOther hFirst hEnds hContinued

/-- The chain in an input of a block below is the same, because the chain that goes on is none of
these. -/
theorem Forest.forall₂_held (input : String) {holder : NodeId}
    (hHolder : ReflTransGen workspace.IsParent first holder) :
    List.Forall₂ (workspace.SameBelow first)
      (workspace.view.chain workspace.view.size (workspace.view.input? holder input))
      (other.view.chain other.view.size (other.view.input? holder input)) := by
  let SameHeld (node second : NodeId) : Prop :=
    node = second ∧ ∃ child, workspace.view.input? holder input = some child ∧
      ReflTransGen workspace.Follows node child
  have hBelow {node child : NodeId} (hChild : workspace.view.input? holder input = some child)
      (hFollows : ReflTransGen workspace.Follows node child) :
      ReflTransGen workspace.IsParent first node :=
    (hHolder.tail (hForest.isParent_of_input? hChild)).trans (above_of_follows hFollows)
  have hHeld : List.Forall₂ SameHeld
      (workspace.view.chain workspace.view.size (workspace.view.input? holder input))
      (other.view.chain other.view.size (other.view.input? holder input)) := by
    refine forall₂_chain hForest hOther ?_ ?_ ?_
    · rintro node _ ⟨rfl, child, hChild, hFollows⟩
      have hNode := lt_size_of_below hFirst (hBelow hChild hFollows)
      exact ⟨hNode, hContinued.lt_size hNode⟩
    · rintro node _ ⟨rfl, child, hChild, hFollows⟩
      have hNode := lt_size_of_below hFirst (hBelow hChild hFollows)
      have hNotLast : node ≠ last := by
        rintro rfl
        exact hForest.not_follows_of_held hHolder hChild hFollows
          (hForest.follows_of_chainEnds hEnds)
      rw [hContinued.next? hNode hNotLast]
      cases hNext : workspace.view.next? node with
      | none => exact .none
      | some next =>
        exact .some ⟨rfl, child, hChild, hFollows.head (hForest.parent?_of_next? hNext)⟩
    · rw [hContinued.input? input (lt_size_of_below hFirst hHolder)]
      cases hChild : workspace.view.input? holder input with
      | none => exact .none
      | some child => exact .some ⟨rfl, child, hChild, .refl⟩
  refine hHeld.imp ?_
  rintro node _ ⟨rfl, child, hChild, hFollows⟩
  exact ⟨rfl, hBelow hChild hFollows⟩

/-- Readers go in step inside the blocks of a chain that goes on. -/
theorem Forest.inStepInside_continued :
    Reader.InStepInside ⟨workspace.view, vocabulary, none⟩ ⟨other.view, vocabulary, none⟩
      (workspace.SameBelow first) (Reading.AlikeAtEnd (· = ·)) where
  toCongruence := Reading.additive_eq.congruence_atEnd
  kind? := by
    rintro node _ ⟨rfl, hBelow⟩
    simp only [View.kind?, hContinued.tag? (lt_size_of_below hFirst hBelow)]
  field? := by
    rintro node _ field ⟨rfl, hBelow⟩
    exact (hContinued.field? field (lt_size_of_below hFirst hBelow)).symm
  input? := by
    rintro node _ input ⟨rfl, hBelow⟩
    rw [hContinued.input? input (lt_size_of_below hFirst hBelow)]
    cases hChild : workspace.view.input? node input with
    | none => exact .none
    | some child => exact .some ⟨rfl, hBelow.tail (hForest.isParent_of_input? hChild)⟩
  held := by
    rintro node _ input ⟨rfl, hBelow⟩
    exact hForest.forall₂_held hOther hFirst hEnds hContinued input hBelow
  error := by
    rintro spot _ error hSpot - -
    have hTag := hContinued.tag? (lt_size_of_below hFirst hSpot.node.2)
    obtain rfl := (hSpot.mono fun _ _ hSame => hSame.1).eq
    refine ⟨rfl, rfl, ?_⟩
    simp only [Reader.report, View.shownTag, hTag]
  unknown := by
    rintro node _ ⟨rfl, hBelow⟩ -
    simp only [View.shownTag, hContinued.tag? (lt_size_of_below hFirst hBelow)]
  checked _ _ _ _ _ := ⟨rfl, rfl, rfl⟩

/-- **A chain that goes on is read as before, and then what comes after it.** The chain has the old
members and the further ones after them, and a statement that an old member stands for is read as
before. -/
theorem Forest.chain_continued {rest : List NodeId}
    (hRest : ∀ limit, rest.length ≤ limit →
      other.view.chain limit (other.view.next? last) = rest) :
    let reader := Reader.ofView workspace.view vocabulary .unchecked
    let readerOther := Reader.ofView other.view vocabulary .unchecked
    readerOther.chain (some first) = reader.chain (some first) ++ rest ∧
      ∀ member ∈ reader.chain (some first),
        readerOther.readStatement member = reader.readStatement member := by
  intro reader readerOther
  have hNext : ∀ node next, workspace.view.next? node = some next →
      other.view.next? node = some next := by
    intro node next hNode
    have hNotLast : node ≠ last := by
      rintro rfl
      cases hEnds.2.symm.trans hNode
    obtain ⟨block, hBlock, -⟩ := Option.bind_eq_some_iff.mp hNode
    rw [hContinued.next? (lt_size_of_block? hBlock) hNotLast, hNode]
  obtain ⟨members, hChain, hChainOther⟩ := hEnds.exists_members hNext
  have hMembers : reader.chain (some first) = members := by
    have hLength := hForest.length_chain_le_size hFirst (members.length + 0)
    rw [hChain 0] at hLength
    obtain ⟨more, hMore⟩ := Nat.exists_eq_add_of_le hLength
    rw [chain_ofView, hMore, hChain]
  have hMembersOther : readerOther.chain (some first) = members ++ rest := by
    have hLength := hOther.length_chain_le_size (hContinued.lt_size hFirst)
      (members.length + rest.length)
    rw [hChainOther, hRest _ (Nat.le_refl _), List.length_append] at hLength
    obtain ⟨more, hMore⟩ := Nat.exists_eq_add_of_le hLength
    rw [chain_ofView, hMore, Nat.add_assoc, hChainOther, hRest _ (Nat.le_add_right _ _)]
  rw [hMembers, hMembersOther]
  refine ⟨rfl, fun member hMember => ?_⟩
  rw [← hMembers] at hMember
  have hBelow : workspace.SameBelow first member member :=
    ⟨rfl, above_of_follows (hForest.reaches_first_of_mem_chain hMember)⟩
  have hStep : reader.InStepInside readerOther (workspace.SameBelow first)
      (Reading.AlikeAtEnd (· = ·)) :=
    hForest.inStepInside_continued hOther hFirst hEnds hContinued
  have hRead := hStep.statement_depths (fun _ => nofun) (fun _ _ => nofun) reader.depthLimit
    readerOther.depthLimit ⟨member, []⟩ ⟨member, []⟩ (.start hBelow)
  exact (hRead (Reader.finished_readStatement hForest rfl _)
    (Reader.finished_readStatement hOther rfl _)).eq.symm

end

end Workspace

end RuleBlocks
