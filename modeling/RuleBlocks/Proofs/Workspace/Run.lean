import RuleBlocks.Proofs.Workspace.Forest

/-!
# Runs of changes

A workspace comes about by a run of commands from the empty one. Every command, whether it succeeds
or is refused, leads from a forest to a forest (`Forest.perform`), so every run does
(`Forest.run`).

Undoing a link only takes parents away. Attaching adds one parent, and a circle through the new link
would lead up from the other block to the attached one; that is what the check of the lineage
excludes.
-/

namespace RuleBlocks.Workspace

open Relation

/-- A call by which a workspace is changed. -/
inductive Command where
  | edit (change : Edit)
  | disconnect (node : NodeId)
deriving DecidableEq, Repr, Inhabited

/-- The workspace after a command. -/
def perform (workspace : Workspace) : Command → Workspace
  | .edit change => (workspace.edit change).1
  | .disconnect node => (workspace.disconnect node).1

/-- The workspace after a run of commands from the empty workspace. -/
def run (commands : List Command) : Workspace := commands.foldl perform empty

variable {workspace changed : Workspace} {node child : NodeId} {link : ParentLink}

/-- A path in a relation to which an edge was added either does without that edge or leads to its
source and from its target. -/
theorem path_of_added_edge {before after : NodeId → NodeId → Prop} {source target : NodeId}
    (hEdge : ∀ {first second}, after first second →
      before first second ∨ (first = source ∧ second = target)) {first last : NodeId}
    (h : TransGen after first last) :
    TransGen before first last ∨
      (ReflTransGen before first source ∧ ReflTransGen before target last) := by
  induction h with
  | single hStep =>
    rcases hEdge hStep with hOld | ⟨rfl, rfl⟩
    · exact Or.inl (.single hOld)
    · exact Or.inr ⟨.refl, .refl⟩
  | tail _ hStep ih =>
    rcases hEdge hStep with hStep | ⟨rfl, rfl⟩
    · exact ih.imp (·.tail hStep) fun ⟨hSource, hTarget⟩ => ⟨hSource, hTarget.tail hStep⟩
    · rcases ih with hOld | ⟨hSource, -⟩
      · exact Or.inr ⟨hOld.to_reflTransGen, .refl⟩
      · exact Or.inr ⟨hSource, .refl⟩

theorem forest_empty : empty.Forest where
  numbered _ _ h := by simp [block?, empty] at h
  parent?_iff := by simp [parent?, Holds, block?, empty]
  distinct _ _ h := by simp [block?, empty] at h
  acyclic node h := by
    obtain ⟨_, _, link, hLink, _⟩ := TransGen.tail'_iff.mp h
    simp [parent?, block?, empty] at hLink

namespace Forest

/-- A change that touches no link keeps a forest. -/
theorem of_same_links (hForest : workspace.Forest)
    (hNumbered : changed.EveryBlock fun node block => block.number = node)
    (hParent : ∀ node, changed.parent? node = workspace.parent? node)
    (hHolds : ∀ link child, changed.Holds link child ↔ workspace.Holds link child)
    (hDistinct : changed.EveryBlock fun _ block => block.DistinctInputs) :
    changed.Forest where
  numbered := hNumbered
  parent?_iff := by
    intro link child
    rw [hParent, hHolds, hForest.parent?_iff]
  distinct := hDistinct
  acyclic node h := by
    refine hForest.acyclic node (TransGen.mono (fun parent child hIsParent => ?_) _ _ h)
    obtain ⟨link, hLink, hNode⟩ := hIsParent
    exact ⟨link, by rw [← hParent, hLink], hNode⟩

theorem create (hForest : workspace.Forest) (tag : String) : (workspace.create tag).Forest := by
  refine hForest.of_same_links (fun node block h => ?_) (fun node => parent?_create tag)
    (fun link child => holds_create tag) (fun node block h => ?_)
  · rw [block?_create] at h
    split at h
    · rename_i hEq
      cases h
      exact hEq.symm
    · exact hForest.numbered _ _ h
  · rw [block?_create] at h
    split at h
    · cases h
      exact List.nodup_nil
    · exact hForest.distinct _ _ h

/-- A change of a block that keeps its number and its links keeps a forest. -/
theorem modify (hForest : workspace.Forest) (node : NodeId) {change : Block → Block}
    (hNumber : ∀ block, (change block).number = block.number)
    (hInputs : ∀ block, (change block).inputs = block.inputs)
    (hNext : ∀ block, (change block).next? = block.next?)
    (hParent : ∀ block, (change block).parent? = block.parent?) :
    (workspace.modify node change).Forest := by
  refine hForest.of_same_links
    (hForest.numbered.modify fun block _ hOld => (hNumber block).trans hOld)
    (fun other => parent?_modify hParent) (fun link child => holds_modify fun block via => ?_)
    (hForest.distinct.modify fun block _ hOld => ?_)
  · cases via <;> simp only [Block.Holds, hInputs, hNext]
  · unfold Block.DistinctInputs
    rw [hInputs]
    exact hOld

theorem setField (hForest : workspace.Forest) {field text : String}
    (h : workspace.setField node field text = .ok changed) : changed.Forest := by
  unfold Workspace.setField at h
  split at h
  · cases h
  · cases h
    exact hForest.modify node (fun _ => rfl) (fun _ => rfl) (fun _ => rfl) (fun _ => rfl)

theorem attach (hForest : workspace.Forest) (h : workspace.attach link child = .ok changed) :
    changed.Forest := by
  obtain ⟨⟨childBlock, hChild, hFree⟩, hLineage, parent, hParent, hPlace, hChanged⟩ :=
    attach_eq_ok_iff.mp h
  have hChildFree : workspace.parent? child = none := (parent?_of_block? hChild).trans hFree
  refine ⟨?_, ?_, ?_, ?_⟩
  · subst hChanged
    refine EveryBlock.modify (hForest.numbered.modify fun _ _ _ => ?_) fun _ _ hNumber => hNumber
    exact Block.number_put.trans (hForest.numbered _ _ hParent)
  · intro place other
    rw [parent?_attach h, holds_attach h]
    split
    · rename_i hEq
      subst hEq
      rw [← hForest.parent?_iff, hChildFree]
      simp [eq_comm]
    · rename_i hNe
      rw [hForest.parent?_iff]
      simp [hNe]
  · subst hChanged
    refine EveryBlock.modify (hForest.distinct.modify fun _ _ _ => ?_)
      fun _ _ hDistinct => hDistinct
    exact (hForest.distinct _ _ hParent).put hPlace
  · intro node hCycle
    have hEdge : ∀ {first second}, changed.IsParent first second →
        workspace.IsParent first second ∨ (first = link.node ∧ second = child) := by
      rintro first second ⟨place, hPlace, rfl⟩
      rw [parent?_attach h] at hPlace
      split at hPlace
      · rename_i hEq
        cases hPlace
        exact Or.inr ⟨rfl, hEq⟩
      · exact Or.inl ⟨place, hPlace, rfl⟩
    -- a circle through the new link would lead from the child up to the new parent
    rcases path_of_added_edge hEdge hCycle with hOld | ⟨hSource, hTarget⟩
    · exact hForest.acyclic node hOld
    · exact hLineage (hForest.mem_lineage_iff.mpr (hTarget.trans hSource))

theorem disconnect (hForest : workspace.Forest) (node : NodeId) :
    (workspace.disconnect node).1.Forest := by
  cases hParent : workspace.parent? node with
  | none =>
    rw [disconnect_of_parent?_eq_none hParent]
    exact hForest
  | some link =>
    have hHolds := hForest.parent?_iff.mp hParent
    have hLink := hForest.parent_lt_size hParent
    refine ⟨?_, ?_, ?_, ?_⟩
    · rw [disconnect_of_parent? hParent hLink]
      dsimp only
      refine EveryBlock.modify (hForest.numbered.modify fun _ _ hNumber => ?_) fun _ _ hNumber => ?_
      · exact hNumber
      · exact Block.number_release.trans hNumber
    · intro place other
      rw [parent?_disconnect hParent hLink,
        holds_disconnect hParent hHolds (hForest.distinct _),
        ← hForest.parent?_iff]
      split
      · rename_i hEq
        subst hEq
        rw [hParent]
        simp [eq_comm]
      · rename_i hNe
        -- no other block hangs from the link that is undone
        refine (and_iff_left_of_imp fun hOther hEq => ?_).symm
        subst hEq
        exact hNe (hForest.parent?_injective hOther hParent)
    · rw [disconnect_of_parent? hParent hLink]
      dsimp only
      refine EveryBlock.modify (hForest.distinct.modify fun _ _ hDistinct => ?_)
        fun _ _ hDistinct => ?_
      · exact hDistinct
      · exact Block.DistinctInputs.release hDistinct
    · intro other hCycle
      refine hForest.acyclic other (TransGen.mono (fun parent child hIsParent => ?_) _ _ hCycle)
      obtain ⟨place, hPlace, hNode⟩ := hIsParent
      rw [parent?_disconnect hParent hLink] at hPlace
      split at hPlace
      · cases hPlace
      · exact ⟨place, hPlace, hNode⟩

theorem edit (hForest : workspace.Forest) (change : Edit) : (workspace.edit change).1.Forest := by
  unfold Workspace.edit
  cases change with
  | create tag => exact hForest.create tag
  | setField node field text =>
    dsimp only
    cases hResult : workspace.setField node field text with
    | error _ => exact hForest
    | ok changed => exact hForest.setField hResult
  | attach link child =>
    dsimp only
    cases hResult : workspace.attach link child with
    | error _ => exact hForest
    | ok changed => exact hForest.attach hResult

theorem perform (hForest : workspace.Forest) (command : Command) :
    (workspace.perform command).Forest := by
  cases command with
  | edit change => exact hForest.edit change
  | disconnect node => exact hForest.disconnect node

end Forest

theorem forest_foldl (hForest : workspace.Forest) (commands : List Command) :
    (commands.foldl perform workspace).Forest := by
  induction commands generalizing workspace with
  | nil => exact hForest
  | cons command commands ih => exact ih (hForest.perform command)

theorem Forest.run (commands : List Command) : (run commands).Forest :=
  forest_foldl forest_empty commands

/-- **Every run keeps the links sound.** After any commands, refused ones included, the workspace is
a forest, its links lead to blocks that exist, and every block lies below exactly one root. -/
theorem run_links_sound (commands : List Command) :
    (run commands).Forest ∧
      (∀ node block, (run commands).block? node = some block →
        (∀ link, block.parent? = some link → link.node < (run commands).size) ∧
          (∀ next, block.next? = some next → next < (run commands).size) ∧
          ∀ connection ∈ block.inputs, connection.target < (run commands).size) ∧
      ∀ node < (run commands).size,
        ∃! root, root ∈ (run commands).roots ∧
          ReflTransGen (run commands).IsParent root node := by
  have hForest := Forest.run commands
  refine ⟨hForest, fun node block hBlock => ⟨fun link hLink => ?_, fun next hNext => ?_, ?_⟩,
    fun node hNode => hForest.exists_unique_root hNode⟩
  · exact hForest.parent_lt_size ((parent?_of_block? hBlock).trans hLink)
  · have hHolds : (run commands).Holds ⟨node, .next⟩ next := ⟨block, hBlock, hNext⟩
    exact hForest.child_lt_size hHolds
  · rintro ⟨input, kind, target⟩ hMem
    cases kind with
    | value =>
      have hHolds : (run commands).Holds ⟨node, .value input⟩ target := ⟨block, hBlock, hMem⟩
      exact hForest.child_lt_size hHolds
    | statement =>
      have hHolds : (run commands).Holds ⟨node, .statement input⟩ target := ⟨block, hBlock, hMem⟩
      exact hForest.child_lt_size hHolds

end RuleBlocks.Workspace
