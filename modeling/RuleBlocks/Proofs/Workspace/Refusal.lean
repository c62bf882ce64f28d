import RuleBlocks.Proofs.Workspace.Run

/-!
# Refused changes

A block is attached just if both blocks exist, the child is free and does not stand above its new
parent, and the place is free (`Attachable`). Otherwise the first of these conditions that fails is
the fault (`Refuses`). In a forest one of the two is always the case, so `Attachable` says exactly
when a block is attached (`Forest.edit_attach_ok_iff`) and `Refuses` with which fault it is not
(`Forest.edit_attach_error_iff`).

A refused change leaves the workspace as it was. Attaching takes two writes, one to each of the two
blocks (`attachInPlace`), and a link is undone by two writes as well. In both cases the second block
is looked up after the first write, but it is known to be there by then: so nothing is left half
done (`edit_attach_eq_attachInPlace`, `Forest.disconnect_eq_of_error`).
-/

namespace RuleBlocks

/-- The fault of a place that is taken. -/
def ParentLink.occupied (link : ParentLink) : GraphError :=
  match link.via with
  | .value input | .statement input => .inputOccupied link.node input
  | .next => .nextOccupied link.node

theorem Block.accept_eq_error {block : Block} {link : ParentLink} {child : NodeId}
    (h : ¬ block.IsFree link.via) :
    block.accept link.node child link.via = .error link.occupied := by
  obtain ⟨node, via⟩ := link
  cases via with
  | value input | statement input =>
    have hHeld : block.connection? input ≠ none := fun hNone => h (connection?_eq_none_iff.mp hNone)
    obtain ⟨connection, hHeld⟩ := Option.ne_none_iff_exists'.mp hHeld
    simp only [accept, plug, hHeld, ParentLink.occupied]
  | next =>
    obtain ⟨next, hHeld⟩ := Option.ne_none_iff_exists'.mp h
    simp only [accept, hHeld, ParentLink.occupied]

namespace Workspace

open Relation

/-- A block holds another one in one of its places. -/
def Carries (workspace : Workspace) (parent child : NodeId) : Prop :=
  ∃ via, workspace.Holds ⟨parent, via⟩ child

/-- Something stands in the place that a link names. An input with a value in it is taken for a
chain too, and the other way round. -/
def Taken (workspace : Workspace) (link : ParentLink) : Prop :=
  match link.via with
  | .value input | .statement input =>
    ∃ other, workspace.Holds ⟨link.node, .value input⟩ other ∨
      workspace.Holds ⟨link.node, .statement input⟩ other
  | .next => ∃ other, workspace.Holds ⟨link.node, .next⟩ other

/-- A child can be attached by a link. -/
structure Attachable (workspace : Workspace) (link : ParentLink) (child : NodeId) : Prop where
  child_lt : child < workspace.size
  parent_lt : link.node < workspace.size
  unattached : workspace.parent? child = none
  not_above : ¬ ReflTransGen workspace.Carries child link.node
  not_taken : ¬ workspace.Taken link

/-- The first condition of attaching that fails, as the fault that is reported. -/
inductive Refuses (workspace : Workspace) (link : ParentLink) (child : NodeId) : GraphError → Prop
  | unknownChild : workspace.size ≤ child → Refuses workspace link child (.unknownNode child)
  | unknownParent : child < workspace.size → workspace.size ≤ link.node →
      Refuses workspace link child (.unknownNode link.node)
  | alreadyAttached {held : ParentLink} : child < workspace.size → link.node < workspace.size →
      workspace.parent? child = some held →
      Refuses workspace link child (.alreadyAttached child held.node)
  | wouldCycle : child < workspace.size → link.node < workspace.size →
      workspace.parent? child = none → ReflTransGen workspace.Carries child link.node →
      Refuses workspace link child (.wouldCycle link.node child)
  | occupied : child < workspace.size → link.node < workspace.size →
      workspace.parent? child = none → ¬ ReflTransGen workspace.Carries child link.node →
      workspace.Taken link → Refuses workspace link child link.occupied

variable {workspace changed : Workspace} {node child parent : NodeId} {link : ParentLink}
variable {error : GraphError}

/-- Either a child can be attached or there is a first condition that fails. -/
theorem attachable_or_refuses (workspace : Workspace) (link : ParentLink) (child : NodeId) :
    workspace.Attachable link child ∨ ∃ error, workspace.Refuses link child error := by
  rcases Nat.lt_or_ge child workspace.size with hChild | hChild
  · rcases Nat.lt_or_ge link.node workspace.size with hParent | hParent
    · cases hLink : workspace.parent? child with
      | some held => exact Or.inr ⟨_, .alreadyAttached hChild hParent hLink⟩
      | none =>
        by_cases hAbove : ReflTransGen workspace.Carries child link.node
        · exact Or.inr ⟨_, .wouldCycle hChild hParent hLink hAbove⟩
        · by_cases hTaken : workspace.Taken link
          · exact Or.inr ⟨_, .occupied hChild hParent hLink hAbove hTaken⟩
          · exact Or.inl ⟨hChild, hParent, hLink, hAbove, hTaken⟩
    · exact Or.inr ⟨_, .unknownParent hChild hParent⟩
  · exact Or.inr ⟨_, .unknownChild hChild⟩

/-! ## The conditions as they are checked -/

theorem block?_eq_none_iff : workspace.block? node = none ↔ workspace.size ≤ node :=
  Array.getElem?_eq_none_iff

/-- A block carries just those blocks that are attached to it. -/
theorem Forest.carries_iff (hForest : workspace.Forest) :
    workspace.Carries parent child ↔ workspace.IsParent parent child := by
  constructor
  · rintro ⟨via, hHolds⟩
    exact ⟨⟨parent, via⟩, hForest.parent?_iff.mpr hHolds, rfl⟩
  · rintro ⟨link, hLink, rfl⟩
    exact ⟨link.via, hForest.parent?_iff.mp hLink⟩

/-- The way up meets just the blocks above. -/
theorem Forest.mem_lineage_iff_carries (hForest : workspace.Forest) :
    child ∈ workspace.lineage parent ↔ ReflTransGen workspace.Carries child parent := by
  have hSame : workspace.Carries = workspace.IsParent := by
    funext above below
    exact propext hForest.carries_iff
  rw [hForest.mem_lineage_iff, hSame]

theorem taken_iff {block : Block} (h : workspace.block? link.node = some block) :
    workspace.Taken link ↔ ¬ block.IsFree link.via := by
  obtain ⟨parent, via⟩ := link
  have hHolds (via : Attachment) (other : NodeId) :
      workspace.Holds ⟨parent, via⟩ other ↔ block.Holds other via := by
    unfold Holds
    rw [h]
    simp
  have hInput (input : String) :
      (∃ other, block.Holds other (.value input) ∨ block.Holds other (.statement input)) ↔
        input ∈ block.inputs.map Connection.input := by
    rw [List.mem_map]
    constructor
    · rintro ⟨other, hMem | hMem⟩
      · exact ⟨_, hMem, rfl⟩
      · exact ⟨_, hMem, rfl⟩
    · rintro ⟨⟨name, kind, target⟩, hMem, rfl⟩
      cases kind with
      | value => exact ⟨target, Or.inl hMem⟩
      | statement => exact ⟨target, Or.inr hMem⟩
  cases via with
  | value input | statement input =>
    simp only [Taken, Block.IsFree, hHolds, hInput, not_not]
  | next =>
    simp only [Taken, Block.IsFree, hHolds, Block.Holds, Option.ne_none_iff_exists']

/-! ## Attaching -/

theorem attach_eq_of_checkAttach (h : workspace.checkAttach link.node child = .error error) :
    workspace.attach link child = .error error := by
  unfold attach
  rw [h]
  rfl

/-- Once the checks are passed, only the place itself can refuse the child. -/
theorem attach_eq_of_checkAttach_ok {parent : Block}
    (hCheck : workspace.checkAttach link.node child = .ok ())
    (hParent : workspace.block? link.node = some parent) :
    workspace.attach link child = (parent.accept link.node child link.via).map fun filled =>
      (workspace.modify link.node fun _ => filled).modify child fun block =>
        { block with parent? := some link } := by
  unfold attach
  rw [hCheck]
  simp only [hParent]
  cases parent.accept link.node child link.via <;> rfl

/-- A child that can be attached is attached. -/
theorem Forest.exists_attach_eq_ok (hForest : workspace.Forest)
    (h : workspace.Attachable link child) :
    ∃ changed, workspace.attach link child = .ok changed := by
  obtain ⟨childBlock, hChild⟩ := exists_block?_iff.mpr h.child_lt
  obtain ⟨parent, hParent⟩ := exists_block?_iff.mpr h.parent_lt
  refine ⟨_, attach_eq_ok_iff.mpr ⟨⟨childBlock, hChild, ?_⟩, ?_, parent, hParent, ?_, rfl⟩⟩
  · rw [← parent?_of_block? hChild, h.unattached]
  · exact fun hMem => h.not_above (hForest.mem_lineage_iff_carries.mp hMem)
  · exact not_not.mp fun hTaken => h.not_taken ((taken_iff hParent).mpr hTaken)

/-- The first condition that fails is the fault. -/
theorem Forest.attach_eq_error (hForest : workspace.Forest)
    (h : workspace.Refuses link child error) : workspace.attach link child = .error error := by
  cases h with
  | unknownChild hChild =>
    refine attach_eq_of_checkAttach ?_
    simp only [checkAttach, block?_eq_none_iff.mpr hChild]
  | unknownParent hChild hParent =>
    obtain ⟨childBlock, hBlock⟩ := exists_block?_iff.mpr hChild
    refine attach_eq_of_checkAttach ?_
    simp only [checkAttach, hBlock, block?_eq_none_iff.mpr hParent]
  | alreadyAttached hChild hParent hHeld =>
    obtain ⟨childBlock, hBlock⟩ := exists_block?_iff.mpr hChild
    obtain ⟨parent, hParentBlock⟩ := exists_block?_iff.mpr hParent
    rw [parent?_of_block? hBlock] at hHeld
    refine attach_eq_of_checkAttach ?_
    simp only [checkAttach, hBlock, hParentBlock, hHeld]
  | wouldCycle hChild hParent hFree hAbove =>
    obtain ⟨childBlock, hBlock⟩ := exists_block?_iff.mpr hChild
    obtain ⟨parent, hParentBlock⟩ := exists_block?_iff.mpr hParent
    rw [parent?_of_block? hBlock] at hFree
    have hMem := hForest.mem_lineage_iff_carries.mpr hAbove
    refine attach_eq_of_checkAttach ?_
    simp only [checkAttach, hBlock, hParentBlock, hFree, if_pos hMem]
  | occupied hChild hParent hFree hAbove hTaken =>
    obtain ⟨childBlock, hBlock⟩ := exists_block?_iff.mpr hChild
    obtain ⟨parent, hParentBlock⟩ := exists_block?_iff.mpr hParent
    have hCheck : workspace.checkAttach link.node child = .ok () := by
      refine checkAttach_eq_ok_iff.mpr ⟨⟨childBlock, hBlock, ?_⟩, ⟨parent, hParentBlock⟩, ?_⟩
      · rw [← parent?_of_block? hBlock, hFree]
      · exact fun hMem => hAbove (hForest.mem_lineage_iff_carries.mp hMem)
    have hAccept : parent.accept link.node child link.via = .error link.occupied :=
      Block.accept_eq_error ((taken_iff hParentBlock).mp hTaken)
    rw [attach_eq_of_checkAttach_ok hCheck hParentBlock, hAccept]
    rfl

theorem edit_attach_snd (workspace : Workspace) (link : ParentLink) (child : NodeId) :
    (workspace.edit (.attach link child)).2 = (workspace.attach link child).map fun _ => () := by
  unfold edit
  dsimp only
  cases workspace.attach link child <;> rfl

/-- **A child is attached just if it can be.** -/
theorem Forest.edit_attach_ok_iff (hForest : workspace.Forest) :
    (workspace.edit (.attach link child)).2 = .ok () ↔ workspace.Attachable link child := by
  rw [edit_attach_snd]
  constructor
  · intro hOk
    rcases workspace.attachable_or_refuses link child with h | ⟨error, h⟩
    · exact h
    · rw [hForest.attach_eq_error h] at hOk
      cases hOk
  · intro h
    obtain ⟨changed, hOk⟩ := hForest.exists_attach_eq_ok h
    rw [hOk]
    rfl

/-- **The fault is the first condition that fails.** -/
theorem Forest.edit_attach_error_iff (hForest : workspace.Forest) :
    (workspace.edit (.attach link child)).2 = .error error ↔
      workspace.Refuses link child error := by
  rw [edit_attach_snd]
  constructor
  · intro hError
    rcases workspace.attachable_or_refuses link child with h | ⟨other, h⟩
    · obtain ⟨changed, hOk⟩ := hForest.exists_attach_eq_ok h
      rw [hOk] at hError
      cases hError
    · rw [hForest.attach_eq_error h] at hError
      cases hError
      exact h
  · intro h
    rw [hForest.attach_eq_error h]
    rfl

/-! ## Writes -/

/-- Attaching by one write after the other: the place is filled before the child is told where it
stands, and the child is looked up again for that. -/
def attachInPlace (workspace : Workspace) (link : ParentLink) (child : NodeId) :
    Workspace × Except GraphError Unit :=
  match workspace.checkAttach link.node child with
  | .error error => (workspace, .error error)
  | .ok () =>
    match workspace.block? link.node with
    | none => (workspace, .error (.unknownNode link.node))
    | some parent =>
      match parent.accept link.node child link.via with
      | .error error => (workspace, .error error)
      | .ok parent =>
        let filled := workspace.modify link.node fun _ => parent
        match filled.block? child with
        | none => (filled, .error (.unknownNode child))
        | some _ =>
          (filled.modify child fun block => { block with parent? := some link }, .ok ())

/-- After the first write of an attachment the second one cannot fail any more. -/
theorem edit_attach_eq_attachInPlace (workspace : Workspace) (link : ParentLink) (child : NodeId) :
    workspace.edit (.attach link child) = workspace.attachInPlace link child := by
  unfold edit attachInPlace
  cases hCheck : workspace.checkAttach link.node child with
  | error error => simp only [attach_eq_of_checkAttach hCheck]
  | ok _ =>
    obtain ⟨⟨childBlock, hChild, -⟩, ⟨parent, hParent⟩, -⟩ := checkAttach_eq_ok_iff.mp hCheck
    simp only [attach_eq_of_checkAttach_ok hCheck hParent, hParent]
    cases parent.accept link.node child link.via with
    | error error => rfl
    | ok filled =>
      have hLt : child < (workspace.modify link.node fun _ => filled).size := by
        rw [size_modify]
        exact lt_size_of_block? hChild
      obtain ⟨found, hFound⟩ := exists_block?_iff.mpr hLt
      simp only [hFound]
      rfl

theorem edit_eq_of_error {change : Edit} (h : (workspace.edit change).2 = .error error) :
    (workspace.edit change).1 = workspace := by
  unfold edit at h ⊢
  dsimp only at h ⊢
  split
  · rename_i hOk
    rw [hOk] at h
    cases h
  · rfl

/-- Undoing a link fails only if the block itself is unknown. -/
theorem Forest.disconnect_eq_of_error (hForest : workspace.Forest)
    (h : (workspace.disconnect node).2 = .error error) :
    (workspace.disconnect node).1 = workspace := by
  cases hParent : workspace.parent? node with
  | none => exact disconnect_of_parent?_eq_none hParent
  | some link =>
    rw [disconnect_of_parent? hParent (hForest.parent_lt_size hParent)] at h
    cases h

/-- **Blocks are attached exactly when they can be, and a refused change changes nothing.** After
any run of commands, a child is attached by a link just if both blocks exist, the child is attached
to nothing, it neither is nor carries the other block, however deep, and the place is free;
otherwise the first of these conditions that fails is the fault. All writes of an attachment are
made or none is, and whatever change is refused, the workspace is what it was before. -/
theorem run_attach_iff (commands : List Command) :
    let workspace := run commands
    (∀ link child,
      ((workspace.edit (.attach link child)).2 = .ok () ↔ workspace.Attachable link child) ∧
      (∀ error, (workspace.edit (.attach link child)).2 = .error error ↔
        workspace.Refuses link child error) ∧
      workspace.edit (.attach link child) = workspace.attachInPlace link child) ∧
    (∀ change error, (workspace.edit change).2 = .error error →
      (workspace.edit change).1 = workspace) ∧
    ∀ node error, (workspace.disconnect node).2 = .error error →
      (workspace.disconnect node).1 = workspace := by
  intro workspace
  have hForest := Forest.run commands
  refine ⟨fun link child => ⟨hForest.edit_attach_ok_iff,
    fun error => hForest.edit_attach_error_iff,
    workspace.edit_attach_eq_attachInPlace link child⟩, fun change error => edit_eq_of_error,
    fun node error => hForest.disconnect_eq_of_error⟩

end Workspace

end RuleBlocks
