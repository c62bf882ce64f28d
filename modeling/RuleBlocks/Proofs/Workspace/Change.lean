import RuleBlocks.Workspace.Basic
import Mathlib.Data.List.Nodup

/-!
# What a change does to the links

The links of a workspace are stored twice: a block names what it is attached to, and the other block
holds it in one of its places. `Holds` is the second of these views. For every change this file says
what it does to both.

* `attach_eq_ok_iff`: when a block is attached, and what the workspace is then.
* `parent?_attach`, `holds_attach`: attaching adds its link to both views and nothing else.
* `parent?_disconnect`, `holds_disconnect`: undoing a link takes it out of both views, provided that
  no two connections of a block have the same input.
-/

namespace RuleBlocks

namespace Block

/-- The place that an attachment names holds a child. -/
def Holds (block : Block) (child : NodeId) : Attachment → Prop
  | .value input => ⟨input, .value, child⟩ ∈ block.inputs
  | .statement input => ⟨input, .statement, child⟩ ∈ block.inputs
  | .next => block.next? = some child

/-- The place that an attachment names can take a child. An input that holds a value cannot take
statements, nor the other way round. -/
def IsFree (block : Block) : Attachment → Prop
  | .value input | .statement input => input ∉ block.inputs.map Connection.input
  | .next => block.next? = none

/-- The block with a child in the place that an attachment names. -/
def put (block : Block) (child : NodeId) : Attachment → Block
  | .value input => { block with inputs := block.inputs ++ [⟨input, .value, child⟩] }
  | .statement input => { block with inputs := block.inputs ++ [⟨input, .statement, child⟩] }
  | .next => { block with next? := some child }

variable {block : Block} {node child other : NodeId} {via via' : Attachment} {input : String}

theorem connection?_eq_none_iff :
    block.connection? input = none ↔ input ∉ block.inputs.map Connection.input := by
  simp only [connection?, List.find?_eq_none, decide_eq_true_eq, List.mem_map, not_exists, not_and]

theorem plug_eq_ok_iff {connection : Connection} {changed : Block} :
    block.plug node connection = .ok changed ↔
      connection.input ∉ block.inputs.map Connection.input ∧
        changed = { block with inputs := block.inputs ++ [connection] } := by
  rw [← connection?_eq_none_iff, plug]
  cases block.connection? connection.input with
  | none => simp [eq_comm]
  | some _ => simp

theorem accept_eq_ok_iff {changed : Block} :
    block.accept node child via = .ok changed ↔
      block.IsFree via ∧ changed = block.put child via := by
  cases via with
  | value input => exact plug_eq_ok_iff
  | statement input => exact plug_eq_ok_iff
  | next =>
    unfold accept IsFree put
    cases block.next? with
    | none => simp [eq_comm]
    | some _ => simp

@[simp] theorem number_put : (block.put child via).number = block.number := by
  cases via <;> rfl

@[simp] theorem parent?_put : (block.put child via).parent? = block.parent? := by
  cases via <;> rfl

@[simp] theorem number_release : (block.release via).number = block.number := by
  cases via <;> rfl

@[simp] theorem parent?_release : (block.release via).parent? = block.parent? := by
  cases via <;> rfl

theorem holds_put (hFree : block.IsFree via) :
    (block.put child via).Holds other via' ↔
      block.Holds other via' ∨ (via' = via ∧ other = child) := by
  cases via with
  | next =>
    have hNone : block.next? = none := hFree
    cases via' with
    | next => simp [Holds, put, hNone, eq_comm]
    | value _ | statement _ => simp [Holds, put]
  | value _ | statement _ =>
    cases via' with
    | next => simp [Holds, put]
    | value _ | statement _ => simp [Holds, put]

/-- No two connections of a block have the same input. -/
def DistinctInputs (block : Block) : Prop := (block.inputs.map Connection.input).Nodup

theorem DistinctInputs.put (hDistinct : block.DistinctInputs) (hFree : block.IsFree via) :
    (block.put child via).DistinctInputs := by
  cases via with
  | next => exact hDistinct
  | value input | statement input =>
    simp only [DistinctInputs, Block.put, List.map_append, List.map_cons, List.map_nil]
    exact List.nodup_append.mpr ⟨hDistinct, by simp, fun a ha b hb hEq => hFree (by simp_all)⟩

theorem DistinctInputs.release (hDistinct : block.DistinctInputs) :
    (block.release via).DistinctInputs := by
  cases via with
  | next => exact hDistinct
  | value input | statement input => exact (List.filter_sublist.map _).nodup hDistinct

theorem DistinctInputs.eq_of_input_eq (hDistinct : block.DistinctInputs)
    {first second : Connection} (hFirst : first ∈ block.inputs) (hSecond : second ∈ block.inputs)
    (hInput : first.input = second.input) : first = second :=
  List.inj_on_of_nodup_map hDistinct hFirst hSecond hInput

/-- A place holds at most one child. -/
theorem DistinctInputs.holds_unique (hDistinct : block.DistinctInputs)
    (hChild : block.Holds child via) (hOther : block.Holds other via) : child = other := by
  cases via with
  | value input | statement input =>
    exact congrArg Connection.target (hDistinct.eq_of_input_eq hChild hOther rfl)
  | next => exact Option.some.inj (hChild.symm.trans hOther)

/-- Clearing a place by the name of its input takes out just one link, since no other connection has
that input. -/
theorem holds_release (hDistinct : block.DistinctInputs) (hHolds : block.Holds child via) :
    (block.release via).Holds other via' ↔ block.Holds other via' ∧ via' ≠ via := by
  have hKind : ∀ kind kind' input, ⟨input, kind, other⟩ ∈ block.inputs →
      ⟨input, kind', child⟩ ∈ block.inputs → kind = kind' := fun kind kind' input hOther hChild =>
    congrArg Connection.kind (hDistinct.eq_of_input_eq hOther hChild rfl)
  cases via <;> cases via' <;> simp only [Holds, release, List.mem_filter, decide_eq_true_eq,
    ne_eq, reduceCtorEq, not_false_eq_true, and_true, Attachment.value.injEq,
    Attachment.statement.injEq, not_true_eq_false, and_false] at hHolds ⊢
  case value.statement input input' =>
    refine and_iff_left_of_imp fun hOther hInput => ?_
    exact absurd (hKind _ _ _ hOther (hInput ▸ hHolds)) (by decide)
  case statement.value input input' =>
    refine and_iff_left_of_imp fun hOther hInput => ?_
    exact absurd (hKind _ _ _ hOther (hInput ▸ hHolds)) (by decide)

end Block

namespace Workspace

variable {workspace changed : Workspace} {node other child : NodeId} {link : ParentLink}

/-- The place that a link names holds a child. -/
def Holds (workspace : Workspace) (link : ParentLink) (child : NodeId) : Prop :=
  ∃ block, workspace.block? link.node = some block ∧ block.Holds child link.via

/-- A block is attached to another one. -/
def IsParent (workspace : Workspace) (parent child : NodeId) : Prop :=
  ∃ link, workspace.parent? child = some link ∧ link.node = parent

/-! ## Single blocks -/

theorem block?_modify (change : Block → Block) :
    (workspace.modify node change).block? other =
      if node = other then (workspace.block? other).map change else workspace.block? other := by
  simp only [block?, modify, Array.getElem?_modify]

theorem size_modify (change : Block → Block) :
    (workspace.modify node change).size = workspace.size := by
  simp [size, modify]

/-- Every block has a property, which may depend on its number. -/
def EveryBlock (workspace : Workspace) (P : NodeId → Block → Prop) : Prop :=
  ∀ node block, workspace.block? node = some block → P node block

/-- What holds of every block is kept by a change that keeps it for the changed block. -/
theorem EveryBlock.modify {P : NodeId → Block → Prop} (hBlocks : workspace.EveryBlock P)
    {change : Block → Block}
    (hChange : ∀ block, workspace.block? node = some block → P node block →
      P node (change block)) :
    (workspace.modify node change).EveryBlock P := by
  intro other block h
  rw [block?_modify] at h
  split at h
  · rename_i hEq
    subst hEq
    obtain ⟨old, hOld, rfl⟩ := Option.map_eq_some_iff.mp h
    exact hChange old hOld (hBlocks _ _ hOld)
  · exact hBlocks _ _ h

theorem block?_create (tag : String) :
    (workspace.create tag).block? other =
      if other = workspace.size then some (Block.ofTag workspace.size tag)
      else workspace.block? other := by
  unfold block? create size
  rw [Array.getElem?_push]

theorem lt_size_of_block? {block : Block} (h : workspace.block? node = some block) :
    node < workspace.size := by
  obtain ⟨hLt, -⟩ := Array.getElem?_eq_some_iff.mp h
  exact hLt

theorem exists_block?_iff : (∃ block, workspace.block? node = some block) ↔
    node < workspace.size := by
  refine ⟨fun ⟨_, h⟩ => lt_size_of_block? h, fun h => ⟨workspace.blocks[node], ?_⟩⟩
  exact Array.getElem?_eq_getElem h

theorem exists_block?_of_parent? (h : workspace.parent? node = some link) :
    ∃ block, workspace.block? node = some block ∧ block.parent? = some link :=
  Option.bind_eq_some_iff.mp h

theorem parent?_of_block? {block : Block} (h : workspace.block? node = some block) :
    workspace.parent? node = block.parent? := by
  simp [parent?, h]

/-- A change of a block that keeps what it is attached to keeps that of every block. -/
theorem parent?_modify {change : Block → Block}
    (hKeep : ∀ block, (change block).parent? = block.parent?) :
    (workspace.modify node change).parent? other = workspace.parent? other := by
  unfold parent?
  rw [block?_modify]
  split
  · cases workspace.block? other <;> simp [hKeep]
  · rfl

/-- A change of a block that keeps its places keeps what every link holds. -/
theorem holds_modify {change : Block → Block}
    (hKeep : ∀ block via, (change block).Holds child via ↔ block.Holds child via) :
    (workspace.modify node change).Holds link child ↔ workspace.Holds link child := by
  unfold Holds
  rw [block?_modify]
  split
  · cases workspace.block? link.node <;> simp [hKeep]
  · rfl

/-! ## Making a block -/

theorem parent?_create (tag : String) :
    (workspace.create tag).parent? node = workspace.parent? node := by
  unfold parent?
  rw [block?_create]
  split
  · rename_i hEq
    rw [hEq, show workspace.block? workspace.size = none from
      Array.getElem?_eq_none (Nat.le_refl _)]
    rfl
  · rfl

theorem holds_create (tag : String) :
    (workspace.create tag).Holds link child ↔ workspace.Holds link child := by
  unfold Holds
  rw [block?_create]
  split
  · rename_i hEq
    rw [hEq, show workspace.block? workspace.size = none from
      Array.getElem?_eq_none (Nat.le_refl _)]
    cases link.via <;> simp [Block.ofTag, Block.Holds]
  · rfl

/-! ## Attaching a block -/

theorem checkAttach_eq_ok_iff {parent : NodeId} :
    workspace.checkAttach parent child = .ok () ↔
      (∃ block, workspace.block? child = some block ∧ block.parent? = none) ∧
        (∃ block, workspace.block? parent = some block) ∧ child ∉ workspace.lineage parent := by
  unfold checkAttach
  cases workspace.block? child with
  | none => simp
  | some childBlock =>
    cases workspace.block? parent with
    | none => simp
    | some parentBlock =>
      cases hParent : childBlock.parent? with
      | some link => simp [hParent]
      | none =>
        by_cases hMem : child ∈ workspace.lineage parent
        · simp [hParent, hMem]
        · simp [hParent, hMem]

/-- A block is attached just if it exists and is free, the other block exists and does not stand
below it, and the place is free. -/
theorem attach_eq_ok_iff :
    workspace.attach link child = .ok changed ↔
      (∃ block, workspace.block? child = some block ∧ block.parent? = none) ∧
        child ∉ workspace.lineage link.node ∧
        ∃ parent, workspace.block? link.node = some parent ∧ parent.IsFree link.via ∧
          changed = (workspace.modify link.node fun _ => parent.put child link.via).modify child
            fun block => { block with parent? := some link } := by
  unfold attach
  constructor
  · intro h
    cases hCheck : workspace.checkAttach link.node child with
    | error _ => rw [hCheck] at h; cases h
    | ok _ =>
      rw [hCheck] at h
      obtain ⟨hChild, ⟨parent, hParent⟩, hLineage⟩ := checkAttach_eq_ok_iff.mp hCheck
      refine ⟨hChild, hLineage, parent, hParent, ?_⟩
      simp only [hParent] at h
      cases hAccept : parent.accept link.node child link.via with
      | error _ => rw [hAccept] at h; cases h
      | ok full =>
        obtain ⟨hFree, hFull⟩ := Block.accept_eq_ok_iff.mp hAccept
        rw [hAccept] at h
        subst hFull
        cases h
        exact ⟨hFree, rfl⟩
  · rintro ⟨hChild, hLineage, parent, hParent, hFree, rfl⟩
    have hCheck := checkAttach_eq_ok_iff.mpr ⟨hChild, ⟨parent, hParent⟩, hLineage⟩
    rw [hCheck]
    simp only [hParent]
    show (parent.accept link.node child link.via >>= _) = _
    rw [Block.accept_eq_ok_iff.mpr ⟨hFree, rfl⟩]
    rfl

theorem edit_attach_ok (h : workspace.attach link child = .ok changed) :
    workspace.edit (.attach link child) = (changed, .ok ()) := by
  simp only [edit, h]

theorem edit_attach_error {error : GraphError} (h : workspace.attach link child = .error error) :
    workspace.edit (.attach link child) = (workspace, .error error) := by
  simp only [edit, h]

theorem parent?_attach (h : workspace.attach link child = .ok changed) :
    changed.parent? node = if node = child then some link else workspace.parent? node := by
  obtain ⟨⟨block, hChild, -⟩, -, parent, hParent, -, rfl⟩ := attach_eq_ok_iff.mp h
  unfold parent?
  rw [block?_modify, block?_modify]
  by_cases hNode : node = child
  · subst hNode
    rw [if_pos rfl, if_pos rfl, hChild]
    split <;> rfl
  · rw [if_neg (Ne.symm hNode), if_neg hNode]
    split
    · rename_i hEq
      rw [← hEq, hParent]
      simp
    · rfl

theorem holds_attach {place : ParentLink} (h : workspace.attach link child = .ok changed) :
    changed.Holds place other ↔ workspace.Holds place other ∨ (place = link ∧ other = child) := by
  obtain ⟨-, -, parent, hParent, hFree, rfl⟩ := attach_eq_ok_iff.mp h
  rw [holds_modify fun block via => by cases via <;> rfl]
  unfold Holds
  rw [block?_modify]
  obtain ⟨holder, via⟩ := place
  split
  · rename_i hEq
    dsimp only at hEq
    subst hEq
    obtain ⟨parentNode, linkVia⟩ := link
    simp only [hParent, Option.map_some, Option.some.injEq, exists_eq_left', Block.holds_put hFree,
      ParentLink.mk.injEq, true_and]
  · rename_i hNe
    refine (or_iff_left ?_).symm
    rintro ⟨rfl, -⟩
    exact hNe rfl

/-! ## Undoing a link -/

/-- The workspace after the link of a block was undone. -/
theorem disconnect_of_parent? (h : workspace.parent? node = some link)
    (hLink : link.node < workspace.size) :
    workspace.disconnect node =
      ((workspace.modify node fun block => { block with parent? := none }).modify link.node
        (·.release link.via), .ok (some link)) := by
  obtain ⟨block, hBlock, hParent⟩ := exists_block?_of_parent? h
  have hFreed : link.node <
      (workspace.modify node fun block => { block with parent? := none }).size := by
    rwa [size_modify]
  obtain ⟨parent, hFreed⟩ := exists_block?_iff.mpr hFreed
  simp only [disconnect, hBlock, hParent, hFreed]

theorem disconnect_of_parent?_eq_none (h : workspace.parent? node = none) :
    (workspace.disconnect node).1 = workspace := by
  unfold disconnect
  cases hBlock : workspace.block? node with
  | none => rfl
  | some block =>
    rw [parent?_of_block? hBlock] at h
    simp only [h]

theorem parent?_disconnect (h : workspace.parent? node = some link)
    (hLink : link.node < workspace.size) :
    (workspace.disconnect node).1.parent? other =
      if other = node then none else workspace.parent? other := by
  rw [disconnect_of_parent? h hLink]
  dsimp only
  rw [parent?_modify fun block => Block.parent?_release]
  unfold parent?
  rw [block?_modify]
  by_cases hNode : other = node
  · subst hNode
    rw [if_pos rfl, if_pos rfl]
    cases workspace.block? other <;> rfl
  · rw [if_neg (Ne.symm hNode), if_neg hNode]

theorem holds_modify_release {place : ParentLink} (hHolds : workspace.Holds link child)
    (hDistinct : ∀ block, workspace.block? link.node = some block → block.DistinctInputs) :
    (workspace.modify link.node (·.release link.via)).Holds place other ↔
      workspace.Holds place other ∧ place ≠ link := by
  obtain ⟨parent, hParent, hVia⟩ := hHolds
  unfold Holds
  rw [block?_modify]
  obtain ⟨holder, via⟩ := place
  split
  · rename_i hEq
    dsimp only at hEq
    subst hEq
    obtain ⟨parentNode, linkVia⟩ := link
    simp only [hParent, Option.map_some, Option.some.injEq, exists_eq_left',
      Block.holds_release (hDistinct parent hParent) hVia, ParentLink.mk.injEq, true_and, ne_eq]
  · rename_i hNe
    refine (and_iff_left ?_).symm
    rintro rfl
    exact hNe rfl

theorem holds_disconnect {place : ParentLink} (h : workspace.parent? node = some link)
    (hHolds : workspace.Holds link node)
    (hDistinct : ∀ block, workspace.block? link.node = some block → block.DistinctInputs) :
    (workspace.disconnect node).1.Holds place other ↔
      workspace.Holds place other ∧ place ≠ link := by
  have hFreed : ∀ {place : ParentLink} {other : NodeId},
      (workspace.modify node fun block => { block with parent? := none }).Holds place other ↔
        workspace.Holds place other :=
    holds_modify fun block via => by cases via <;> rfl
  obtain ⟨parent, hParent, -⟩ := id hHolds
  rw [disconnect_of_parent? h (lt_size_of_block? hParent),
    holds_modify_release (hFreed.mpr hHolds), hFreed]
  intro block hBlock
  rw [block?_modify] at hBlock
  split at hBlock
  · rw [hParent] at hBlock
    cases hBlock
    exact hDistinct parent hParent
  · exact hDistinct block hBlock

end Workspace

end RuleBlocks
