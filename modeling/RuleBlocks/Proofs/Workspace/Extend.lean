import RuleBlocks.Proofs.Workspace.Change

/-!
# Workspaces with further blocks

New blocks come after those that a workspace has already. Nothing that exists is attached to a block
that is still to come (`Closed`), so a new block that is free can be attached to any free place of
an older one: `attach_extend`.
-/

namespace RuleBlocks.Workspace

/-- A workspace with further blocks after its own ones. -/
def extend (workspace : Workspace) (blocks : List Block) : Workspace :=
  ⟨workspace.blocks ++ blocks.toArray⟩

/-- Blocks are attached only to blocks that exist. -/
def Closed (workspace : Workspace) : Prop :=
  workspace.EveryBlock fun _ block =>
    ∀ link, block.parent? = some link → link.node < workspace.size

variable {workspace : Workspace} {blocks : List Block} {node : NodeId} {change : Block → Block}

@[simp] theorem size_extend : (workspace.extend blocks).size = workspace.size + blocks.length := by
  simp [size, extend]

@[simp] theorem extend_nil : workspace.extend [] = workspace := by
  simp [extend]

theorem extend_extend (more : List Block) :
    (workspace.extend blocks).extend more = workspace.extend (blocks ++ more) := by
  simp [extend]

theorem extend_inj {more : List Block} :
    workspace.extend blocks = workspace.extend more ↔ blocks = more := by
  refine ⟨fun hEq => ?_, congrArg _⟩
  have hLists := congrArg (fun extended : Workspace => extended.blocks.toList) hEq
  simpa [extend] using hLists

theorem block?_extend :
    (workspace.extend blocks).block? node =
      if node < workspace.size then workspace.block? node else blocks[node - workspace.size]? := by
  unfold block? extend size
  rw [Array.getElem?_append]
  simp only [List.getElem?_toArray]

theorem block?_extend_of_lt (h : node < workspace.size) :
    (workspace.extend blocks).block? node = workspace.block? node := by
  rw [block?_extend, if_pos h]

theorem block?_extend_size {block : Block} :
    (workspace.extend (block :: blocks)).block? workspace.size = some block := by
  rw [block?_extend, if_neg (Nat.lt_irrefl _), Nat.sub_self]
  rfl

theorem create_eq_extend (tag : String) :
    workspace.create tag = workspace.extend [Block.ofTag workspace.size tag] := by
  simp [create, extend]

/-! ## Changes of single blocks -/

/-- A workspace is known by its blocks. -/
theorem ext_block? {first second : Workspace} (h : ∀ node, first.block? node = second.block? node) :
    first = second := by
  obtain ⟨blocks⟩ := first
  obtain ⟨blocks'⟩ := second
  exact congrArg mk (Array.ext_getElem? h)

theorem modify_modify {second : Block → Block} :
    (workspace.modify node change).modify node second =
      workspace.modify node fun block => second (change block) := by
  apply ext_block?
  intro other
  simp only [block?_modify]
  split
  · cases workspace.block? other <;> rfl
  · rfl

theorem modify_eq_self (h : ∀ block, workspace.block? node = some block → change block = block) :
    workspace.modify node change = workspace := by
  apply ext_block?
  intro other
  rw [block?_modify]
  split
  · rename_i hEq
    subst hEq
    cases hBlock : workspace.block? node with
    | none => rfl
    | some block => rw [Option.map_some, h block hBlock]
  · rfl

/-- A change counts only for the block that it is made to. -/
theorem modify_of_block? {block : Block} (h : workspace.block? node = some block) :
    workspace.modify node change = workspace.modify node fun _ => change block := by
  apply ext_block?
  intro other
  simp only [block?_modify]
  split
  · rename_i hEq
    rw [← hEq, h]
    rfl
  · rfl

theorem modify_extend_of_lt (h : node < workspace.size) :
    (workspace.extend blocks).modify node change =
      (workspace.modify node change).extend blocks := by
  apply ext_block?
  intro other
  simp only [block?_modify, block?_extend, size_modify]
  split
  · rename_i hEq
    subst hEq
    rw [if_pos h, if_pos h]
  · rfl

theorem modify_extend_size {block : Block} (h : workspace.size = node) :
    (workspace.extend (block :: blocks)).modify node change =
      workspace.extend (change block :: blocks) := by
  subst h
  apply ext_block?
  intro other
  rw [block?_modify]
  split
  · rename_i hEq
    rw [← hEq, block?_extend_size, block?_extend_size]
    rfl
  · rename_i hNe
    rw [block?_extend, block?_extend]
    split
    · rfl
    · rename_i hLt
      obtain ⟨index, hIndex⟩ : ∃ index, other - workspace.size = index + 1 :=
        Nat.exists_eq_succ_of_ne_zero (Nat.sub_ne_zero_of_lt
          (Nat.lt_of_le_of_ne (Nat.not_lt.mp hLt) hNe))
      rw [hIndex, List.getElem?_cons_succ, List.getElem?_cons_succ]

/-! ## Attaching new blocks -/

theorem closed_extend (hClosed : workspace.Closed)
    (hBlocks : ∀ block ∈ blocks, ∀ link, block.parent? = some link →
      link.node < workspace.size + blocks.length) : (workspace.extend blocks).Closed := by
  intro node block hBlock link hLink
  rw [size_extend]
  rw [block?_extend] at hBlock
  split at hBlock
  · exact Nat.lt_add_right _ (hClosed _ _ hBlock link hLink)
  · exact hBlocks block (List.mem_of_getElem? hBlock) link hLink

theorem closed_modify (hClosed : workspace.Closed)
    (hKeep : ∀ block, (change block).parent? = block.parent?) :
    (workspace.modify node change).Closed := by
  unfold Closed
  rw [size_modify]
  refine hClosed.modify fun block _ hOld link hLink => hOld link ?_
  rw [← hKeep, hLink]

/-- The way up from a block leads through no block that came later. -/
theorem lt_size_of_mem_lineage_extend (hClosed : workspace.Closed) {above : NodeId}
    (hNode : node < workspace.size) (h : above ∈ (workspace.extend blocks).lineage node) :
    above < workspace.size := by
  unfold lineage at h
  generalize (workspace.extend blocks).size + 1 = limit at h
  induction limit generalizing node with
  | zero => cases h
  | succ limit ih =>
    rw [climb] at h
    rcases List.mem_cons.mp h with rfl | h
    · exact hNode
    · cases hParent : (workspace.extend blocks).parent? node with
      | none => simp [hParent] at h
      | some link =>
        simp only [hParent] at h
        obtain ⟨block, hBlock, hLink⟩ := exists_block?_of_parent? hParent
        rw [block?_extend_of_lt hNode] at hBlock
        exact ih (hClosed _ _ hBlock link hLink) h

/-- A free block that is new can be attached to any free place of an older block. -/
theorem attach_extend (hClosed : workspace.Closed) {link : ParentLink} {parent child : Block}
    (hParent : workspace.block? link.node = some parent) (hFree : parent.IsFree link.via)
    (hChild : child.parent? = none) :
    (workspace.extend (child :: blocks)).attach link workspace.size =
      .ok ((workspace.modify link.node (·.put workspace.size link.via)).extend
        ({ child with parent? := some link } :: blocks)) := by
  have hLt := lt_size_of_block? hParent
  refine attach_eq_ok_iff.mpr ⟨⟨child, block?_extend_size, hChild⟩, fun hMem => ?_, parent, ?_,
    hFree, ?_⟩
  · exact Nat.lt_irrefl _ (lt_size_of_mem_lineage_extend hClosed hLt hMem)
  · rw [block?_extend_of_lt hLt, hParent]
  · rw [modify_extend_of_lt hLt, modify_of_block? hParent, modify_extend_size (size_modify _)]

end RuleBlocks.Workspace
