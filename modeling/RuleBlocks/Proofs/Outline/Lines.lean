import RuleBlocks.Workspace.Outline
import RuleBlocks.Proofs.Outline.Preorder

/-!
# The lines of an outline

The outline of a forest shows every block on one line, and the lines come in preorder
(`Forest.preorder_outlineLines`). What a line shows depends on its block alone (`lineOf`): how many
inputs lead to it from its root, whether the holders of these inputs and the block itself are the
last ones at their level, and the input that starts with it
(`Forest.eq_lineOf_of_mem_outlineLines`).
-/

namespace RuleBlocks.Workspace

open Relation

/-! ## What a line shows of its block -/

/-- The first block of the chain in which a block stands. -/
def chainStart? (workspace : Workspace) (node : NodeId) : Option NodeId :=
  (workspace.lineage node).find? fun above => (workspace.previous? above).isNone

/-- The chains at the level of a chain, given by their first blocks in order: the chains in all
inputs of the same block, or those of all roots. -/
def siblings (workspace : Workspace) (start : NodeId) : List NodeId :=
  match workspace.parent? start with
  | none => workspace.roots
  | some link =>
    match workspace.block? link.node with
    | none => []
    | some holder => holder.inputs.map Connection.target

/-- A block stands in the last chain among its siblings. -/
def InLastChain (workspace : Workspace) (node : NodeId) : Prop :=
  ∃ start ∈ workspace.chainStart? node, (workspace.siblings start).getLast? = some start

/-- A block is the last block of the last chain among its siblings. -/
def IsLast (workspace : Workspace) (node : NodeId) : Prop :=
  workspace.view.next? node = none ∧ workspace.InLastChain node

instance (workspace : Workspace) (node : NodeId) : Decidable (workspace.InLastChain node) :=
  inferInstanceAs (Decidable (∃ start ∈ workspace.chainStart? node, _))

instance (workspace : Workspace) (node : NodeId) : Decidable (workspace.IsLast node) :=
  inferInstanceAs (Decidable (_ ∧ _))

/-- The blocks through whose inputs one comes to a block from its root, the outermost first. -/
def inputHolders (workspace : Workspace) (node : NodeId) : List NodeId :=
  ((workspace.lineage node).filterMap workspace.inputHolder?).reverse

/-- The input that holds a block, or the chain that starts with it. -/
def label? (workspace : Workspace) (node : NodeId) : Option String :=
  match workspace.parent? node with
  | some ⟨_, .value input⟩ | some ⟨_, .statement input⟩ => some input
  | _ => none

/-- The line that shows a block. -/
def lineOf (workspace : Workspace) (node : NodeId) : OutlineLine where
  rails := (workspace.inputHolders node).map fun holder => !decide (workspace.IsLast holder)
  isLast := workspace.IsLast node
  label := workspace.label? node
  node := node

variable {workspace : Workspace} {node child : NodeId} {block : Block}
variable {connection : Connection} {waiting order : List NodeId}

/-! ## From a block to what is attached to it -/

theorem chainStart?_of_previous?_eq_none (h : workspace.previous? node = none) :
    workspace.chainStart? node = some node := by
  rw [chainStart?, lineage, climb, List.find?_cons_of_pos (by rw [h]; rfl)]

section

variable (h : workspace.parent? child = some ⟨node, connection.via⟩)

include h

theorem previous?_of_via : workspace.previous? child = none := by
  rw [previous?, h]
  obtain ⟨input, kind, target⟩ := connection
  cases kind <;> rfl

theorem inputHolder?_of_via : workspace.inputHolder? child = some node := by
  rw [inputHolder?, h]
  obtain ⟨input, kind, target⟩ := connection
  cases kind <;> rfl

theorem label?_of_via : workspace.label? child = some connection.input := by
  rw [label?, h]
  obtain ⟨input, kind, target⟩ := connection
  cases kind <;> rfl

end

section

variable (hForest : workspace.Forest)

include hForest

theorem Forest.chainStart?_next (h : workspace.parent? child = some ⟨node, .next⟩) :
    workspace.chainStart? child = workspace.chainStart? node := by
  rw [chainStart?, hForest.lineage_eq h, List.find?_cons_of_neg (by rw [previous?, h]; simp)]
  rfl

theorem Forest.inputHolders_next (h : workspace.parent? child = some ⟨node, .next⟩) :
    workspace.inputHolders child = workspace.inputHolders node := by
  rw [inputHolders, hForest.lineage_eq h, List.filterMap_cons_none (by rw [inputHolder?, h])]
  rfl

theorem Forest.inputHolders_of_via (h : workspace.parent? child = some ⟨node, connection.via⟩) :
    workspace.inputHolders child = workspace.inputHolders node ++ [node] := by
  rw [inputHolders, hForest.lineage_eq h, List.filterMap_cons_some (inputHolder?_of_via h),
    List.reverse_cons]
  rfl

end

/-! ## The last chain -/

theorem inLastChain_iff_of_previous?_eq_none (h : workspace.previous? node = none) :
    workspace.InLastChain node ↔ (workspace.siblings node).getLast? = some node := by
  unfold InLastChain
  rw [chainStart?_of_previous?_eq_none h]
  simp

theorem isLast_iff (hBlock : workspace.block? node = some block) :
    workspace.IsLast node ↔ workspace.InLastChain node ∧ block.next? = none := by
  have hNext : workspace.view.next? node = block.next? := by
    show (workspace.block? node).bind Block.next? = block.next?
    rw [hBlock, Option.bind_some]
  rw [IsLast, hNext, and_comm]

namespace Forest

variable (hForest : workspace.Forest)

include hForest

theorem inLastChain_next (h : workspace.parent? child = some ⟨node, .next⟩) :
    workspace.InLastChain child ↔ workspace.InLastChain node := by
  unfold InLastChain
  rw [hForest.chainStart?_next h]

theorem inLastChain_of_input (hBlock : workspace.block? node = some block) {index : Nat}
    (hConnection : block.inputs[index]? = some connection) :
    workspace.InLastChain connection.target ↔ index + 1 = block.inputs.length := by
  have hParent := hForest.parent?_of_mem_inputs hBlock (List.mem_of_getElem? hConnection)
  have hSiblings : workspace.siblings connection.target = block.inputs.map Connection.target := by
    simp only [siblings, hParent, hBlock]
  rw [inLastChain_iff_of_previous?_eq_none (previous?_of_via hParent), hSiblings,
    getLast?_eq_some_iff_of_nodup (hForest.nodup_targets hBlock)
      (by rw [List.getElem?_map, hConnection]; rfl), List.length_map]

theorem inLastChain_of_root {index : Nat} (hRoot : workspace.roots[index]? = some node) :
    workspace.InLastChain node ↔ index + 1 = workspace.roots.length := by
  have hParent := (hForest.mem_roots_iff.mp (List.mem_of_getElem? hRoot)).2
  have hSiblings : workspace.siblings node = workspace.roots := by
    simp only [siblings, hParent]
  have hPrevious : workspace.previous? node = none := by
    rw [previous?, hParent]
  rw [inLastChain_iff_of_previous?_eq_none hPrevious, hSiblings,
    getLast?_eq_some_iff_of_nodup hForest.nodup_roots hRoot]

/-! ## Lines -/

/-- The lines of a chain show their blocks as they stand in the workspace. -/
theorem eq_lineOf_of_mem_chainLines {depth : Nat} {rails : List Bool} {closes : Bool}
    {label : Option String} (hNode : node < workspace.size)
    (hRails : rails = (workspace.lineOf node).rails)
    (hCloses : closes = true ↔ workspace.InLastChain node)
    (hLabel : label = workspace.label? node) {line : OutlineLine}
    (hLine : line ∈ workspace.chainLines depth rails closes label node) :
    line = workspace.lineOf line.node := by
  induction depth generalizing node rails closes label with
  | zero => cases hLine
  | succ depth ih =>
    obtain ⟨block, hBlock⟩ := exists_block?_iff.mpr hNode
    have hLast : (closes && block.next?.isNone) = decide (workspace.IsLast node) := by
      rw [Bool.eq_iff_iff, Bool.and_eq_true, hCloses, Option.isNone_iff_eq_none, decide_eq_true_eq,
        isLast_iff hBlock]
    rw [chainLines, hBlock] at hLine
    dsimp only at hLine
    rw [hLast] at hLine
    -- the chains in inputs get one more rail, and what comes next keeps those of the block
    rcases List.mem_cons.mp hLine with rfl | hLine
    · rw [hRails, hLabel]
      rfl
    · rcases List.mem_append.mp hLine with hLine | hLine
      · obtain ⟨⟨connection, index⟩, hMem, hLine⟩ := List.mem_flatMap.mp hLine
        have hConnection := List.mem_zipIdx_iff_getElem?.mp hMem
        have hParent := hForest.parent?_of_mem_inputs hBlock (List.mem_of_getElem? hConnection)
        refine ih (lt_size_of_parent? hParent) ?_ ?_ (label?_of_via hParent).symm hLine
        · rw [hRails, lineOf, lineOf, hForest.inputHolders_of_via hParent, List.map_append]
          rfl
        · rw [decide_eq_true_eq, hForest.inLastChain_of_input hBlock hConnection]
      · cases hNext : block.next? with
        | none => simp [hNext] at hLine
        | some next =>
          rw [hNext] at hLine
          have hParent : workspace.parent? next = some ⟨node, .next⟩ :=
            hForest.parent?_iff.mpr ⟨block, hBlock, hNext⟩
          refine ih (lt_size_of_parent? hParent) ?_ ?_ ?_ hLine
          · rw [hRails, lineOf, lineOf, hForest.inputHolders_next hParent]
          · rw [hCloses, hForest.inLastChain_next hParent]
          · rw [label?, hParent]

/-- Every line of an outline shows its block as it stands in the workspace. -/
theorem eq_lineOf_of_mem_outlineLines {line : OutlineLine} (hLine : line ∈ workspace.outlineLines) :
    line = workspace.lineOf line.node := by
  obtain ⟨⟨root, index⟩, hMem, hLine⟩ := List.mem_flatMap.mp hLine
  have hRoot := List.mem_zipIdx_iff_getElem?.mp hMem
  obtain ⟨hNode, hParent⟩ := hForest.mem_roots_iff.mp (List.mem_of_getElem? hRoot)
  refine hForest.eq_lineOf_of_mem_chainLines hNode ?_ ?_ ?_ hLine
  · rw [lineOf, inputHolders, lineage_of_root hParent,
      List.filterMap_cons_none (by rw [inputHolder?, hParent])]
    rfl
  · rw [decide_eq_true_eq, hForest.inLastChain_of_root hRoot]
  · rw [label?, hParent]

/-! ## The order of the lines -/

/-- The lines of a chain come in preorder if they go as deep as the workspace. -/
theorem preorder_chainLines {depth : Nat} {rails : List Bool} {closes : Bool}
    {label : Option String} (hNode : node < workspace.size)
    (hDepth : workspace.size < depth + workspace.depth node)
    (h : workspace.Preorder waiting order) :
    workspace.Preorder (node :: waiting)
      ((workspace.chainLines depth rails closes label node).map OutlineLine.node ++ order) := by
  induction depth generalizing node rails closes label waiting order with
  | zero =>
    have hLe := hForest.depth_le_size hNode
    omega
  | succ depth ih =>
    obtain ⟨block, hBlock⟩ := exists_block?_iff.mpr hNode
    -- blocks stand deeper by as much as the depth has fallen, so it is never used up
    have hBelow {child : NodeId} {via : Attachment}
        (hParent : workspace.parent? child = some ⟨node, via⟩) :
        child < workspace.size ∧ workspace.size < depth + workspace.depth child := by
      have hChild := hForest.depth_child hParent
      dsimp only at hChild
      exact ⟨lt_size_of_parent? hParent, by omega⟩
    rw [chainLines, hBlock]
    simp only [List.map_cons, List.map_append, List.map_flatMap, List.cons_append,
      List.append_assoc]
    refine .visit hBlock ?_
    rw [Block.children, List.append_assoc]
    refine Preorder.flatMap 0 ?_ fun connection hMem index waiting order h => ?_
    · cases hNext : block.next? with
      | none => simpa using h
      | some next =>
        have hParent : workspace.parent? next = some ⟨node, .next⟩ :=
          hForest.parent?_iff.mpr ⟨block, hBlock, hNext⟩
        obtain ⟨hNode, hDepth⟩ := hBelow hParent
        exact ih hNode hDepth h
    · obtain ⟨hNode, hDepth⟩ := hBelow (hForest.parent?_of_mem_inputs hBlock hMem)
      exact ih hNode hDepth h

/-- **The lines of an outline come in preorder.** -/
theorem preorder_outlineLines :
    workspace.Preorder workspace.roots (workspace.outlineLines.map OutlineLine.node) := by
  have hLines : workspace.Preorder (workspace.roots.map id ++ [])
      (workspace.outlineLines.map OutlineLine.node ++ []) := by
    rw [outlineLines, List.map_flatMap]
    refine Preorder.flatMap 0 .done fun root hRoot index waiting order h => ?_
    obtain ⟨hNode, -⟩ := hForest.mem_roots_iff.mp hRoot
    exact hForest.preorder_chainLines hNode (by omega) h
  simpa using hLines

end Forest

end RuleBlocks.Workspace
