import RuleBlocks.Proofs.Blueprint.CarryOut
import RuleBlocks.Proofs.Blueprint.Drawn
import RuleBlocks.Proofs.Workspace.Run

/-!
# Inserting chains

A plan leads from a forest to a forest, whether or not it is carried out to its end
(`Forest.carryOut`). Chains that are inserted without being attached to anything extend the forest
by their layouts, one after the other, and nothing is refused (`Forest.insertChain_detached`,
`Forest.insertChains_eq`). So they hang from nothing in the extended forest (`BlocksAt.chainsHang`).
-/

namespace RuleBlocks

namespace Blueprint

/-- The blocks of chains that are attached to nothing. -/
def chainsLayout (free : NodeId) : List (List Blueprint) → List Block
  | [] => []
  | chain :: chains => chainLayout free none chain ++ chainsLayout (free + chainSize chain) chains

/-- The numbers of the first blocks of chains. -/
def chainHeads (free : NodeId) : List (List Blueprint) → List NodeId
  | [] => []
  | chain :: chains => (chainNodes free chain).take 1 ++ chainHeads (free + chainSize chain) chains

end Blueprint

namespace Workspace

open Blueprint

variable {workspace : Workspace} {free : Nat} {chain : List Blueprint}
variable {chains : List (List Blueprint)} {blocks : List Block}

theorem Forest.carryOut (hForest : workspace.Forest) (steps : List Step) :
    (EditableGraph.carryOut workspace steps).1.Forest := by
  induction steps generalizing workspace with
  | nil => exact hForest
  | cons step steps ih =>
    have hEdit : (EditableGraph.edit workspace step.edit).1.Forest := hForest.edit step.edit
    rw [EditableGraph.carryOut]
    cases hResult : EditableGraph.edit workspace step.edit with
    | mk changed result =>
      rw [hResult] at hEdit
      cases result with
      | ok _ => exact ih hEdit
      | error _ => exact hEdit

theorem Forest.closed (hForest : workspace.Forest) : workspace.Closed :=
  fun _ _ hBlock _ hLink => hForest.parent_lt_size ((parent?_of_block? hBlock).trans hLink)

/-- A chain that is put into a free place changes the block that takes it, and the blocks of its
layout come after the old ones. -/
theorem Forest.insertChain_of_hasRoom (hForest : workspace.Forest) (place : Place)
    (hRoom : workspace.HasRoom place.link?)
    (hEvery : chainEvery (fun _ inputs => inputs.Nodup) chain) :
    EditableGraph.insertChain workspace place chain =
      ((if chain = [] then workspace else workspace.receive workspace.size place.link?).extend
          (chainLayout workspace.size place.link? chain),
        .ok (chainNodes workspace.size chain).getLast?) := by
  have hCarryOut := carryOut_chainSteps chain hEvery workspace hForest.closed workspace.size rfl
    place.link? hRoom
  have hSize : (EditableGraph.view workspace).size = workspace.size := size_view
  rw [EditableGraph.insertChain, hSize]
  simp only [hCarryOut]
  rfl

/-- A chain that is attached to nothing extends a forest by its layout. -/
theorem Forest.insertChain_detached (hForest : workspace.Forest)
    (hEvery : chainEvery (fun _ inputs => inputs.Nodup) chain) :
    EditableGraph.insertChain workspace .detached chain =
      (workspace.extend (chainLayout workspace.size none chain),
        .ok (chainNodes workspace.size chain).getLast?) := by
  have hReceive : (if chain = [] then workspace else workspace.receive workspace.size none) =
      workspace := ite_self workspace
  have hInsert := hForest.insertChain_of_hasRoom .detached trivial hEvery
  rwa [Place.link?, hReceive] at hInsert

theorem Forest.extend_chainLayout (hForest : workspace.Forest)
    (hEvery : chainEvery (fun _ inputs => inputs.Nodup) chain) :
    (workspace.extend (chainLayout workspace.size none chain)).Forest := by
  have hInserted : (EditableGraph.insertChain workspace .detached chain).1.Forest :=
    hForest.carryOut _
  rwa [hForest.insertChain_detached hEvery] at hInserted

/-- Chains that are attached to nothing extend a forest by their layouts. -/
theorem Forest.insertChains_eq (hForest : workspace.Forest)
    (hEvery : ∀ chain ∈ chains, chainEvery (fun _ inputs => inputs.Nodup) chain) :
    EditableGraph.insertChains workspace chains =
        (workspace.extend (chainsLayout workspace.size chains),
          .ok (chainHeads workspace.size chains)) ∧
      (workspace.extend (chainsLayout workspace.size chains)).Forest := by
  induction chains generalizing workspace with
  | nil =>
    rw [chainsLayout, extend_nil]
    exact ⟨rfl, hForest⟩
  | cons chain chains ih =>
    have hFirst := hEvery chain List.mem_cons_self
    have hSize : (workspace.extend (chainLayout workspace.size none chain)).size =
        workspace.size + chainSize chain := by rw [size_extend, length_chainLayout]
    obtain ⟨hRest, hRestForest⟩ := ih (hForest.extend_chainLayout hFirst)
      fun other hOther => hEvery other (List.mem_cons_of_mem _ hOther)
    rw [hSize, extend_extend] at hRest hRestForest
    refine ⟨?_, hRestForest⟩
    have hView : (EditableGraph.view workspace).size = workspace.size := size_view
    rw [EditableGraph.insertChains, hForest.insertChain_detached hFirst]
    simp only [hRest, hView]
    rfl

/-- A block that is attached to nothing extends a forest by its layout. -/
theorem Forest.insertBlock_eq (hForest : workspace.Forest) {blueprint : Blueprint}
    (hDistinct : blueprint.Distinct) :
    EditableGraph.insertBlock workspace blueprint =
        (workspace.extend (layout workspace.size none none blueprint), .ok workspace.size) ∧
      (workspace.extend (layout workspace.size none none blueprint)).Forest := by
  have hCarryOut := carryOut_steps blueprint hDistinct workspace hForest.closed workspace.size rfl
  have hSize : (EditableGraph.view workspace).size = workspace.size := size_view
  have hForest' := hForest.carryOut (blueprint.steps workspace.size)
  rw [hCarryOut] at hForest'
  refine ⟨?_, hForest'⟩
  rw [EditableGraph.insertBlock, hSize]
  simp only [hCarryOut]
  rfl

/-! ## What is drawn -/

/-- The chains of a list hang from nothing, one after the other. -/
def ChainsHang (workspace : Workspace) : Nat → List (List Blueprint) → Prop
  | _, [] => True
  | free, chain :: chains =>
    workspace.Hangs free none chain ∧ workspace.ChainsHang (free + chainSize chain) chains

theorem blocksAt_extend : (workspace.extend blocks).BlocksAt workspace.size blocks := by
  intro index _
  rw [block?_extend, if_neg (Nat.not_lt.mpr (Nat.le_add_right _ _)), Nat.add_sub_cancel_left]

theorem drawn_extend {blueprint : Blueprint} (hDistinct : blueprint.Distinct) :
    (workspace.extend (layout workspace.size none none blueprint)).Drawn workspace.size blueprint :=
  ⟨hDistinct, none, none, blocksAt_extend⟩

/-- The blocks that come after a place has received one of them stand after the old ones. -/
theorem blocksAt_receive_extend {child : NodeId} {link? : Option ParentLink} :
    ((workspace.receive child link?).extend blocks).BlocksAt workspace.size blocks := by
  have hBlocks : ((workspace.receive child link?).extend blocks).BlocksAt
      (workspace.receive child link?).size blocks := blocksAt_extend
  rwa [size_receive] at hBlocks

theorem block?_receive_extend {child node : NodeId} {link? : Option ParentLink}
    (hNode : node < workspace.size) :
    ((workspace.receive child link?).extend blocks).block? node =
      (workspace.receive child link?).block? node :=
  block?_extend_of_lt (by rwa [size_receive])

theorem BlocksAt.chainsHang (hBlocks : workspace.BlocksAt free (chainsLayout free chains))
    (hEvery : ∀ chain ∈ chains, chainEvery (fun _ inputs => inputs.Nodup) chain) :
    workspace.ChainsHang free chains := by
  induction chains generalizing free with
  | nil => trivial
  | cons chain chains ih =>
    rw [chainsLayout] at hBlocks
    have hRest := hBlocks.append_right
    rw [length_chainLayout] at hRest
    exact ⟨⟨hEvery chain List.mem_cons_self, hBlocks.append_left⟩,
      ih hRest fun other hOther => hEvery other (List.mem_cons_of_mem _ hOther)⟩

/-- Blocks that stand in a forest are found by the numbers that they carry. -/
theorem Forest.block?_number (hForest : workspace.Forest) {block : Block}
    (hBlocks : workspace.BlocksAt free blocks) (hBlock : block ∈ blocks) :
    workspace.block? block.number = some block := by
  obtain ⟨index, hIndex⟩ := List.mem_iff_getElem?.mp hBlock
  have hLength : index < blocks.length := (List.getElem?_eq_some_iff.mp hIndex).1
  have hFound := (hBlocks index hLength).trans hIndex
  rw [hForest.numbered _ _ hFound, hFound]

/-- The members of a chain that hangs from nothing have no block around them. -/
theorem Hangs.enclosing?_eq_none (hForest : workspace.Forest)
    (hHangs : workspace.Hangs free none chain) :
    ∀ member ∈ chainNodes free chain, workspace.enclosing? member = none :=
  hHangs.forall_mem (fun _ hParent => enclosing?_of_root hParent) fun _ _ hPrevious hParent =>
    (hForest.enclosing?_eq hParent).trans hPrevious

/-! ## Into the empty workspace -/

theorem nodes_extend_empty (blocks : List Block) :
    (empty.extend blocks).nodes = blocks.map Block.number := by
  simp [nodes, extend, empty]

theorem roots_extend_empty (blocks : List Block) :
    (empty.extend blocks).roots = rootsOf blocks := by
  simp [roots, rootsOf, extend, empty]

theorem rootsOf_chainsLayout (free : Nat) (chains : List (List Blueprint)) :
    rootsOf (chainsLayout free chains) = chainHeads free chains := by
  induction chains generalizing free with
  | nil => rfl
  | cons chain chains ih =>
    rw [chainsLayout, rootsOf_append, rootsOf_chainLayout, ih, chainHeads]

theorem head?_roots_extend_empty (chain : List Blueprint) :
    (empty.extend (chainLayout 0 none chain)).roots.head? = (chainNodes 0 chain).head? := by
  rw [roots_extend_empty, rootsOf_chainLayout, List.head?_take]
  rfl

end Workspace

end RuleBlocks
