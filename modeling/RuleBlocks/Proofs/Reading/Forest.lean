import RuleBlocks.Proofs.Graph.Chain
import RuleBlocks.Proofs.Reading.Ends
import RuleBlocks.Proofs.Scope.Forest

/-!
# Reading a forest comes to an end

The members of the chains in the inputs of a block stand deeper than the block itself. So no
statement leads back to itself, and every reading comes to an end (`finished_readChain`,
`finished_readPhases`). A host that keeps the workspace may say otherwise which block is next; then
a reading ends unless it meets a statement that leads back to itself (`Workspace.run_finished_iff`).
-/

namespace RuleBlocks

namespace Workspace

variable {workspace : Workspace} {node child first member : NodeId} {input : String}

theorem Forest.complete_view (hForest : workspace.Forest) : workspace.view.Complete := by
  intro node hTag
  obtain ⟨block, hBlock⟩ := Option.isSome_iff_exists.mp (Option.isSome_map ▸ hTag)
  have hNode : node ∈ workspace.nodes := by
    rw [hForest.nodes_eq]
    exact List.mem_range.mpr (lt_size_of_block? hBlock)
  exact hNode

/-- What stands in an input is attached there, as a value or as the start of a chain. -/
theorem Forest.parent?_of_input? (hForest : workspace.Forest)
    (h : workspace.view.input? node input = some child) :
    workspace.parent? child = some ⟨node, .value input⟩ ∨
      workspace.parent? child = some ⟨node, .statement input⟩ := by
  obtain ⟨block, hBlock, hTarget⟩ := Option.bind_eq_some_iff.mp h
  obtain ⟨⟨name, kind, target⟩, hFound, rfl⟩ := Option.map_eq_some_iff.mp hTarget
  obtain rfl : name = input := by simpa using List.find?_some hFound
  have hMem := List.mem_of_find?_eq_some hFound
  cases kind with
  | value => exact Or.inl (hForest.parent?_iff.mpr ⟨block, hBlock, hMem⟩)
  | statement => exact Or.inr (hForest.parent?_iff.mpr ⟨block, hBlock, hMem⟩)

theorem Forest.isParent_of_input? (hForest : workspace.Forest)
    (h : workspace.view.input? node input = some child) : workspace.IsParent node child :=
  (hForest.parent?_of_input? h).elim isParent_of_parent? isParent_of_parent?

theorem Forest.parent?_of_next? (hForest : workspace.Forest)
    (h : workspace.view.next? node = some child) :
    workspace.parent? child = some ⟨node, .next⟩ := by
  obtain ⟨block, hBlock, hNext⟩ := Option.bind_eq_some_iff.mp h
  exact hForest.parent?_iff.mpr ⟨block, hBlock, hNext⟩

/-- The members of a chain stand below its first block. -/
theorem Forest.depth_le_of_inChainFrom (hForest : workspace.Forest)
    (hFirst : first < workspace.size) (h : workspace.view.InChainFrom first member) :
    workspace.depth first ≤ workspace.depth member ∧ member < workspace.size := by
  induction h with
  | refl => exact ⟨Nat.le_refl _, hFirst⟩
  | tail _ hNext ih =>
    have hParent := hForest.parent?_of_next? hNext
    have hDepth := hForest.depth_child hParent
    dsimp only at hDepth
    exact ⟨by omega, lt_size_of_parent? hParent⟩

theorem Forest.depth_le_of_mem_chain (hForest : workspace.Forest) {limit : Nat}
    (hFirst : first < workspace.size) (h : member ∈ workspace.view.chain limit (some first)) :
    workspace.depth first ≤ workspace.depth member ∧ member < workspace.size :=
  hForest.depth_le_of_inChainFrom hFirst (View.inChainFrom_of_mem_chain h)

end Workspace

namespace Reader

open Reading

variable {reader : Reader} {workspace : Workspace}

/-- Whatever else a graph answers, the members of chains stand deeper than the block that holds them
if its inputs and next blocks are those of a forest. -/
theorem falls_of_links (hForest : workspace.Forest)
    (hInput : reader.view.input? = workspace.view.input?)
    (hNext : reader.view.next? = workspace.view.next?) :
    reader.Falls fun node => workspace.size - workspace.depth node := by
  intro node input member hMember
  obtain ⟨child, hChild, hMember⟩ := View.exists_first_of_mem_chain hMember
  rw [hInput] at hChild
  have hMember : workspace.view.InChainFrom child member := by
    unfold View.InChainFrom View.IsNext at hMember ⊢
    rwa [hNext] at hMember
  obtain ⟨link, hParent, hNode⟩ := hForest.isParent_of_input? hChild
  have hDepth := hForest.depth_child hParent
  rw [hNode] at hDepth
  obtain ⟨hLe, hSize⟩ :=
    hForest.depth_le_of_inChainFrom (Workspace.lt_size_of_parent? hParent) hMember
  have hMemberDepth := hForest.depth_le_size hSize
  dsimp only
  omega

variable (hForest : workspace.Forest) (hView : reader.view = workspace.view)

include hForest hView

/-- In a forest no statement leads back to itself. -/
theorem not_runsInCircle_of_forest (node : NodeId) : ¬ reader.RunsInCircle node :=
  not_runsInCircle_of_falls (falls_of_links hForest (by rw [hView]) (by rw [hView]))

/-- **Reading a chain of a forest comes to an end.** -/
theorem finished_readChain (first : Option NodeId) : (reader.readChain first).finished = true := by
  have hComplete : reader.view.Complete := hView ▸ hForest.complete_view
  exact (finished_readChain_iff hComplete).mpr fun member _ =>
    not_runsInCircle_of_forest hForest hView member

/-- Reading a block of a forest comes to an end. -/
theorem finished_readStatement (node : NodeId) : (reader.readStatement node).finished = true := by
  have hComplete : reader.view.Complete := hView ▸ hForest.complete_view
  exact (finished_readStatement_iff hComplete).mpr (not_runsInCircle_of_forest hForest hView node)

/-- **Reading the phases of a forest comes to an end.** -/
theorem finished_readPhases : reader.readPhases.finished = true :=
  finished_readPhases_iff.mpr fun _ _ _ => finished_readChain hForest hView _

end Reader

/-! ## A host with its own answer to the question for the next block -/

namespace Workspace

/-- **A reading goes on for ever just if it meets a circle.** A host may keep a workspace and answer
the question for the next block in any way. Reading a chain, a block or the phases then comes to an
end just if no statement that is read leads back to itself; and where one does, no depth is enough
to follow it to its end. -/
theorem run_finished_iff (commands : List Command) (next? : NodeId → Option NodeId)
    (vocabulary : Vocabulary) (options : ReadOptions) :
    let reader := Reader.ofView { (run commands).view with next? := next? } vocabulary options
    (∀ first, (reader.readChain first).finished = true ↔
        ∀ member ∈ reader.chain first, ¬ reader.RunsInCircle member) ∧
      (∀ node, (reader.readStatement node).finished = true ↔ ¬ reader.RunsInCircle node) ∧
      (reader.readPhases.finished = true ↔
        ∀ hat ∈ (run commands).nodes, reader.isTopHat hat = true →
          ∀ member ∈ reader.chain (next? hat), ¬ reader.RunsInCircle member) ∧
      ∀ node, reader.RunsInCircle node →
        ∀ depth path, (reader.statement depth ⟨node, path⟩).finished = false := by
  intro reader
  have hComplete : reader.view.Complete := (Forest.run commands).complete_view
  refine ⟨fun first => Reader.finished_readChain_iff hComplete,
    fun node => Reader.finished_readStatement_iff hComplete, ?_, fun node hCircle depth path => ?_⟩
  · rw [Reader.finished_readPhases_iff]
    exact forall₂_congr fun hat _ => forall_congr' fun _ =>
      Reader.finished_readChain_iff hComplete
  · rw [← Bool.not_eq_true, Reader.finished_statement_iff, not_not]
    exact hCircle.goesOn depth

/-- A loop over one phase. -/
def loopOverPhase : List Command :=
  [.edit (.create BlockKind.repeatWhile.tag), .edit (.create BlockKind.enterPhase.tag),
    .edit (.setField 1 Field.phaseName "draw"), .edit (.create BlockKind.booleanLiteral.tag),
    .edit (.setField 2 Field.boolean "TRUE"), .edit (.attach ⟨0, .value Input.condition⟩ 2),
    .edit (.attach ⟨0, .statement Input.body⟩ 1)]

/-- The host says that the loop comes after the phase in it. -/
theorem loopOverPhase_unfinished :
    let host := { (run loopOverPhase).view with
      next? := fun node => if node = 1 then some 0 else none }
    let reader := Reader.ofView host .canonical .unchecked
    (reader.readChain (some 0)).finished = false ∧ (reader.readStatement 0).finished = false ∧
      ∀ depth, (reader.statement depth ⟨0, []⟩).finished = false := by
  intro host reader
  have hKind : reader.view.kind? reader.vocabulary 0 = some .repeatWhile := by decide
  have hMember : 0 ∈ reader.chain (reader.view.input? 0 Input.body) := by decide
  have hStep : reader.LeadsInto 0 0 := .body hKind (by decide) hMember
  have hCircle : reader.RunsInCircle 0 := ⟨0, .refl, .single hStep⟩
  have hUnfinished : ∀ depth, (reader.statement depth ⟨0, []⟩).finished = false := by
    intro depth
    rw [← Bool.not_eq_true, Reader.finished_statement_iff, not_not]
    exact hCircle.goesOn depth
  refine ⟨?_, hUnfinished _, hUnfinished⟩
  rw [← Bool.not_eq_true, Reader.readChain, Reader.finished_chainStatement_iff]
  intro hEnds
  have hEnd := hEnds 0 (by decide)
  rw [hUnfinished] at hEnd
  cases hEnd

end Workspace

end RuleBlocks
