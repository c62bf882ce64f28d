import RuleBlocks.Proofs.Basic
import RuleBlocks.Proofs.Workspace.Change
import Mathlib.Logic.Relation

/-!
# Forests

`Forest` says that the links of a workspace are sound: both views of the links agree, no two
connections of a block share an input, and no block stands above itself.

In a forest the way up from a block ends before the workspace runs out of blocks. So the bounded
climb of `lineage` is the whole way up (`mem_lineage_iff`), it can be taken step by step
(`lineage_eq`, `enclosing?_eq`), and there is just one root at its end (`exists_unique_root`).
-/

namespace RuleBlocks.Workspace

open Relation

/-- The links of a workspace are sound. -/
structure Forest (workspace : Workspace) : Prop where
  /-- Blocks carry their own numbers. -/
  numbered : workspace.EveryBlock fun node block => block.number = node
  /-- What a block is attached to is just what holds it. -/
  parent?_iff : ∀ {link child}, workspace.parent? child = some link ↔ workspace.Holds link child
  /-- No two connections of a block have the same input. -/
  distinct : workspace.EveryBlock fun _ block => block.DistinctInputs
  /-- No block stands above itself. -/
  acyclic : ∀ node, ¬ TransGen workspace.IsParent node node

variable {workspace : Workspace} {node child above parent : NodeId} {link : ParentLink}

/-! ## Single links -/

theorem isParent_unique {first second : NodeId} (hFirst : workspace.IsParent first child)
    (hSecond : workspace.IsParent second child) : first = second := by
  obtain ⟨link, hLink, rfl⟩ := hFirst
  obtain ⟨link', hLink', rfl⟩ := hSecond
  rw [hLink] at hLink'
  cases hLink'
  rfl

theorem isParent_of_parent? (h : workspace.parent? child = some link) :
    workspace.IsParent link.node child := ⟨link, h, rfl⟩

theorem lt_size_of_parent? (h : workspace.parent? node = some link) : node < workspace.size := by
  obtain ⟨block, hBlock, -⟩ := exists_block?_of_parent? h
  exact lt_size_of_block? hBlock

theorem lt_size_of_below (hNode : node < workspace.size)
    (h : ReflTransGen workspace.IsParent node child) : child < workspace.size := by
  rcases h.cases_tail with rfl | ⟨parent, -, link, hLink, -⟩
  · exact hNode
  · exact lt_size_of_parent? hLink

theorem Forest.parent_lt_size (hForest : workspace.Forest)
    (h : workspace.parent? child = some link) : link.node < workspace.size := by
  obtain ⟨block, hBlock, -⟩ := hForest.parent?_iff.mp h
  exact lt_size_of_block? hBlock

theorem Forest.child_lt_size (hForest : workspace.Forest) (h : workspace.Holds link child) :
    child < workspace.size := lt_size_of_parent? (hForest.parent?_iff.mpr h)

theorem Forest.isParent_lt_size (hForest : workspace.Forest)
    (h : workspace.IsParent parent child) : parent < workspace.size := by
  obtain ⟨link, hLink, rfl⟩ := h
  exact hForest.parent_lt_size hLink

/-- No two blocks stand in the same place. -/
theorem Forest.parent?_injective (hForest : workspace.Forest) {other : NodeId}
    (hChild : workspace.parent? child = some link) (hOther : workspace.parent? other = some link) :
    child = other := by
  obtain ⟨block, hBlock, hHolds⟩ := hForest.parent?_iff.mp hChild
  obtain ⟨block', hBlock', hHolds'⟩ := hForest.parent?_iff.mp hOther
  rw [hBlock] at hBlock'
  cases hBlock'
  exact (hForest.distinct _ _ hBlock).holds_unique hHolds hHolds'

@[simp] theorem size_view : workspace.view.size = workspace.size := by
  simp [View.size, view, nodes, size]

theorem Forest.nodes_eq (hForest : workspace.Forest) :
    workspace.nodes = List.range workspace.size := by
  apply List.ext_getElem?
  intro node
  unfold nodes
  rw [List.getElem?_map, Array.getElem?_toList]
  by_cases hLt : node < workspace.size
  · obtain ⟨block, hBlock⟩ := exists_block?_iff.mpr hLt
    rw [show workspace.blocks[node]? = some block from hBlock, List.getElem?_range hLt]
    exact congrArg some (hForest.numbered _ _ hBlock)
  · rw [Array.getElem?_eq_none (Nat.not_lt.mp hLt), List.getElem?_eq_none (by simpa using hLt)]
    rfl

theorem Forest.mem_roots_iff (hForest : workspace.Forest) :
    node ∈ workspace.roots ↔ node < workspace.size ∧ workspace.parent? node = none := by
  unfold roots
  simp only [List.mem_map, List.mem_filter, Option.isNone_iff_eq_none]
  constructor
  · rintro ⟨block, ⟨hMem, hFree⟩, rfl⟩
    obtain ⟨node, hBlock⟩ := List.mem_iff_getElem?.mp hMem
    rw [Array.getElem?_toList] at hBlock
    have hBlock : workspace.block? node = some block := hBlock
    rw [hForest.numbered _ _ hBlock, parent?_of_block? hBlock]
    exact ⟨lt_size_of_block? hBlock, hFree⟩
  · rintro ⟨hLt, hFree⟩
    obtain ⟨block, hBlock⟩ := exists_block?_iff.mpr hLt
    rw [parent?_of_block? hBlock] at hFree
    refine ⟨block, ⟨List.mem_iff_getElem?.mpr ⟨node, ?_⟩, hFree⟩, hForest.numbered _ _ hBlock⟩
    rw [Array.getElem?_toList]
    exact hBlock

/-! ## The way up -/

theorem reaches_of_mem_climb {limit : Nat} (h : above ∈ workspace.climb limit node) :
    ReflTransGen workspace.IsParent above node := by
  induction limit generalizing node with
  | zero => cases h
  | succ limit ih =>
    rw [climb] at h
    rcases List.mem_cons.mp h with rfl | h
    · exact .refl
    · cases hParent : workspace.parent? node with
      | none => simp [hParent] at h
      | some link =>
        simp only [hParent] at h
        exact (ih h).tail (isParent_of_parent? hParent)

/-- A climb that has not used up its limit has found every block above. -/
theorem mem_climb_of_reaches {limit : Nat} (hLength : (workspace.climb limit node).length < limit)
    (h : ReflTransGen workspace.IsParent above node) : above ∈ workspace.climb limit node := by
  induction limit generalizing node with
  | zero => omega
  | succ limit ih =>
    rw [climb] at hLength ⊢
    rcases h.cases_tail with hEq | ⟨parent, hAbove, link, hLink, rfl⟩
    · exact hEq ▸ List.mem_cons_self
    · simp only [hLink, List.length_cons] at hLength ⊢
      exact List.mem_cons_of_mem _ (ih (by omega) hAbove)

theorem climb_of_length_lt {limit more : Nat}
    (hLength : (workspace.climb limit node).length < limit) (hMore : limit ≤ more) :
    workspace.climb more node = workspace.climb limit node := by
  induction limit generalizing node more with
  | zero => omega
  | succ limit ih =>
    obtain ⟨more, rfl⟩ : ∃ rest, more = rest + 1 := ⟨more - 1, by omega⟩
    rw [climb] at hLength ⊢
    rw [climb]
    cases hParent : workspace.parent? node with
    | none => rfl
    | some link =>
      simp only [hParent, List.length_cons] at hLength ⊢
      rw [ih (by omega) (by omega)]

namespace Forest

theorem nodup_climb (hForest : workspace.Forest) (limit : Nat) (node : NodeId) :
    (workspace.climb limit node).Nodup := by
  induction limit generalizing node with
  | zero => exact List.nodup_nil
  | succ limit ih =>
    rw [climb]
    cases hParent : workspace.parent? node with
    | none => simp
    | some link =>
      refine List.nodup_cons.mpr ⟨fun hMem => ?_, ih link.node⟩
      exact hForest.acyclic node
        (TransGen.tail' (reaches_of_mem_climb hMem) (isParent_of_parent? hParent))

theorem lt_size_of_mem_climb (hForest : workspace.Forest) {limit : Nat}
    (hNode : node < workspace.size) (h : above ∈ workspace.climb limit node) :
    above < workspace.size := by
  rcases (reaches_of_mem_climb h).cases_head with rfl | ⟨below, hParent, -⟩
  · exact hNode
  · exact hForest.isParent_lt_size hParent

/-- A climb never meets a block twice, so it meets no more blocks than there are. -/
theorem length_climb_le (hForest : workspace.Forest) (limit : Nat) (hNode : node < workspace.size) :
    (workspace.climb limit node).length ≤ workspace.size :=
  length_le_of_nodup (hForest.nodup_climb limit node) fun _ => hForest.lt_size_of_mem_climb hNode

theorem length_lineage_lt (hForest : workspace.Forest) (node : NodeId) :
    (workspace.lineage node).length < workspace.size + 1 ∨ workspace.parent? node = none := by
  by_cases hNode : node < workspace.size
  · exact Or.inl (Nat.lt_succ_of_le (hForest.length_climb_le _ hNode))
  · refine Or.inr (Option.eq_none_iff_forall_ne_some.mpr fun link hLink => hNode ?_)
    exact lt_size_of_parent? hLink

/-- The lineage of a block is the whole way up from it. -/
theorem mem_lineage_iff (hForest : workspace.Forest) :
    above ∈ workspace.lineage node ↔ ReflTransGen workspace.IsParent above node := by
  refine ⟨reaches_of_mem_climb, fun h => ?_⟩
  rcases hForest.length_lineage_lt node with hLength | hRoot
  · exact mem_climb_of_reaches hLength h
  · rcases h.cases_tail with hEq | ⟨parent, -, link, hLink, -⟩
    · exact hEq ▸ List.mem_cons_self
    · rw [hRoot] at hLink
      cases hLink

/-- The lineage of a block goes on with the lineage of the block that it is attached to. -/
theorem lineage_eq (hForest : workspace.Forest) (h : workspace.parent? node = some link) :
    workspace.lineage node = node :: workspace.lineage link.node := by
  have hLength := hForest.length_climb_le (workspace.size + 1) (lt_size_of_parent? h)
  unfold lineage
  rw [climb] at hLength ⊢
  simp only [h, List.length_cons] at hLength ⊢
  have hMore : workspace.climb (workspace.size + 1) link.node =
      workspace.climb workspace.size link.node := climb_of_length_lt (by omega) (by omega)
  rw [hMore]

end Forest

theorem lineage_of_root (h : workspace.parent? node = none) : workspace.lineage node = [node] := by
  unfold lineage
  rw [climb]
  simp only [h]

theorem enclosing?_of_root (h : workspace.parent? node = none) :
    workspace.enclosing? node = none := by
  unfold enclosing?
  rw [lineage_of_root h]
  simp [chainHolder?, h]

/-- How many blocks there are on the way up from a block, itself counted. -/
def depth (workspace : Workspace) (node : NodeId) : Nat := (workspace.lineage node).length

namespace Forest

theorem depth_child (hForest : workspace.Forest) (h : workspace.parent? child = some link) :
    workspace.depth child = workspace.depth link.node + 1 := by
  unfold depth
  rw [hForest.lineage_eq h, List.length_cons]

theorem depth_le_size (hForest : workspace.Forest) (hNode : node < workspace.size) :
    workspace.depth node ≤ workspace.size := hForest.length_climb_le _ hNode

/-- What holds of the roots, and of a block if it holds of the block that it is attached to, holds
of every block. -/
theorem upward (hForest : workspace.Forest) {motive : NodeId → Prop}
    (root : ∀ node, workspace.parent? node = none → motive node)
    (child : ∀ node link, workspace.parent? node = some link → motive link.node → motive node)
    (node : NodeId) : motive node := by
  generalize hDepth : workspace.depth node = depth
  induction depth using Nat.strongRecOn generalizing node with
  | ind depth ih =>
    cases hParent : workspace.parent? node with
    | none => exact root node hParent
    | some link =>
      have hBelow := hForest.depth_child hParent
      exact child node link hParent (ih _ (by omega) link.node rfl)

/-- Every block lies below exactly one root. -/
theorem exists_unique_root (hForest : workspace.Forest) (hNode : node < workspace.size) :
    ∃! root, root ∈ workspace.roots ∧ ReflTransGen workspace.IsParent root node := by
  simp only [hForest.mem_roots_iff]
  induction node using hForest.upward with
  | root node hParent =>
    refine ⟨node, ⟨⟨hNode, hParent⟩, .refl⟩, ?_⟩
    rintro root ⟨-, hReach⟩
    rcases hReach.cases_tail with hEq | ⟨parent, -, link, hLink, -⟩
    · exact hEq.symm
    · rw [hParent] at hLink
      cases hLink
  | child node link hParent ih =>
    obtain ⟨root, ⟨hRoot, hReach⟩, hUnique⟩ := ih (hForest.parent_lt_size hParent)
    refine ⟨root, ⟨hRoot, hReach.tail (isParent_of_parent? hParent)⟩, ?_⟩
    rintro other ⟨hOther, hOtherReach⟩
    refine hUnique other ⟨hOther, ?_⟩
    rcases hOtherReach.cases_tail with hEq | ⟨parent, hAbove, hIsParent⟩
    · rw [hEq, hOther.2] at hParent
      cases hParent
    · exact isParent_unique hIsParent (isParent_of_parent? hParent) ▸ hAbove

/-! ## What stands around a block -/

/-- A block in a chain or a socket is enclosed by what encloses the block that it is attached to,
unless it starts a chain there. -/
theorem enclosing?_eq (hForest : workspace.Forest) (h : workspace.parent? node = some link) :
    workspace.enclosing? node =
      match link.via with
      | .statement _ => some link.node
      | .value _ | .next => workspace.enclosing? link.node := by
  obtain ⟨parent, via⟩ := link
  unfold enclosing?
  rw [hForest.lineage_eq h, List.findSome?_cons, chainHolder?, h]
  cases via <;> rfl

end Forest

end RuleBlocks.Workspace
