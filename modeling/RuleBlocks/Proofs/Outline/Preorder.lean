import RuleBlocks.Proofs.Scope.Around

/-!
# The preorder of a workspace

Going through a workspace in preorder one visits a block, then what stands in its inputs, in the
order in which they were connected and each with its whole chain, and then the next block of its
chain (`Preorder`). The blocks that are still to be visited wait in a list; in the beginning these
are the roots.

In a forest a walk in preorder visits every block just once (`Forest.perm_preorder`). It comes to
all blocks because every block lies below a root, and it comes to none of them twice because blocks
that wait have nothing below them in common.
-/

namespace RuleBlocks

open Relation

/-- How a connection attaches its target. -/
def Connection.via (connection : Connection) : Attachment :=
  match connection.kind with
  | .value => .value connection.input
  | .statement => .statement connection.input

theorem Connection.input_eq_of_via_eq {first second : Connection} (h : first.via = second.via) :
    first.input = second.input := by
  obtain ⟨input, kind, target⟩ := first
  obtain ⟨otherInput, otherKind, otherTarget⟩ := second
  cases kind <;> cases otherKind <;> cases h <;> rfl

theorem Connection.via_ne_next (connection : Connection) : connection.via ≠ .next := by
  unfold via
  split <;> nofun

namespace Block

/-- What is visited after a block: what stands in its inputs, and the next block. -/
def children (block : Block) : List NodeId :=
  block.inputs.map Connection.target ++ block.next?.toList

variable {block : Block} {child : NodeId}

theorem mem_children_iff : child ∈ block.children ↔ ∃ via, block.Holds child via := by
  unfold children
  rw [List.mem_append, Option.mem_toList, List.mem_map]
  constructor
  · rintro (⟨⟨input, kind, target⟩, hMem, rfl⟩ | hNext)
    · cases kind with
      | value => exact ⟨.value input, hMem⟩
      | statement => exact ⟨.statement input, hMem⟩
    · exact ⟨.next, hNext⟩
  · rintro ⟨via, hHolds⟩
    cases via with
    | value input | statement input => exact Or.inl ⟨_, hHolds, rfl⟩
    | next => exact Or.inr hHolds

end Block

namespace Workspace

/-- From the blocks that wait a walk in preorder visits blocks in an order. What comes after a block
is visited before the other blocks that wait. -/
inductive Preorder (workspace : Workspace) : (waiting order : List NodeId) → Prop
  | done : Preorder workspace [] []
  | visit {node : NodeId} {block : Block} {waiting order : List NodeId} :
      workspace.block? node = some block → Preorder workspace (block.children ++ waiting) order →
      Preorder workspace (node :: waiting) (node :: order)

variable {workspace : Workspace} {node child : NodeId} {block : Block}
variable {waiting order : List NodeId}

/-- The blocks that wait determine the order in which a walk in preorder visits blocks. -/
theorem Preorder.unique {other : List NodeId} (h : workspace.Preorder waiting order)
    (hOther : workspace.Preorder waiting other) : other = order := by
  induction h generalizing other with
  | done =>
    cases hOther
    rfl
  | @visit node block waiting order hBlock _ ih =>
    cases hOther with
    | visit hFound hRest =>
      cases hFound.symm.trans hBlock
      exact congrArg (node :: ·) (ih hRest)

/-- Walks from single blocks are put together to a walk from all of them. -/
theorem Preorder.flatMap {α : Type} {start : α → NodeId} {visited : α × Nat → List NodeId}
    {items : List α} (index : Nat) (h : workspace.Preorder waiting order)
    (hItems : ∀ item ∈ items, ∀ index waiting order, workspace.Preorder waiting order →
      workspace.Preorder (start item :: waiting) (visited (item, index) ++ order)) :
    workspace.Preorder (items.map start ++ waiting)
      ((items.zipIdx index).flatMap visited ++ order) := by
  induction items generalizing index with
  | nil => exact h
  | cons item items ih =>
    rw [List.zipIdx_cons, List.flatMap_cons, List.append_assoc]
    have hRest := ih (index + 1) fun other hOther => hItems other (List.mem_cons_of_mem _ hOther)
    exact hItems item List.mem_cons_self _ _ _ hRest

/-- Nothing lies below both of two blocks. -/
def Apart (workspace : Workspace) (first second : NodeId) : Prop :=
  ∀ node, ReflTransGen workspace.IsParent first node → ¬ ReflTransGen workspace.IsParent second node

namespace Forest

variable (hForest : workspace.Forest)

include hForest

/-! ## What comes after a block -/

theorem isParent_iff_mem_children (hBlock : workspace.block? node = some block) :
    workspace.IsParent node child ↔ child ∈ block.children := by
  rw [Block.mem_children_iff]
  constructor
  · rintro ⟨link, hParent, rfl⟩
    obtain ⟨holder, hHolder, hHolds⟩ := hForest.parent?_iff.mp hParent
    cases hHolder.symm.trans hBlock
    exact ⟨link.via, hHolds⟩
  · rintro ⟨via, hHolds⟩
    exact ⟨⟨node, via⟩, hForest.parent?_iff.mpr ⟨block, hBlock, hHolds⟩, rfl⟩

theorem parent?_of_mem_inputs (hBlock : workspace.block? node = some block)
    {connection : Connection} (hMem : connection ∈ block.inputs) :
    workspace.parent? connection.target = some ⟨node, connection.via⟩ := by
  obtain ⟨input, kind, target⟩ := connection
  cases kind with
  | value | statement => exact hForest.parent?_iff.mpr ⟨block, hBlock, hMem⟩

/-- No block stands in two inputs. -/
theorem nodup_targets (hBlock : workspace.block? node = some block) :
    (block.inputs.map Connection.target).Nodup := by
  have hDistinct := hForest.distinct _ _ hBlock
  refine List.Nodup.map_on (fun first hFirst second hSecond hTarget => ?_) hDistinct.of_map
  refine hDistinct.eq_of_input_eq hFirst hSecond (Connection.input_eq_of_via_eq ?_)
  have hLink := hForest.parent?_of_mem_inputs hBlock hFirst
  rw [hTarget, hForest.parent?_of_mem_inputs hBlock hSecond] at hLink
  exact (ParentLink.mk.inj (Option.some.inj hLink)).2.symm

theorem nodup_children (hBlock : workspace.block? node = some block) : block.children.Nodup := by
  refine List.nodup_append.mpr ⟨hForest.nodup_targets hBlock, ?_, ?_⟩
  · cases block.next? <;> simp
  · rintro target hTarget next hNext rfl
    obtain ⟨connection, hMem, rfl⟩ := List.mem_map.mp hTarget
    have hLink : workspace.parent? connection.target = some ⟨node, .next⟩ :=
      hForest.parent?_iff.mpr ⟨block, hBlock, Option.mem_toList.mp hNext⟩
    rw [hForest.parent?_of_mem_inputs hBlock hMem] at hLink
    exact absurd (ParentLink.mk.inj (Option.some.inj hLink)).2 connection.via_ne_next

/-! ## What is visited -/

/-- A walk visits what lies below the blocks that wait. -/
theorem mem_preorder_iff (h : workspace.Preorder waiting order) :
    node ∈ order ↔ ∃ start ∈ waiting, ReflTransGen workspace.IsParent start node := by
  induction h with
  | done => simp
  | @visit first block waiting order hBlock _ ih =>
    rw [List.mem_cons, ih]
    constructor
    · rintro (rfl | ⟨start, hStart, hBelow⟩)
      · exact ⟨node, List.mem_cons_self, .refl⟩
      · rcases List.mem_append.mp hStart with hChild | hWaiting
        · have hFirst := (hForest.isParent_iff_mem_children hBlock).mpr hChild
          exact ⟨first, List.mem_cons_self, hBelow.head hFirst⟩
        · exact ⟨start, List.mem_cons_of_mem _ hWaiting, hBelow⟩
    · rintro ⟨start, hStart, hBelow⟩
      rcases List.mem_cons.mp hStart with rfl | hWaiting
      · rcases hBelow.cases_head with rfl | ⟨child, hChild, hBelow⟩
        · exact Or.inl rfl
        · have hMem := (hForest.isParent_iff_mem_children hBlock).mp hChild
          exact Or.inr ⟨child, List.mem_append_left _ hMem, hBelow⟩
      · exact Or.inr ⟨start, List.mem_append_right _ hWaiting, hBelow⟩

/-! ## How often it is visited -/

/-- Different blocks that are attached to the same one have nothing below them in common. -/
theorem apart_children (hBlock : workspace.block? node = some block) :
    block.children.Pairwise workspace.Apart := by
  refine (hForest.nodup_children hBlock).imp_of_mem fun hFirst hSecond hNe below hBelow hOther => ?_
  exact hNe (hForest.child_above_unique hBelow hOther
    ((hForest.isParent_iff_mem_children hBlock).mpr hFirst)
    ((hForest.isParent_iff_mem_children hBlock).mpr hSecond))

/-- A walk visits no block twice if the blocks that wait have nothing below them in common. -/
theorem nodup_preorder (h : workspace.Preorder waiting order)
    (hApart : waiting.Pairwise workspace.Apart) : order.Nodup := by
  induction h with
  | done => exact List.nodup_nil
  | @visit node block waiting order hBlock hRest ih =>
    obtain ⟨hNode, hWaiting⟩ := List.pairwise_cons.mp hApart
    have hChild {child : NodeId} (hMem : child ∈ block.children) : workspace.IsParent node child :=
      (hForest.isParent_iff_mem_children hBlock).mpr hMem
    refine List.nodup_cons.mpr ⟨fun hAgain => ?_, ih (List.pairwise_append.mpr ⟨?_, hWaiting, ?_⟩)⟩
    · obtain ⟨start, hStart, hBelow⟩ := (hForest.mem_preorder_iff hRest).mp hAgain
      rcases List.mem_append.mp hStart with hMem | hMem
      · exact hForest.acyclic node (.head' (hChild hMem) hBelow)
      · exact hNode start hMem node .refl hBelow
    · exact hForest.apart_children hBlock
    · intro child hMem start hStart below hBelow
      exact hNode start hStart below (hBelow.head (hChild hMem))

theorem parent?_number {block : Block} (hMem : block ∈ workspace.blocks.toList) :
    workspace.parent? block.number = block.parent? := by
  obtain ⟨node, hGet⟩ := List.mem_iff_getElem?.mp hMem
  have hBlock : workspace.block? node = some block := Array.getElem?_toList.symm.trans hGet
  rw [hForest.numbered _ _ hBlock]
  exact parent?_of_block? hBlock

/-- The roots are the blocks that are attached to nothing, in the order in which they were made. -/
theorem roots_eq : workspace.roots =
    (List.range workspace.size).filter fun node => (workspace.parent? node).isNone := by
  rw [← hForest.nodes_eq, nodes, roots, List.filter_map]
  refine congrArg (List.map Block.number) (List.filter_congr fun block hMem => ?_)
  exact congrArg Option.isNone (hForest.parent?_number hMem).symm

theorem nodup_roots : workspace.roots.Nodup := by
  rw [hForest.roots_eq]
  exact List.nodup_range.filter _

theorem apart_roots : workspace.roots.Pairwise workspace.Apart := by
  refine hForest.nodup_roots.imp_of_mem fun hFirst hSecond hNe below hBelow hOther => ?_
  have hLt := lt_size_of_below (hForest.mem_roots_iff.mp hFirst).1 hBelow
  exact hNe ((hForest.exists_unique_root hLt).unique ⟨hFirst, hBelow⟩ ⟨hSecond, hOther⟩)

/-- **A walk in preorder from the roots visits every block just once.** -/
theorem perm_preorder (h : workspace.Preorder workspace.roots order) :
    order.Perm (List.range workspace.size) := by
  refine (List.perm_ext_iff_of_nodup (hForest.nodup_preorder h hForest.apart_roots)
    List.nodup_range).mpr fun node => ?_
  rw [hForest.mem_preorder_iff h, List.mem_range]
  constructor
  · rintro ⟨root, hRoot, hBelow⟩
    exact lt_size_of_below (hForest.mem_roots_iff.mp hRoot).1 hBelow
  · intro hNode
    obtain ⟨root, ⟨hRoot, hBelow⟩, -⟩ := hForest.exists_unique_root hNode
    exact ⟨root, hRoot, hBelow⟩

end Forest

end Workspace

end RuleBlocks
