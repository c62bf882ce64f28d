import RuleBlocks.Proofs.Workspace.Extend
import RuleBlocks.Proofs.Workspace.Run

/-!
# Undoing and redoing links

A block that was just attached can be detached again, and then nothing is left of the attachment
(`disconnect_of_attach`). This needs no forest, since attaching checks all that undoing relies on:
the place was free, and the child stood in no place.

The other way round, a link that was undone can be made again (`Forest.attach_of_disconnect`). Here
the forest matters: the place is free then, because no other connection has the same input, and the
child does not stand above its former parent, because it stood below it. The workspace is the former
one, except that a connection comes last among those of its block (`Block.moveLast`).
-/

namespace RuleBlocks

namespace Block

variable {block : Block} {child : NodeId} {via : Attachment}

/-- The block with what is connected to an input moved behind all other connections. -/
def moveLast (block : Block) : Attachment → Block
  | .value input | .statement input =>
    { block with inputs :=
        (block.inputs.filter fun connection => connection.input ≠ input) ++
          block.inputs.filter fun connection => connection.input = input }
  | .next => block

theorem release_put (hFree : block.IsFree via) : (block.put child via).release via = block := by
  cases via with
  | value input | statement input =>
    have hOthers :
        (block.inputs.filter fun connection => connection.input ≠ input) = block.inputs :=
      List.filter_eq_self.mpr fun connection hMem => decide_eq_true fun hInput =>
        hFree (List.mem_map.mpr ⟨connection, hMem, hInput⟩)
    simp only [put, release, List.filter_append, hOthers]
    simp
  | next =>
    unfold IsFree at hFree
    simp only [put, release, ← hFree]

theorem isFree_release : (block.release via).IsFree via := by
  cases via with
  | value input | statement input => simp [release, IsFree]
  | next => rfl

/-- A connection is the only one with its input. -/
theorem DistinctInputs.filter_eq (hDistinct : block.DistinctInputs) {connection : Connection}
    (hMem : connection ∈ block.inputs) :
    (block.inputs.filter fun other => other.input = connection.input) = [connection] := by
  obtain ⟨before, after, hInputs⟩ := List.append_of_mem hMem
  unfold DistinctInputs at hDistinct
  rw [hInputs, List.map_append, List.map_cons, List.nodup_append, List.nodup_cons] at hDistinct
  obtain ⟨-, ⟨hAfter, -⟩, hBefore⟩ := hDistinct
  have hNone : ∀ others : List Connection, connection.input ∉ others.map Connection.input →
      (others.filter fun other => other.input = connection.input) = [] := fun others hOthers =>
    List.filter_eq_nil_iff.mpr fun other hOther hEq =>
      hOthers (List.mem_map.mpr ⟨other, hOther, of_decide_eq_true hEq⟩)
  rw [hInputs, List.filter_append, List.filter_cons_of_pos (by simp), hNone after hAfter,
    hNone before fun hMem => hBefore _ hMem _ List.mem_cons_self rfl, List.nil_append]

theorem put_release (hDistinct : block.DistinctInputs) (hHolds : block.Holds child via) :
    (block.release via).put child via = block.moveLast via := by
  cases via with
  | value input | statement input =>
    simp only [put, release, moveLast, hDistinct.filter_eq hHolds]
  | next =>
    unfold Holds at hHolds
    simp only [put, release, moveLast, ← hHolds]

end Block

namespace Workspace

open Relation

variable {workspace changed : Workspace} {node other child : NodeId} {link : ParentLink}

theorem mem_lineage_self : node ∈ workspace.lineage node := List.mem_cons_self

theorem modify_comm {first second : Block → Block} (hNe : node ≠ other) :
    (workspace.modify node first).modify other second =
      (workspace.modify other second).modify node first := by
  apply ext_block?
  intro place
  simp only [block?_modify]
  by_cases hNode : node = place
  · have hOther : other ≠ place := fun hEq => hNe (hNode.trans hEq.symm)
    simp only [if_pos hNode, if_neg hOther]
  · simp only [if_neg hNode]

/-- **Undoing a link that was just made** answers that link and leaves the workspace as it was. -/
theorem disconnect_of_attach (h : workspace.attach link child = .ok changed) :
    changed.disconnect child = (workspace, .ok (some link)) := by
  have hParent : changed.parent? child = some link := by rw [parent?_attach h, if_pos rfl]
  obtain ⟨⟨childBlock, hChild, hUnattached⟩, hLineage, parent, hHolder, hFree, rfl⟩ :=
    attach_eq_ok_iff.mp h
  have hNe : link.node ≠ child := fun hEq => hLineage (hEq ▸ mem_lineage_self)
  have hLt : link.node < ((workspace.modify link.node fun _ => parent.put child link.via).modify
      child fun block => { block with parent? := some link }).size := by
    rw [size_modify, size_modify]
    exact lt_size_of_block? hHolder
  rw [disconnect_of_parent? hParent hLt, modify_modify, modify_comm hNe, modify_modify]
  refine congrArg (·, _) ?_
  -- the place is cleared again, and the child is free as before
  have hPlace : (workspace.modify link.node fun _ => (parent.put child link.via).release link.via) =
      workspace := modify_eq_self fun block hBlock => by
    rw [Block.release_put hFree, ← Option.some.inj (hHolder.symm.trans hBlock)]
  rw [modify_comm hNe.symm, hPlace]
  refine modify_eq_self fun block hBlock => ?_
  rw [← Option.some.inj (hChild.symm.trans hBlock), ← hUnattached]

/-- A block whose link is undone stands no longer above or below its former parent. -/
theorem Forest.not_mem_lineage_disconnect (hForest : workspace.Forest)
    (hParent : workspace.parent? child = some link) :
    child ∉ (workspace.disconnect child).1.lineage link.node := by
  have hLt := hForest.parent_lt_size hParent
  intro hMem
  have hAbove : ReflTransGen workspace.IsParent child link.node := by
    refine ReflTransGen.mono (fun parent below hIsParent => ?_) _ _ (reaches_of_mem_climb hMem)
    obtain ⟨place, hPlace, hNode⟩ := hIsParent
    rw [parent?_disconnect hParent hLt] at hPlace
    split at hPlace
    · cases hPlace
    · exact ⟨place, hPlace, hNode⟩
  exact hForest.acyclic child (TransGen.tail' hAbove (isParent_of_parent? hParent))

/-- **Making a link again that was undone** is never refused, and it restores the workspace up to
the order of the connections. -/
theorem Forest.attach_of_disconnect (hForest : workspace.Forest)
    (hParent : workspace.parent? child = some link) :
    (workspace.disconnect child).1.attach link child =
      .ok (workspace.modify link.node (·.moveLast link.via)) := by
  have hLineage := hForest.not_mem_lineage_disconnect hParent
  have hNe : child ≠ link.node := fun hEq => hLineage (hEq ▸ mem_lineage_self)
  obtain ⟨childBlock, hChild, hAttached⟩ := exists_block?_of_parent? hParent
  obtain ⟨holder, hHolder, hHolds⟩ := hForest.parent?_iff.mp hParent
  have hDistinct := hForest.distinct _ _ hHolder
  rw [disconnect_of_parent? hParent (hForest.parent_lt_size hParent)] at hLineage ⊢
  have hFreed : ((workspace.modify child fun block => { block with parent? := none }).modify
      link.node (·.release link.via)).block? child =
        some { childBlock with parent? := none } := by
    rw [block?_modify, if_neg hNe.symm, block?_modify, if_pos rfl, hChild, Option.map_some]
  have hCleared : ((workspace.modify child fun block => { block with parent? := none }).modify
      link.node (·.release link.via)).block? link.node = some (holder.release link.via) := by
    rw [block?_modify, if_pos rfl, block?_modify, if_neg hNe, hHolder, Option.map_some]
  refine attach_eq_ok_iff.mpr ⟨⟨_, hFreed, rfl⟩, hLineage, _, hCleared, Block.isFree_release, ?_⟩
  have hMoved : (workspace.modify link.node (·.moveLast link.via)) =
      workspace.modify link.node fun _ => (holder.release link.via).put child link.via := by
    rw [Block.put_release hDistinct hHolds]
    exact modify_of_block? hHolder
  rw [modify_modify, modify_comm hNe, modify_modify, hMoved]
  -- the child names its former place again
  refine (modify_eq_self fun block hBlock => ?_).symm
  rw [block?_modify, if_neg hNe.symm, hChild] at hBlock
  rw [← Option.some.inj hBlock, ← hAttached]

/-- A link that is undone is the one by which the block was attached. -/
theorem Forest.parent?_of_disconnect (hForest : workspace.Forest)
    (h : (workspace.disconnect child).2 = .ok (some link)) :
    workspace.parent? child = some link := by
  cases hParent : workspace.parent? child with
  | some held =>
    rw [disconnect_of_parent? hParent (hForest.parent_lt_size hParent)] at h
    cases h
    rfl
  | none =>
    unfold Workspace.disconnect at h
    cases hBlock : workspace.block? child with
    | none => simp only [hBlock, reduceCtorEq] at h
    | some block =>
      rw [parent?_of_block? hBlock] at hParent
      simp only [hBlock, hParent, Except.ok.injEq, reduceCtorEq] at h

/-- **Attaching and undoing a link are inverse.** After any run of commands: whenever a block is
attached, undoing its link answers just that link and restores the workspace. And whenever the link
of a block is undone, the same link can be made again, and the workspace is restored except that a
connection which was undone now comes last among those of its block. -/
theorem run_attach_disconnect (commands : List Command) :
    let workspace := run commands
    (∀ link child, (workspace.edit (.attach link child)).2 = .ok () →
      (workspace.edit (.attach link child)).1.disconnect child = (workspace, .ok (some link))) ∧
    ∀ child link, (workspace.disconnect child).2 = .ok (some link) →
      (workspace.disconnect child).1.edit (.attach link child) =
        (workspace.modify link.node (·.moveLast link.via), .ok ()) := by
  intro workspace
  have hForest := Forest.run commands
  refine ⟨fun link child hOk => ?_, fun child link hOk => ?_⟩
  · cases hAttach : workspace.attach link child with
    | error _ =>
      simp only [edit, hAttach, reduceCtorEq] at hOk
    | ok changed =>
      rw [edit_attach_ok hAttach]
      exact disconnect_of_attach hAttach
  · exact edit_attach_ok (hForest.attach_of_disconnect (hForest.parent?_of_disconnect hOk))

/-- A comparison of two numbers, the left one of which is in question. -/
def comparedNumbers : List Command :=
  [.edit (.create BlockKind.compare.tag), .edit (.create BlockKind.numberLiteral.tag),
    .edit (.create BlockKind.numberLiteral.tag), .edit (.attach ⟨0, .value Input.left⟩ 1),
    .edit (.attach ⟨0, .value Input.right⟩ 2)]

theorem comparedNumbers_restored :
    let workspace := run comparedNumbers
    let left : ParentLink := ⟨0, .value Input.left⟩
    (workspace.disconnect 1).2 = .ok (some left) ∧
      (workspace.disconnect 1).1.edit (.attach left 1) =
        (workspace.modify 0 (·.moveLast (.value Input.left)), .ok ()) ∧
      ((workspace.disconnect 1).1.edit (.attach left 1)).1 ≠ workspace := by
  intro workspace left
  have hUndone : (workspace.disconnect 1).2 = .ok (some left) := by decide
  have hRestored := (run_attach_disconnect comparedNumbers).2 1 left hUndone
  refine ⟨hUndone, hRestored, ?_⟩
  decide

end Workspace

end RuleBlocks
