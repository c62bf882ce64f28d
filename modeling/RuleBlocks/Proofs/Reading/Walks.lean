import RuleBlocks.Proofs.Circle
import RuleBlocks.Proofs.Reading.Forest

/-!
# Walks in a workspace

Several questions are answered by going on from a block until there is nothing to go on to (`Walk`):
up to the roots, to see whether a child stands above its new parent; out of chains, to find the
block around another one; along a chain; and up to the member of a chain. None of these walks has a
bound of its own, or it has one that must not be reached.

In a forest every step leads up or down by one block, so each of these walks ends. It visits no
block twice, and hence no more blocks than there are (`EndsWithin`). What it finds at its end is the
answer, however far the walk might have been followed.
-/

namespace RuleBlocks

/-- Going on from a block, step by step, one visits blocks until there is no further step. -/
inductive Walk (step? : NodeId → Option NodeId) : NodeId → (visited : List NodeId) → Prop
  | stop {node : NodeId} : step? node = none → Walk step? node [node]
  | go {node next : NodeId} {visited : List NodeId} :
      step? node = some next → Walk step? next visited → Walk step? node (node :: visited)

namespace Walk

variable {step? : NodeId → Option NodeId} {node : NodeId} {visited : List NodeId}

theorem exists_way (h : Walk step? node visited) :
    ∃ way, visited = node :: way ∧
      (node :: way).IsChain fun before after => step? before = some after := by
  induction h with
  | stop _ => exact ⟨[], rfl, List.isChain_singleton _⟩
  | go hStep _ ih =>
    obtain ⟨way, rfl, hWay⟩ := ih
    exact ⟨_, rfl, List.isChain_cons_cons.mpr ⟨hStep, hWay⟩⟩

theorem getLast?_cons (h : Walk step? node visited) (before : NodeId) :
    (before :: visited).getLast? = visited.getLast? := by
  obtain ⟨way, rfl, -⟩ := h.exists_way
  exact List.getLast?_cons_of_ne_nil (List.cons_ne_nil _ _)

section

variable {bound : NodeId → Nat}
variable (hFalls : ∀ node next, step? node = some next → bound next < bound node)

include hFalls

/-- A walk along which a bound falls comes to an end. -/
theorem exists_of_falls (node : NodeId) : ∃ visited, Walk step? node visited := by
  generalize hBound : bound node = height
  induction height using Nat.strongRecOn generalizing node with
  | ind height ih =>
    cases hStep : step? node with
    | none => exact ⟨_, .stop hStep⟩
    | some next =>
      obtain ⟨visited, hWalk⟩ := ih _ (hBound ▸ hFalls node next hStep) next rfl
      exact ⟨_, .go hStep hWalk⟩

theorem nodup_of_falls (h : Walk step? node visited) : visited.Nodup := by
  obtain ⟨way, rfl, hWay⟩ := h.exists_way
  exact nodup_of_isChain (not_entersCircle_of_falls bound hFalls) hWay

end

end Walk

namespace Workspace

/-- A walk in a workspace ends, and it visits no block twice and no more blocks than there are. -/
structure EndsWithin (workspace : Workspace) (step? : NodeId → Option NodeId) (node : NodeId)
    (visited : List NodeId) : Prop where
  walk : Walk step? node visited
  nodup : visited.Nodup
  length_le : visited.length ≤ workspace.size

variable {workspace : Workspace} {step? : NodeId → Option NodeId} {node child above : NodeId}
variable {visited : List NodeId}

theorem exists_endsWithin (bound : NodeId → Nat)
    (hWithin : ∀ node next, step? node = some next → next < workspace.size)
    (hFalls : ∀ node next, step? node = some next → bound next < bound node)
    (hNode : node < workspace.size) : ∃ visited, workspace.EndsWithin step? node visited := by
  obtain ⟨visited, hWalk⟩ := Walk.exists_of_falls hFalls node
  have hNodup := hWalk.nodup_of_falls hFalls
  refine ⟨visited, hWalk, hNodup, length_le_of_nodup hNodup ?_⟩
  clear hNodup
  induction hWalk with
  | stop _ => simpa using hNode
  | go hStep _ ih => exact List.forall_mem_cons.mpr ⟨hNode, ih (hWithin _ _ hStep)⟩

/-! ## Up -/

/-- The step up from a block, unless it is the child that is to be attached. -/
def climbStep? (workspace : Workspace) (child node : NodeId) : Option NodeId :=
  if node = child then none else (workspace.parent? node).map ParentLink.node

/-- The step up from a block that does not start a chain in an input. -/
def outwardStep? (workspace : Workspace) (node : NodeId) : Option NodeId :=
  match workspace.parent? node with
  | some ⟨parent, .value _⟩ | some ⟨parent, .next⟩ => some parent
  | _ => none

theorem isParent_of_climbStep? (h : workspace.climbStep? child node = some above) :
    workspace.IsParent above node := by
  unfold climbStep? at h
  split at h
  · cases h
  · exact Option.map_eq_some_iff.mp h

theorem isParent_of_outwardStep? (h : workspace.outwardStep? node = some above) :
    workspace.IsParent above node := by
  unfold outwardStep? at h
  split at h
  · rename_i hParent
    exact ⟨_, hParent, Option.some.inj h⟩
  · rename_i hParent
    exact ⟨_, hParent, Option.some.inj h⟩
  · cases h

namespace Forest

variable (hForest : workspace.Forest)

include hForest

/-- Every walk upwards ends. -/
theorem exists_endsWithin_up
    (hUp : ∀ node above, step? node = some above → workspace.IsParent above node)
    (hNode : node < workspace.size) : ∃ visited, workspace.EndsWithin step? node visited := by
  refine exists_endsWithin workspace.depth (fun node above hStep => ?_)
    (fun node above hStep => ?_) hNode
  · exact hForest.isParent_lt_size (hUp node above hStep)
  · obtain ⟨link, hParent, rfl⟩ := hUp node above hStep
    rw [hForest.depth_child hParent]
    exact Nat.lt_succ_self _

/-- The walk up for a child comes to it just if the child stands above. -/
theorem mem_walk_iff (h : Walk (workspace.climbStep? child) node visited) :
    child ∈ visited ↔ child ∈ workspace.lineage node := by
  induction h with
  | @stop node hStop =>
    unfold climbStep? at hStop
    split at hStop
    · rename_i hEq
      subst hEq
      exact iff_of_true List.mem_cons_self (hForest.mem_lineage_iff.mpr .refl)
    · rw [lineage_of_root (Option.map_eq_none_iff.mp hStop)]
  | @go node next visited hStep _ ih =>
    obtain ⟨link, hParent, rfl⟩ := isParent_of_climbStep? hStep
    rw [hForest.lineage_eq hParent, List.mem_cons, List.mem_cons, ih]

/-- The walk out of chains ends at a block that starts a chain in an input of the block around, or
at a root. -/
theorem enclosing?_of_walk (h : Walk workspace.outwardStep? node visited) :
    workspace.enclosing? node = visited.getLast?.bind workspace.chainHolder? := by
  induction h with
  | @stop node hStop =>
    cases hParent : workspace.parent? node with
    | none =>
      rw [enclosing?_of_root hParent]
      simp [chainHolder?, hParent]
    | some link =>
      rw [hForest.enclosing?_eq hParent]
      obtain ⟨parent, via⟩ := link
      cases via <;> simp [outwardStep?, chainHolder?, hParent] at hStop ⊢
  | @go node next visited hStep hWalk ih =>
    obtain ⟨⟨parent, via⟩, hParent, rfl⟩ := isParent_of_outwardStep? hStep
    rw [hWalk.getLast?_cons, ← ih, hForest.enclosing?_eq hParent]
    cases via with
    | value input | next => rfl
    | statement input => simp [outwardStep?, hParent] at hStep

end Forest

/-! ## Along chains -/

/-- Every walk along a chain ends. -/
theorem Forest.exists_endsWithin_next (hForest : workspace.Forest) (hNode : node < workspace.size) :
    ∃ visited, workspace.EndsWithin workspace.view.next? node visited := by
  refine exists_endsWithin (fun node => workspace.size - workspace.depth node)
    (fun node next hNext => ?_) (fun node next hNext => ?_) hNode
  · exact lt_size_of_parent? (hForest.parent?_of_next? hNext)
  · have hParent := hForest.parent?_of_next? hNext
    have hDepth := hForest.depth_child hParent
    have hLe := hForest.depth_le_size (lt_size_of_parent? hParent)
    dsimp only at hDepth ⊢
    omega

end Workspace

/-- A chain that is cut off no earlier than it ends is the whole chain. -/
theorem View.chain_of_walk {view : View} {node : NodeId} {visited : List NodeId} {limit : Nat}
    (h : Walk view.next? node visited) (hLimit : visited.length ≤ limit) :
    view.chain limit (some node) = visited := by
  induction h generalizing limit with
  | stop hStop =>
    cases limit with
    | zero => exact absurd hLimit (Nat.not_succ_le_zero _)
    | succ limit => rw [chain, hStop, chain_none]
  | go hStep _ ih =>
    cases limit with
    | zero => exact absurd hLimit (Nat.not_succ_le_zero _)
    | succ limit => rw [chain, hStep, ih (Nat.le_of_succ_le_succ hLimit)]

/-! ## Up to the member of a chain -/

/-- The step up from a block, unless it is attached to the holder of chains or is next to another
block. -/
def View.memberStep? (view : View) (holder node : NodeId) : Option NodeId :=
  (view.owner? node).bind fun owner =>
    if owner = holder ∨ view.previous? node = some owner then none else some owner

theorem Workspace.isParent_of_memberStep? {workspace : Workspace} {holder node above : NodeId}
    (h : workspace.view.memberStep? holder node = some above) : workspace.IsParent above node := by
  obtain ⟨owner, hOwner, hStep⟩ := Option.bind_eq_some_iff.mp h
  split at hStep
  · cases hStep
  · exact Option.some.inj hStep ▸ Option.map_eq_some_iff.mp hOwner

/-- The walk to a member is not given up before it ends: there is no member just if it ends at a
block that is attached to nothing. -/
theorem Scope.chainMember?_of_walk {scope : Scope} {holder node : NodeId} {visited : List NodeId}
    {limit : Nat} (h : Walk (scope.view.memberStep? holder) node visited)
    (hLimit : visited.length ≤ limit) :
    scope.chainMember? holder limit node =
      visited.getLast?.filter fun last => (scope.view.owner? last).isSome := by
  induction h generalizing limit with
  | @stop node hStop =>
    cases limit with
    | zero => exact absurd hLimit (Nat.not_succ_le_zero _)
    | succ limit =>
      rw [chainMember?]
      cases hOwner : scope.view.owner? node with
      | none => simp [Option.filter, hOwner]
      | some owner =>
        have hMember : owner = holder ∨ scope.view.previous? node = some owner := by
          by_contra hOn
          rw [View.memberStep?, hOwner, Option.bind_some, if_neg hOn] at hStop
          cases hStop
        simp [Option.filter, hOwner, hMember]
  | @go node next visited hStep hWalk ih =>
    cases limit with
    | zero => exact absurd hLimit (Nat.not_succ_le_zero _)
    | succ limit =>
      obtain ⟨owner, hOwner, hNext⟩ := Option.bind_eq_some_iff.mp hStep
      split at hNext
      · cases hNext
      · rename_i hOn
        cases hNext
        rw [hWalk.getLast?_cons, ← ih (Nat.le_of_succ_le_succ hLimit), chainMember?]
        simp only [hOwner, if_neg hOn]

end RuleBlocks
