import RuleBlocks.Proofs.Reading.Blame
import RuleBlocks.Proofs.Scope.Selections

/-!
# The way to a block

A diagnostic carries the way from where the reading began to its block. That way leads through the
graph: each of its steps goes from a block to a member of the chain in one of its inputs
(`Reader.ways_closed`). In a forest there is just one such way to every block (`Forest.way_unique`),
because a block stands in one chain only, and the first block of a chain hangs from one input only.
So the block of a diagnostic says how the reading got there.
-/

namespace RuleBlocks

open Relation

/-- The way to a block from one of the blocks with which reading begins. Every step leads from a
block to a member of the chain in one of its inputs; the only member of the chain may be a value. -/
inductive View.Way (view : View) (starts : List NodeId) : List PathSegment → NodeId → Prop
  | start {node : NodeId} : node ∈ starts → Way view starts [] node
  | inside {path : List PathSegment} {holder node : NodeId} {input : String} {limit : Nat} :
      Way view starts path holder → node ∈ view.chain limit (view.input? holder input) →
      Way view starts (path ++ [⟨holder, input⟩]) node

namespace Reader

open Reading

/-- **Diagnostics carry the way to their blocks.** -/
theorem ways_closed (reader : Reader) (starts : List NodeId) :
    reader.ClosedUnderChains fun _ spot reading => ∀ diagnostic ∈ reading.diagnostics,
      reader.view.Way starts spot.path spot.node →
        reader.view.Way starts diagnostic.path diagnostic.node := by
  refine closedUnderChains_of_reports (fun _ _ _ hWay => hWay) ?_ ?_
  · intro spot input child diagnostic hChild _ hInner hWay
    have hMember : child ∈ reader.view.chain 1 (reader.view.input? spot.node input) := by
      rw [hChild]
      exact List.mem_cons_self
    exact hInner (hWay.inside hMember)
  · intro spot input member diagnostic _ hMember hInner hWay
    exact hInner (hWay.inside hMember)

theorem way_of_mem_readChain (reader : Reader) {first : Option NodeId} {diagnostic : Diagnostic}
    (hMem : diagnostic ∈ (reader.readChain first).diagnostics) :
    reader.view.Way (reader.chain first) diagnostic.path diagnostic.node := by
  rw [readChain, diagnostics_chainStatement, List.mem_flatMap] at hMem
  obtain ⟨node, hNode, hMem⟩ := hMem
  exact (reader.ways_closed _).statement _ ⟨node, []⟩ diagnostic hMem (.start hNode)

end Reader

namespace Workspace

variable {workspace : Workspace} {node before first child holder : NodeId} {input : String}
variable {starts : List NodeId} {path other : List PathSegment}

/-! ## Members of chains -/

theorem Follows.isParent (h : workspace.Follows node before) : workspace.IsParent before node :=
  isParent_of_parent? h

/-- The blocks before a block stand above it. -/
theorem above_of_follows (h : ReflTransGen workspace.Follows node before) :
    ReflTransGen workspace.IsParent before node := by
  induction h with
  | refl => exact .refl
  | tail _ hStep ih => exact ih.head hStep.isParent

theorem follows_rightUnique : Relator.RightUnique workspace.Follows := by
  intro node before other hBefore hOther
  cases hBefore.symm.trans hOther
  rfl

/-- Nothing comes before what stands in an input. -/
theorem Forest.eq_of_follows_of_input? (hForest : workspace.Forest)
    (hChild : workspace.view.input? holder input = some child)
    (h : ReflTransGen workspace.Follows child before) : child = before := by
  rcases h.cases_head with hEq | ⟨other, hStep, -⟩
  · exact hEq
  · have hNext : workspace.parent? child = some ⟨other, .next⟩ := hStep
    rcases hForest.parent?_of_input? hChild with hLink | hLink
    all_goals
      rw [hNext] at hLink
      cases hLink

/-- What stands in an input stands in no other one. -/
theorem Forest.input?_injective (hForest : workspace.Forest) {otherHolder : NodeId}
    {otherInput : String} (hChild : workspace.view.input? holder input = some child)
    (hOther : workspace.view.input? otherHolder otherInput = some child) :
    holder = otherHolder ∧ input = otherInput := by
  rcases hForest.parent?_of_input? hChild with hLink | hLink <;>
    rcases hForest.parent?_of_input? hOther with hLink' | hLink' <;>
    rw [hLink] at hLink' <;> cases hLink' <;> exact ⟨rfl, rfl⟩

/-- A member of the chain in an input follows the block in that input. -/
theorem Forest.exists_follows_of_mem_chain (hForest : workspace.Forest) {limit : Nat}
    (h : node ∈ workspace.view.chain limit (workspace.view.input? holder input)) :
    ∃ child, workspace.view.input? holder input = some child ∧
      ReflTransGen workspace.Follows node child := by
  obtain ⟨child, hChild, hMember⟩ := View.exists_first_of_mem_chain h
  exact ⟨child, hChild, hForest.follows_of_inChainFrom hMember⟩

/-- A member of the chain in an input is in the chain of no other input. -/
theorem Forest.inputChain_injective (hForest : workspace.Forest) {otherHolder : NodeId}
    {otherInput : String} {limit otherLimit : Nat}
    (h : node ∈ workspace.view.chain limit (workspace.view.input? holder input))
    (hOther : node ∈
      workspace.view.chain otherLimit (workspace.view.input? otherHolder otherInput)) :
    holder = otherHolder ∧ input = otherInput := by
  obtain ⟨child, hChild, hFollows⟩ := hForest.exists_follows_of_mem_chain h
  obtain ⟨otherChild, hOtherChild, hOtherFollows⟩ := hForest.exists_follows_of_mem_chain hOther
  -- both chains have the block as a member, so they begin with the same block
  have hSame : child = otherChild := by
    rcases ReflTransGen.total_of_right_unique follows_rightUnique hFollows hOtherFollows with
      hBefore | hBefore
    · exact hForest.eq_of_follows_of_input? hChild hBefore
    · exact (hForest.eq_of_follows_of_input? hOtherChild hBefore).symm
  subst hSame
  exact hForest.input?_injective hChild hOtherChild

/-- A member of a chain does not come again later in it. -/
theorem Forest.nodup_chain (hForest : workspace.Forest) (limit : Nat) (first? : Option NodeId) :
    (workspace.view.chain limit first?).Nodup := by
  induction limit generalizing first? with
  | zero => exact List.nodup_nil
  | succ limit ih =>
    cases first? with
    | none => exact List.nodup_nil
    | some node =>
      rw [View.chain]
      refine List.nodup_cons.mpr ⟨fun hMem => ?_, ih _⟩
      obtain ⟨next, hNext, hMember⟩ := View.exists_first_of_mem_chain hMem
      have hAfter : workspace.IsParent node next :=
        isParent_of_parent? (hForest.parent?_of_next? hNext)
      exact hForest.acyclic node
        (.head' hAfter (above_of_follows (hForest.follows_of_inChainFrom hMember)))

theorem Forest.lt_size_of_mem_inputChain (hForest : workspace.Forest) {limit : Nat}
    (h : node ∈ workspace.view.chain limit (workspace.view.input? holder input)) :
    node < workspace.size := by
  obtain ⟨child, hChild, hFollows⟩ := hForest.exists_follows_of_mem_chain h
  rcases hFollows.cases_head with rfl | ⟨before, hStep, -⟩
  · obtain ⟨link, hParent, -⟩ := hForest.isParent_of_input? hChild
    exact lt_size_of_parent? hParent
  · exact lt_size_of_parent? hStep

/-! ## Ways -/

/-- The blocks with which reading begins stand in the chain of a block. -/
def StartsFrom (workspace : Workspace) (first : NodeId) (starts : List NodeId) : Prop :=
  ∀ node ∈ starts, ReflTransGen workspace.Follows node first

/-- A way leads down. -/
theorem Forest.above_of_way (hForest : workspace.Forest)
    (hStarts : workspace.StartsFrom first starts)
    (h : workspace.view.Way starts path node) : ReflTransGen workspace.IsParent first node := by
  induction h with
  | start hMem => exact above_of_follows (hStarts _ hMem)
  | inside _ hMember ih =>
    obtain ⟨child, hChild, hFollows⟩ := hForest.exists_follows_of_mem_chain hMember
    exact (ih.tail (hForest.isParent_of_input? hChild)).trans (above_of_follows hFollows)

/-- What stands in an input of a block below another one is not in the chain of the other one. -/
theorem Forest.not_follows_of_held (hForest : workspace.Forest)
    (hHolder : ReflTransGen workspace.IsParent first holder)
    (hChild : workspace.view.input? holder input = some child)
    (hNode : ReflTransGen workspace.Follows node child) :
    ¬ ReflTransGen workspace.Follows node first := by
  intro hFirst
  have hDown : TransGen workspace.IsParent first child :=
    .tail' hHolder (hForest.isParent_of_input? hChild)
  have hUp : ReflTransGen workspace.IsParent child first := by
    rcases ReflTransGen.total_of_right_unique follows_rightUnique hNode hFirst with
      hBefore | hAfter
    · rw [hForest.eq_of_follows_of_input? hChild hBefore]
    · exact above_of_follows hAfter
  exact hForest.acyclic first (hDown.trans_left hUp)

/-- A way leads away from the blocks with which reading begins. -/
theorem Forest.not_mem_starts (hForest : workspace.Forest)
    (hStarts : workspace.StartsFrom first starts) (hWay : workspace.view.Way starts path holder)
    {limit : Nat}
    (hMember : node ∈ workspace.view.chain limit (workspace.view.input? holder input)) :
    node ∉ starts := by
  intro hStart
  obtain ⟨child, hChild, hFollows⟩ := hForest.exists_follows_of_mem_chain hMember
  exact hForest.not_follows_of_held (hForest.above_of_way hStarts hWay) hChild hFollows
    (hStarts _ hStart)

/-- **In a forest there is just one way to a block.** -/
theorem Forest.way_unique (hForest : workspace.Forest) (hStarts : workspace.StartsFrom first starts)
    (h : workspace.view.Way starts path node) (hOther : workspace.view.Way starts other node) :
    path = other := by
  induction h generalizing other with
  | start hMem =>
    cases hOther with
    | start _ => rfl
    | inside hWay hMember => exact absurd hMem (hForest.not_mem_starts hStarts hWay hMember)
  | inside hWay hMember ih =>
    cases hOther with
    | start hMem => exact absurd hMem (hForest.not_mem_starts hStarts hWay hMember)
    | inside hOtherWay hOtherMember =>
      obtain ⟨rfl, rfl⟩ := hForest.inputChain_injective hMember hOtherMember
      rw [ih hOtherWay]

end Workspace

end RuleBlocks
