import RuleBlocks.Proofs.Reading.Continued
import RuleBlocks.Proofs.Reading.Walks

/-!
# Limits that are never reached

Chains are cut off after as many blocks as a graph has, and names are looked for within the same
limit. For our own workspaces these limits do not matter: every walk ends before (`WalksEnd`), so
with any higher limit everything is read in the same way and the same names are found (`SameUpTo`).
Both hold after every run, at every block (`run_walks_end`).
-/

namespace RuleBlocks

namespace Workspace

variable {workspace : Workspace} {limit : Nat} {vocabulary : Vocabulary} {node : NodeId}

/-- The view of a workspace in which a limit takes the place of the number of blocks: all numbers
below it are listed, also those that no block has. -/
def viewUpTo (workspace : Workspace) (limit : Nat) : View :=
  { workspace.view with nodes := List.range limit }

@[simp] theorem size_viewUpTo : (workspace.viewUpTo limit).size = limit := List.length_range

/-! ## Chains -/

theorem chain_viewUpTo (length : Nat) (first? : Option NodeId) :
    (workspace.viewUpTo limit).chain length first? = workspace.view.chain length first? := by
  induction length generalizing first? with
  | zero => rfl
  | succ length ih =>
    cases first? with
    | none => rfl
    | some first => exact congrArg (first :: ·) (ih _)

/-- A limit that is not below the size of a forest cuts off none of its chains. -/
theorem Forest.chain_further (hForest : workspace.Forest) (hLimit : workspace.size ≤ limit)
    {first? : Option NodeId} (hFirst : ∀ first, first? = some first → first < workspace.size) :
    (workspace.viewUpTo limit).chain limit first? = workspace.view.chain workspace.size first? := by
  rw [chain_viewUpTo]
  cases first? with
  | none => rw [View.chain_none, View.chain_none]
  | some first =>
    obtain ⟨visited, hEnds⟩ := hForest.exists_endsWithin_next (hFirst first rfl)
    rw [View.chain_of_walk hEnds.walk (hEnds.length_le.trans hLimit),
      View.chain_of_walk hEnds.walk hEnds.length_le]

theorem Forest.chain_input_further (hForest : workspace.Forest) (hLimit : workspace.size ≤ limit)
    (input : String) :
    (workspace.viewUpTo limit).chain limit (workspace.view.input? node input) =
      workspace.view.chain workspace.size (workspace.view.input? node input) := by
  refine hForest.chain_further hLimit fun child hChild => ?_
  obtain ⟨link, hParent, -⟩ := hForest.isParent_of_input? hChild
  exact lt_size_of_parent? hParent

/-! ## Numbers that no block has -/

theorem tag?_eq_none (hNode : workspace.size ≤ node) : workspace.view.tag? node = none := by
  rw [← Option.not_isSome_iff_eq_none, ← lt_size_iff_tag?]
  exact Nat.not_lt.mpr hNode

/-- Every block is listed, and perhaps more. -/
theorem complete_viewUpTo (hLimit : workspace.size ≤ limit) :
    (workspace.viewUpTo limit).Complete := by
  intro node hTag
  exact List.mem_range.mpr ((lt_size_iff_tag?.mpr hTag).trans_le hLimit)

theorem kind?_eq_none (hNode : workspace.size ≤ node) :
    workspace.view.kind? vocabulary node = none := by
  rw [View.kind?, tag?_eq_none hNode, Option.bind_none]

/-- What is found at no further number is found in the blocks alone. -/
theorem Forest.filterMap_further {α : Type} {find? : NodeId → Option α} (hForest : workspace.Forest)
    (hLimit : workspace.size ≤ limit)
    (hNone : ∀ node, workspace.size ≤ node → find? node = none) :
    (workspace.viewUpTo limit).nodes.filterMap find? = workspace.nodes.filterMap find? := by
  rw [hForest.nodes_eq]
  show (List.range limit).filterMap find? = _
  induction limit, hLimit using Nat.le_induction with
  | base => rfl
  | succ limit hLimit ih =>
    rw [List.range_succ, List.filterMap_append, ih, List.filterMap_cons_none (hNone limit hLimit)]
    simp

theorem Forest.depth_le_of_pos (hForest : workspace.Forest) (hSize : 0 < workspace.size)
    (node : NodeId) : workspace.depth node ≤ workspace.size := by
  by_cases hNode : node < workspace.size
  · exact hForest.depth_le_size hNode
  · have hRoot : workspace.parent? node = none :=
      Option.eq_none_iff_forall_ne_some.mpr fun link hLink => hNode (lt_size_of_parent? hLink)
    rw [depth, lineage_of_root hRoot]
    exact hSize

end Workspace

/-! ## Names -/

namespace Scope

open Workspace

variable {scope further : Scope} {workspace : Workspace} {limit : Nat} {node : NodeId}

theorem enclosures_congr (h : further.view.enclosing? = scope.view.enclosing?) (limit : Nat)
    (node : NodeId) : further.enclosures limit node = scope.enclosures limit node := by
  induction limit generalizing node with
  | zero =>
    unfold enclosures
    rw [h]
  | succ limit ih =>
    unfold enclosures
    rw [h]
    simp only [ih]

theorem chainMember?_congr (hOwner : further.view.owner? = scope.view.owner?)
    (hPrevious : further.view.previous? = scope.view.previous?) (holder : NodeId) (limit : Nat)
    (node : NodeId) :
    further.chainMember? holder limit node = scope.chainMember? holder limit node := by
  induction limit generalizing node with
  | zero => rfl
  | succ limit ih =>
    unfold chainMember?
    rw [hOwner, hPrevious]
    simp only [ih]

section

variable (scope further) (hForest : workspace.Forest) (hLimit : workspace.size ≤ limit)
variable (hView : scope.view = workspace.view) (hFurther : further.view = workspace.viewUpTo limit)
variable (hVocabulary : further.vocabulary = scope.vocabulary)

include hForest hLimit hView hFurther hVocabulary

theorem bindings_further (category : Category) (holder : NodeId) (member? : Option NodeId) :
    further.bindings category holder member? = scope.bindings category holder member? := by
  have hKind : further.view.kind? further.vocabulary holder =
      scope.view.kind? scope.vocabulary holder := by
    rw [hFurther, hView, hVocabulary]
    rfl
  have hPlayer : further.playerBindings holder = scope.playerBindings holder := by
    unfold playerBindings
    rw [hFurther, hView]
    rfl
  have hSelection : further.selectionBinding? category = scope.selectionBinding? category := by
    unfold selectionBinding?
    rw [hFurther, hView, hVocabulary]
    rfl
  have hChoices : further.view.chain further.view.size (further.view.input? holder Input.offers) =
      scope.view.chain scope.view.size (scope.view.input? holder Input.offers) := by
    rw [hFurther, hView, size_viewUpTo, size_view]
    exact hForest.chain_input_further hLimit Input.offers
  unfold bindings
  rw [hKind, hPlayer, hSelection, hChoices]

/-- No name is lost to the limit. -/
theorem names_further (hGlobals : further.globals = scope.globals)
    (hNode : node < workspace.size) (category : Category) :
    further.names node category = scope.names node category := by
  have hSize : 0 < workspace.size := Nat.zero_lt_of_lt hNode
  have hDepth := hForest.depth_le_of_pos hSize
  obtain ⟨around, hAround⟩ := exists_enclosures hForest hView hNode
  have hEnclosing : further.view.enclosing? = scope.view.enclosing? := by
    rw [hFurther, hView]
    rfl
  have hOwner : further.view.owner? = scope.view.owner? := by
    rw [hFurther, hView]
    rfl
  have hPrevious : further.view.previous? = scope.view.previous? := by
    rw [hFurther, hView]
    rfl
  -- neither walk comes to its limit, so for both the limit may be taken for the size
  have hEnclosures : further.enclosures limit node = some around := by
    rw [enclosures_congr hEnclosing,
      enclosures_stable hForest hView ((hDepth node).trans hLimit) (hDepth node), hAround]
  have hMember (holder inside : NodeId) : further.chainMember? holder limit inside =
      scope.chainMember? holder workspace.size inside := by
    rw [chainMember?_congr hOwner hPrevious]
    exact chainMember?_stable hForest hView ((hDepth inside).trans hLimit) (hDepth inside)
  have hBindings := bindings_further scope further hForest hLimit hView hFurther hVocabulary
    category
  have hFurtherSize : further.view.size = limit := by rw [hFurther, size_viewUpTo]
  rw [names_of_enclosures hView hAround, names]
  simp only [hFurtherSize, hEnclosures, hMember, hBindings, hGlobals]

end

end Scope

namespace Workspace

variable {workspace : Workspace} {limit : Nat} {vocabulary : Vocabulary}
variable {globals : List (Category × String)} {options : ReadOptions} {spot : Spot}
variable {node : NodeId}

/-- A block of a workspace, and the same block. -/
def SameBlock (workspace : Workspace) (node second : NodeId) : Prop :=
  node = second ∧ node < workspace.size

namespace Forest

section

variable (hForest : workspace.Forest)

include hForest

theorem sameBlock_input? (node : NodeId) (input : String) :
    Option.Rel workspace.SameBlock (workspace.view.input? node input)
      (workspace.view.input? node input) := by
  cases hChild : workspace.view.input? node input with
  | none => exact .none
  | some child =>
    obtain ⟨link, hParent, -⟩ := hForest.isParent_of_input? hChild
    exact .some ⟨rfl, lt_size_of_parent? hParent⟩

theorem sameBlock_next? (node : NodeId) :
    Option.Rel workspace.SameBlock (workspace.view.next? node) (workspace.view.next? node) := by
  cases hNext : workspace.view.next? node with
  | none => exact .none
  | some next => exact .some ⟨rfl, lt_size_of_parent? (hForest.parent?_of_next? hNext)⟩

variable (hLimit : workspace.size ≤ limit)

include hLimit

theorem globals_further : (Scope.ofView (workspace.viewUpTo limit) vocabulary globals).globals =
    (Scope.ofView workspace.view vocabulary globals).globals := by
  refine congrArg (· ++ _) (hForest.filterMap_further hLimit fun node hNode => ?_)
  have hKind : (workspace.viewUpTo limit).kind? vocabulary node = none := kind?_eq_none hNode
  unfold Scope.numberBinding?
  rw [hKind]
  rfl

theorem checkReference_further (hNode : spot.node < workspace.size) (category : Category)
    (name : String) :
    (Reader.ofView workspace.view vocabulary options).checkReference spot category name =
      (Reader.ofView (workspace.viewUpTo limit) vocabulary options).checkReference spot category
        name := by
  obtain ⟨checkScopes, globals⟩ := options
  cases checkScopes with
  | false => rfl
  | true =>
    have hNames := Scope.names_further (.ofView workspace.view vocabulary globals)
      (.ofView (workspace.viewUpTo limit) vocabulary globals) hForest hLimit rfl rfl rfl
      (hForest.globals_further hLimit) hNode category
    have hResolve : (Scope.ofView (workspace.viewUpTo limit) vocabulary globals).resolve spot.node
        category name = (Scope.ofView workspace.view vocabulary globals).resolve spot.node category
        name := congrArg _ hNames
    unfold Reader.checkReference Reader.ofView
    simp only [if_true, hResolve]
    rfl

/-- Readers with different limits go in step. -/
theorem inStep_further (vocabulary : Vocabulary) (options : ReadOptions) :
    (Reader.ofView workspace.view vocabulary options).InStep
      (Reader.ofView (workspace.viewUpTo limit) vocabulary options) workspace.SameBlock
      (Reading.AlikeAtEnd (· = ·)) where
  toCongruence := Reading.additive_eq.congruence_atEnd
  kind? := by
    rintro node _ ⟨rfl, -⟩
    rfl
  field? := by
    rintro node _ field ⟨rfl, -⟩
    rfl
  input? := by
    rintro node _ input ⟨rfl, -⟩
    exact hForest.sameBlock_input? node input
  chain := by
    intro first? other? hStart
    have hFirst : ∀ first, other? = some first → first < workspace.size := by
      rintro first rfl
      cases hStart with
      | some hSame => exact hSame.1 ▸ hSame.2
    -- the longer limit cuts off nothing more, and then both chains are followed alike
    have hChain := hForest.chain_further hLimit hFirst
    rw [Reader.chain, Reader.chain]
    show List.Forall₂ _ (workspace.view.chain workspace.view.size first?)
      ((workspace.viewUpTo limit).chain (workspace.viewUpTo limit).size other?)
    rw [size_viewUpTo, hChain, ← size_view]
    refine forall₂_chain hForest hForest ?_ ?_ hStart
    · rintro node _ ⟨rfl, hNode⟩
      exact ⟨hNode, hNode⟩
    · rintro node _ ⟨rfl, -⟩
      exact hForest.sameBlock_next? node
  error := by
    rintro spot _ error hSpot - -
    obtain rfl := (hSpot.mono fun _ _ hSame => hSame.1).eq
    exact ⟨rfl, rfl, rfl⟩
  unknown := by
    rintro node _ ⟨rfl, -⟩ -
    rfl
  checked := by
    rintro spot _ category name hSpot - -
    obtain rfl := (hSpot.mono fun _ _ hSame => hSame.1).eq
    rw [hForest.checkReference_further hLimit hSpot.node.2]
    exact ⟨rfl, rfl, rfl⟩

/-- With a higher limit reading comes to an end as well. -/
theorem finished_readChain_further (first? : Option NodeId) :
    ((Reader.ofView (workspace.viewUpTo limit) vocabulary options).readChain first?).finished =
      true :=
  (Reader.finished_readChain_iff (complete_viewUpTo hLimit)).mpr fun _ _ =>
    Reader.not_runsInCircle_of_falls (Reader.falls_of_links hForest rfl rfl)

theorem finished_readStatement_further (node : NodeId) :
    ((Reader.ofView (workspace.viewUpTo limit) vocabulary options).readStatement node).finished =
      true :=
  (Reader.finished_readStatement_iff (complete_viewUpTo hLimit)).mpr
    (Reader.not_runsInCircle_of_falls (Reader.falls_of_links hForest rfl rfl))

theorem finished_readPhases_further :
    (Reader.ofView (workspace.viewUpTo limit) vocabulary options).readPhases.finished = true :=
  Reader.finished_readPhases_iff.mpr fun _ _ _ => hForest.finished_readChain_further hLimit _

theorem topHats_further :
    (workspace.viewUpTo limit).nodes.filter
        (Reader.ofView (workspace.viewUpTo limit) vocabulary options).isTopHat =
      workspace.nodes.filter (Reader.ofView workspace.view vocabulary options).isTopHat := by
  rw [← List.filterMap_eq_filter, ← List.filterMap_eq_filter]
  refine hForest.filterMap_further hLimit fun node hNode => ?_
  have hKind : (workspace.viewUpTo limit).kind? vocabulary node = none := kind?_eq_none hNode
  simp [Option.guard, Reader.isTopHat, Reader.ofView, hKind]

/-! ## What is read -/

theorem statement_further (vocabulary : Vocabulary) (options : ReadOptions) {spot other : Spot}
    (hSpot : spot.Match workspace.SameBlock other) :
    let reader := Reader.ofView workspace.view vocabulary options
    let further := Reader.ofView (workspace.viewUpTo limit) vocabulary options
    Reading.AlikeAtEnd (· = ·) _ (reader.statement reader.depthLimit spot)
      (further.statement further.depthLimit other) :=
  (hForest.inStep_further hLimit vocabulary options).statement_depths (fun _ => nofun)
    (fun _ _ => nofun) _ _ _ _ hSpot

theorem readChain_further (hNode : node < workspace.size) :
    (Reader.ofView (workspace.viewUpTo limit) vocabulary options).readChain (some node) =
      (Reader.ofView workspace.view vocabulary options).readChain (some node) := by
  have hRead := (hForest.inStep_further hLimit vocabulary options).readChain
    (fun _ _ => hForest.statement_further hLimit vocabulary options) (.some ⟨rfl, hNode⟩)
  exact (hRead (Reader.finished_readChain hForest rfl _)
    (hForest.finished_readChain_further hLimit _)).eq.symm

theorem readStatement_further (hNode : node < workspace.size) :
    (Reader.ofView (workspace.viewUpTo limit) vocabulary options).readStatement node =
      (Reader.ofView workspace.view vocabulary options).readStatement node := by
  have hRead := hForest.statement_further hLimit vocabulary options (.start ⟨rfl, hNode⟩)
  exact (hRead (Reader.finished_readStatement hForest rfl _)
    (hForest.finished_readStatement_further hLimit _)).eq.symm

theorem readExpression_further (hNode : node < workspace.size) (category : Category) :
    (Reader.ofView (workspace.viewUpTo limit) vocabulary options).readExpression node category =
      (Reader.ofView workspace.view vocabulary options).readExpression node category := by
  have hRead := (hForest.inStep_further hLimit vocabulary options).readExpression ⟨rfl, hNode⟩
    category
  exact (hRead ((Reader.finished_closed _).expression category)
    ((Reader.finished_closed _).expression category)).eq.symm

theorem readPhases_further :
    (Reader.ofView (workspace.viewUpTo limit) vocabulary options).readPhases =
      (Reader.ofView workspace.view vocabulary options).readPhases := by
  have hHats : List.Forall₂ (fun hat other => workspace.SameBlock hat other ∧
      Option.Rel workspace.SameBlock (workspace.view.next? hat) (workspace.view.next? other))
      (workspace.nodes.filter (Reader.ofView workspace.view vocabulary options).isTopHat)
      ((workspace.viewUpTo limit).nodes.filter
        (Reader.ofView (workspace.viewUpTo limit) vocabulary options).isTopHat) := by
    rw [hForest.topHats_further hLimit]
    refine List.forall₂_same.mpr fun hat hHat => ⟨⟨rfl, ?_⟩, hForest.sameBlock_next? hat⟩
    have hMem := (List.mem_filter.mp hHat).1
    rw [hForest.nodes_eq] at hMem
    exact List.mem_range.mp hMem
  have hRead := (hForest.inStep_further hLimit vocabulary options).addPhases
    (fun _ _ => hForest.statement_further hLimit vocabulary options) NameMap.empty hHats
  exact (hRead (Reader.finished_readPhases hForest rfl)
    (hForest.finished_readPhases_further hLimit)).eq.symm

end

end Forest

/-! ## Walks that end, and limits that are not reached -/

/-- The walks from a block end before any limit, and find what they are made for. -/
structure WalksEnd (workspace : Workspace) (node : NodeId) : Prop where
  /-- Whether a free child stands above a block to which it is to be attached. -/
  climb (child : NodeId) : ∃ visited,
    workspace.EndsWithin (workspace.climbStep? child) node visited ∧
      (child < workspace.size → workspace.parent? child = none →
        workspace.checkAttach node child =
          if child ∈ visited then .error (.wouldCycle node child) else .ok ())
  /-- The block around a block. -/
  outward : ∃ visited, workspace.EndsWithin workspace.outwardStep? node visited ∧
    workspace.enclosing? node = visited.getLast?.bind workspace.chainHolder?
  /-- The chain from a block, which is not cut off by a limit. -/
  chain : ∃ visited, workspace.EndsWithin workspace.view.next? node visited ∧
    ∀ limit, workspace.size ≤ limit → workspace.view.chain limit (some node) = visited
  /-- The member of a chain through which one gets to its holder. There is none just if the walk
  ends at a block that is attached to nothing, and never because of a limit. -/
  member (vocabulary : Vocabulary) (globals : List (Category × String)) (holder : NodeId) :
    ∃ visited, workspace.EndsWithin (workspace.view.memberStep? holder) node visited ∧
      ∀ limit, workspace.size ≤ limit →
        (Scope.ofView workspace.view vocabulary globals).chainMember? holder limit node =
          visited.getLast?.filter fun last => (workspace.view.owner? last).isSome

/-- At a block the same is read and the same names are found with a limit in place of the number of
blocks. -/
structure SameUpTo (workspace : Workspace) (limit : Nat) (vocabulary : Vocabulary)
    (options : ReadOptions) (node : NodeId) : Prop where
  readChain : (Reader.ofView (workspace.viewUpTo limit) vocabulary options).readChain (some node) =
    (Reader.ofView workspace.view vocabulary options).readChain (some node)
  readStatement :
    (Reader.ofView (workspace.viewUpTo limit) vocabulary options).readStatement node =
      (Reader.ofView workspace.view vocabulary options).readStatement node
  readExpression (category : Category) :
    (Reader.ofView (workspace.viewUpTo limit) vocabulary options).readExpression node category =
      (Reader.ofView workspace.view vocabulary options).readExpression node category
  readPhases : (Reader.ofView (workspace.viewUpTo limit) vocabulary options).readPhases =
    (Reader.ofView workspace.view vocabulary options).readPhases
  bindings (category : Category) (member? : Option NodeId) :
    (Scope.ofView (workspace.viewUpTo limit) vocabulary options.globals).bindings category node
        member? =
      (Scope.ofView workspace.view vocabulary options.globals).bindings category node member?
  names (category : Category) :
    (Scope.ofView (workspace.viewUpTo limit) vocabulary options.globals).names node category =
      (Scope.ofView workspace.view vocabulary options.globals).names node category

theorem checkAttach_of_free {child : NodeId} (hNode : node < workspace.size)
    (hChild : child < workspace.size) (hFree : workspace.parent? child = none) :
    workspace.checkAttach node child =
      if child ∈ workspace.lineage node then .error (.wouldCycle node child) else .ok () := by
  obtain ⟨block, hBlock⟩ := exists_block?_iff.mpr hNode
  obtain ⟨childBlock, hChildBlock⟩ := exists_block?_iff.mpr hChild
  rw [parent?_of_block? hChildBlock] at hFree
  simp only [checkAttach, hBlock, hChildBlock, hFree]

theorem Forest.walksEnd (hForest : workspace.Forest) (hNode : node < workspace.size) :
    workspace.WalksEnd node where
  climb child := by
    have hUp (node above : NodeId) (hStep : workspace.climbStep? child node = some above) :
        workspace.IsParent above node := isParent_of_climbStep? hStep
    obtain ⟨visited, hEnds⟩ := hForest.exists_endsWithin_up hUp hNode
    refine ⟨visited, hEnds, fun hChild hFree => ?_⟩
    simp only [checkAttach_of_free hNode hChild hFree, hForest.mem_walk_iff hEnds.walk]
  outward := by
    obtain ⟨visited, hEnds⟩ := hForest.exists_endsWithin_up
      (fun _ _ => isParent_of_outwardStep?) hNode
    exact ⟨visited, hEnds, hForest.enclosing?_of_walk hEnds.walk⟩
  chain := by
    obtain ⟨visited, hEnds⟩ := hForest.exists_endsWithin_next hNode
    exact ⟨visited, hEnds, fun limit hLimit =>
      View.chain_of_walk hEnds.walk (hEnds.length_le.trans hLimit)⟩
  member vocabulary globals holder := by
    have hUp (node above : NodeId)
        (hStep : workspace.view.memberStep? holder node = some above) :
        workspace.IsParent above node := isParent_of_memberStep? hStep
    obtain ⟨visited, hEnds⟩ := hForest.exists_endsWithin_up hUp hNode
    exact ⟨visited, hEnds, fun limit hLimit =>
      Scope.chainMember?_of_walk hEnds.walk (hEnds.length_le.trans hLimit)⟩

theorem Forest.sameUpTo (hForest : workspace.Forest) (hNode : node < workspace.size)
    (hLimit : workspace.size ≤ limit) : workspace.SameUpTo limit vocabulary options node where
  readChain := hForest.readChain_further hLimit hNode
  readStatement := hForest.readStatement_further hLimit hNode
  readExpression := hForest.readExpression_further hLimit hNode
  readPhases := hForest.readPhases_further hLimit
  bindings category member? :=
    Scope.bindings_further (.ofView workspace.view vocabulary options.globals)
      (.ofView (workspace.viewUpTo limit) vocabulary options.globals) hForest hLimit rfl rfl rfl
      category node member?
  names := Scope.names_further _ _ hForest hLimit rfl rfl rfl (hForest.globals_further hLimit) hNode

/-- **Every walk ends, and no limit is ever reached.** After any commands the walks from a block
end, visit no block twice and no more blocks than there are; and reading and finding names give the
same whatever higher limit takes the place of the number of blocks. -/
theorem run_walks_end (commands : List Command) (node : NodeId)
    (hNode : node < (run commands).size) :
    (run commands).WalksEnd node ∧
      ∀ limit, (run commands).size ≤ limit → ∀ vocabulary options,
        (run commands).SameUpTo limit vocabulary options node :=
  ⟨(Forest.run commands).walksEnd hNode, fun _ hLimit _ _ =>
    (Forest.run commands).sameUpTo hNode hLimit⟩

/-- All blocks stand in one chain. -/
def singleChain : List Command :=
  [.edit (.create BlockKind.enterPhase.tag), .edit (.create BlockKind.enterPhase.tag),
    .edit (.create BlockKind.enterPhase.tag), .edit (.attach ⟨0, .next⟩ 1),
    .edit (.attach ⟨1, .next⟩ 2)]

theorem singleChain_walks_end :
    0 < (run singleChain).size ∧
      (run singleChain).view.chain (run singleChain).size (some 0) = (run singleChain).nodes ∧
      (run singleChain).WalksEnd 0 ∧
      ∀ limit, (run singleChain).size ≤ limit → ∀ vocabulary options,
        (run singleChain).SameUpTo limit vocabulary options 0 :=
  ⟨by decide, by decide, run_walks_end singleChain 0 (by decide)⟩

end Workspace

end RuleBlocks
