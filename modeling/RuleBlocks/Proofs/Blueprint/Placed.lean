import RuleBlocks.Proofs.Blueprint.Insert
import RuleBlocks.Proofs.Blueprint.NormalForm

/-!
# Inserting into a workspace with blocks

A statement is inserted just if its place is there and free before the first of its blocks is made
(`run_insertChain_statement`). A place at a block that is still to be made is never free: the first
block is finished, with all that stands inside it, before it is attached, so by then such a place is
either unknown or stands below that very block (`Forest.attach_ne_ok`).

Every new block but the first is attached to an earlier new one (`HangInside`). So whatever comes of
it, an old block changes only by taking the first new one.
-/

namespace RuleBlocks

namespace Blueprint

variable {start free : Nat} {block : Block} {blocks first second : List Block}

/-! ## Where new blocks hang -/

/-- The blocks of a list, numbered from `free` on, are attached to blocks that come before them, but
not before `start`. -/
def HangInside (start free : Nat) (blocks : List Block) : Prop :=
  ∀ index block, blocks[index]? = some block →
    ∃ link, block.parent? = some link ∧ start ≤ link.node ∧ link.node < free + index

theorem hangInside_nil : HangInside start free [] := nofun

theorem hangInside_append (hFirst : HangInside start free first)
    (hSecond : HangInside start (free + first.length) second) :
    HangInside start free (first ++ second) := by
  intro index block hBlock
  rw [List.getElem?_append] at hBlock
  split at hBlock
  · exact hFirst index block hBlock
  · obtain ⟨link, hLink, hLower, hUpper⟩ := hSecond _ block hBlock
    exact ⟨link, hLink, hLower, by omega⟩

theorem hangInside_cons {link : ParentLink} (hLink : block.parent? = some link)
    (hLower : start ≤ link.node) (hUpper : link.node < free)
    (hRest : HangInside start (free + 1) blocks) : HangInside start free (block :: blocks) := by
  have hFirst : HangInside start free [block] := by
    intro index inner hInner
    obtain ⟨rfl, rfl⟩ : index = 0 ∧ block = inner := by
      simpa [List.getElem?_singleton] using hInner
    exact ⟨link, hLink, hLower, hUpper⟩
  exact hangInside_append hFirst hRest

mutual

theorem layout_hangInside (node : Nat) (next? : Option NodeId) {link : ParentLink}
    (hLower : start ≤ link.node) (hUpper : link.node < node) :
    ∀ blueprint, HangInside start node (layout node (some link) next? blueprint)
  | block kind fields sockets => by
    rw [layout]
    have hNode : start ≤ node := Nat.le_of_lt (Nat.lt_of_le_of_lt hLower hUpper)
    exact hangInside_cons rfl hLower hUpper
      (socketsLayout_hangInside node (node + 1) (Nat.lt_succ_self node) hNode sockets)

theorem socketsLayout_hangInside (node free : Nat) (hNode : node < free) (hLower : start ≤ node) :
    ∀ sockets, HangInside start free (socketsLayout node free sockets)
  | [] => hangInside_nil
  | socket :: sockets => by
    rw [socketsLayout]
    refine hangInside_append (socketLayout_hangInside node free hNode hLower socket) ?_
    rw [length_socketLayout]
    exact socketsLayout_hangInside node _ (Nat.lt_add_right _ hNode) hLower sockets

theorem socketLayout_hangInside (node free : Nat) (hNode : node < free) (hLower : start ≤ node) :
    ∀ socket, HangInside start free (socketLayout node free socket)
  | .value input inner => by
    rw [socketLayout]
    exact layout_hangInside free none hLower hNode inner
  | .body input chain | .parts input chain => by
    rw [socketLayout]
    exact chainLayout_hangInside free _ hLower hNode chain

theorem chainLayout_hangInside (free : Nat) (link : ParentLink) (hLower : start ≤ link.node)
    (hUpper : link.node < free) :
    ∀ chain, HangInside start free (chainLayout free (some link) chain)
  | [] => hangInside_nil
  | first :: rest => by
    rw [chainLayout]
    refine hangInside_append (layout_hangInside free _ hLower hUpper first) ?_
    rw [length_layout]
    have hFree : start ≤ free := Nat.le_of_lt (Nat.lt_of_le_of_lt hLower hUpper)
    exact chainLayout_hangInside (free + first.size) ⟨free, .next⟩ hFree
      (Nat.lt_add_of_pos_right first.size_pos) rest

end

/-- Only the first block of a chain is attached to something outside. -/
theorem chainLayout_eq_cons (free : Nat) (link? : Option ParentLink) (first : Blueprint)
    (rest : List Blueprint) :
    ∃ head tail, chainLayout free link? (first :: rest) = head :: tail ∧ head.parent? = link? ∧
      HangInside free (free + 1) tail := by
  obtain ⟨kind, fields, sockets⟩ := first
  have hSockets :=
    socketsLayout_hangInside free (free + 1) (Nat.lt_succ_self free) (Nat.le_refl free) sockets
  have hRest : HangInside free (free + (block kind fields sockets).size)
      (chainLayout (free + (block kind fields sockets).size) (some ⟨free, .next⟩) rest) :=
    chainLayout_hangInside _ ⟨free, .next⟩ (Nat.le_refl free)
      (Nat.lt_add_of_pos_right (block kind fields sockets).size_pos) rest
  rw [chainLayout, layout, List.cons_append]
  refine ⟨_, _, rfl, rfl, hangInside_append hSockets ?_⟩
  rwa [length_socketsLayout, Nat.add_assoc, Nat.add_comm 1]

end Blueprint

namespace Workspace

open Blueprint Relation

variable {workspace changed : Workspace} {node : NodeId} {free : Nat} {link? : Option ParentLink}
variable {chain : List Blueprint} {blocks : List Block}

/-- Blocks that hang inside a block stand below it. -/
theorem reaches_of_hangInside (hBlocks : workspace.BlocksAt (free + 1) blocks)
    (hInside : HangInside free (free + 1) blocks) {index : Nat} (hIndex : index < blocks.length) :
    ReflTransGen workspace.IsParent free (free + 1 + index) := by
  induction index using Nat.strongRecOn with
  | ind index ih =>
    obtain ⟨link, hLink, hLower, hUpper⟩ :=
      hInside index _ (List.getElem?_eq_getElem hIndex)
    have hBlock := (hBlocks index hIndex).trans (List.getElem?_eq_getElem hIndex)
    have hParent : workspace.IsParent link.node (free + 1 + index) :=
      isParent_of_parent? ((parent?_of_block? hBlock).trans hLink)
    rcases Nat.eq_or_lt_of_le hLower with hFirst | hLater
    · rw [← hFirst] at hParent
      exact .single hParent
    · obtain ⟨before, hBefore⟩ := Nat.exists_eq_add_of_lt hLater
      have hAbove := ih before (by omega) (by omega)
      rw [show free + 1 + before = link.node by omega] at hAbove
      exact hAbove.tail hParent

/-! ## A place that is not free -/

/-- All blocks of a blueprint stand below the first of them. -/
theorem Forest.mem_lineage_layout (hForest : workspace.Forest) {first : Blueprint} {node : Nat}
    (hDistinct : first.Distinct) (hLower : workspace.size ≤ node)
    (hUpper : node < (workspace.extend (layout workspace.size none none first)).size) :
    workspace.size ∈ (workspace.extend (layout workspace.size none none first)).lineage node := by
  have hChain : chainLayout workspace.size none [first] =
      layout workspace.size none none first := by
    rw [chainLayout, chainLayout, List.append_nil]
    rfl
  have hMade : (workspace.extend (chainLayout workspace.size none [first])).Forest :=
    hForest.extend_chainLayout ⟨hDistinct, trivial⟩
  obtain ⟨head, tail, hLayout, -, hInside⟩ := chainLayout_eq_cons workspace.size none first []
  rw [hLayout] at hMade hChain
  rw [← hChain] at hUpper ⊢
  have hTail : (workspace.extend (head :: tail)).BlocksAt (workspace.size + 1) tail :=
    blocksAt_extend.tail
  refine hMade.mem_lineage_iff.mpr ?_
  rcases Nat.eq_or_lt_of_le hLower with hFirst | hLater
  · rw [← hFirst]
  · obtain ⟨index, hIndex⟩ := Nat.exists_eq_add_of_lt hLater
    rw [size_extend, List.length_cons, hIndex] at hUpper
    have hReaches := reaches_of_hangInside hTail hInside (show index < tail.length by omega)
    rwa [hIndex, Nat.add_right_comm]

/-- The first new block cannot be attached to a place that was not free before it was made. -/
theorem Forest.attach_ne_ok (hForest : workspace.Forest) {first : Blueprint}
    (hDistinct : first.Distinct) {link : ParentLink} (hRoom : ¬ workspace.HasRoom (some link))
    (changed : Workspace) :
    (workspace.extend (layout workspace.size none none first)).attach link workspace.size ≠
      .ok changed := by
  intro hOk
  obtain ⟨-, hLineage, parent, hParent, hFree, -⟩ := attach_eq_ok_iff.mp hOk
  by_cases hOld : link.node < workspace.size
  · rw [block?_extend_of_lt hOld] at hParent
    exact hRoom ⟨parent, hParent, hFree⟩
  · -- the place belongs to the first new block or to one below it
    exact hLineage (hForest.mem_lineage_layout hDistinct (Nat.not_lt.mp hOld)
      (lt_size_of_block? hParent))

/-- A chain that is refused leaves the old blocks as they were. -/
theorem Forest.insertChain_of_not_hasRoom (hForest : workspace.Forest) {place : Place}
    (hRoom : ¬ workspace.HasRoom place.link?) {first : Blueprint} {rest : List Blueprint}
    (hEvery : chainEvery (fun _ inputs => inputs.Nodup) (first :: rest)) :
    ∃ error, EditableGraph.insertChain workspace place (first :: rest) =
      (workspace.extend (layout workspace.size none none first), .error error) := by
  cases hLink : place.link? with
  | none =>
    rw [hLink] at hRoom
    exact absurd trivial hRoom
  | some link =>
    rw [hLink] at hRoom
    have hSteps := carryOut_steps first hEvery.1 workspace hForest.closed workspace.size rfl
    cases hAttach : (workspace.extend (layout workspace.size none none first)).attach link
        workspace.size with
    | ok changed => exact absurd hAttach (hForest.attach_ne_ok hEvery.1 hRoom changed)
    | error cause =>
      let step : Step := ⟨.attach link workspace.size, ⟨workspace.size, none⟩⟩
      have hStep : EditableGraph.edit (workspace.extend (layout workspace.size none none first))
          step.edit = (_, .error cause) := edit_attach_error hAttach
      obtain ⟨error, hError⟩ := EditableGraph.carryOut_cons_error hStep
        (chainSteps (some ⟨workspace.size, .next⟩) (workspace.size + first.size) rest)
      have hCarryOut : EditableGraph.carryOut workspace
          (chainSteps (some link) workspace.size (first :: rest)) =
            (workspace.extend (layout workspace.size none none first), .error error) := by
        rw [chainSteps, List.append_assoc, EditableGraph.carryOut_append_ok hSteps]
        exact hError
      have hSize : (EditableGraph.view workspace).size = workspace.size := size_view
      refine ⟨error, ?_⟩
      rw [EditableGraph.insertChain, hSize, hLink]
      simp only [hCarryOut]
      rfl

/-! ## A place that is free -/

/-- A chain of new blocks was put into a place. -/
structure ChainInserted (before after : Workspace) (link? : Option ParentLink) (last : NodeId) :
    Prop where
  /-- An old block changes only by taking the first new one. -/
  old : ∀ node < before.size,
    after.block? node = (before.receive before.size link?).block? node
  /-- The new blocks are numbered after the old ones. -/
  nodes : ∃ count, 0 < count ∧ after.nodes = before.nodes ++ List.range' before.size count
  /-- The first new block is attached to the place. -/
  first : after.parent? before.size = link?
  /-- Every other new block is attached to an earlier new one. -/
  inside : ∀ node, before.size < node → node < after.size →
    ∃ link, after.parent? node = some link ∧ before.size ≤ link.node ∧ link.node < node
  /-- The chain of the first new block ends with the last one. -/
  chain : (after.view.chain after.size (some before.size)).getLast? = some last
  last : after.view.next? last = none

/-- The last member of a chain has no next one. -/
theorem Hangs.next?_of_getLast? (h : workspace.Hangs free link? chain) {last : NodeId}
    (hLast : (chainNodes free chain).getLast? = some last) : workspace.view.next? last = none := by
  induction chain generalizing free link? with
  | nil => cases hLast
  | cons first rest ih =>
    obtain ⟨-, hNext, hRest⟩ := h.first
    cases rest with
    | nil =>
      cases hLast
      exact hNext
    | cons second rest =>
      rw [chainNodes, chainNodes, List.getLast?_cons_cons] at hLast
      exact ih hRest (by rw [chainNodes, hLast])

theorem Forest.chainInserted (hForest : workspace.Forest) {first : Blueprint}
    {rest : List Blueprint} (hEvery : chainEvery (fun _ inputs => inputs.Nodup) (first :: rest))
    (hChanged : changed.Forest)
    (hEq : changed = (workspace.receive workspace.size link?).extend
      (chainLayout workspace.size link? (first :: rest)))
    {last : NodeId} (hLast : (chainNodes workspace.size (first :: rest)).getLast? = some last) :
    workspace.ChainInserted changed link? last := by
  have hSize : changed.size = workspace.size + chainSize (first :: rest) := by
    rw [hEq, size_extend, size_receive, length_chainLayout]
  have hBlocks : changed.BlocksAt workspace.size
      (chainLayout workspace.size link? (first :: rest)) := by
    rw [hEq]
    exact blocksAt_receive_extend
  have hHangs : changed.Hangs workspace.size link? (first :: rest) := ⟨hEvery, hBlocks⟩
  have hPos : 0 < chainSize (first :: rest) :=
    Nat.lt_of_lt_of_le (Nat.succ_pos _) (length_le_chainSize (first :: rest))
  refine ⟨fun node hNode => ?_, ⟨chainSize (first :: rest), hPos, ?_⟩, hHangs.first.1,
    fun node hLower hUpper => ?_, ?_, hHangs.next?_of_getLast? hLast⟩
  · rw [hEq, block?_receive_extend hNode]
  · have hNew : List.range' workspace.size (chainSize (first :: rest)) =
        (List.range (chainSize (first :: rest))).map (workspace.size + ·) :=
      List.range'_eq_map_range ..
    rw [hChanged.nodes_eq, hForest.nodes_eq, hSize, List.range_add, hNew]
  · obtain ⟨head, tail, hLayout, -, hInside⟩ :=
      chainLayout_eq_cons workspace.size link? first rest
    have hLength := congrArg List.length hLayout
    rw [length_chainLayout, List.length_cons] at hLength
    obtain ⟨index, hIndex⟩ := Nat.exists_eq_add_of_lt hLower
    rw [hLayout] at hBlocks
    have hFound := hBlocks.tail index (by omega)
    rw [List.getElem?_eq_getElem (by omega)] at hFound
    obtain ⟨link, hLink, hBounds⟩ := hInside index _ (List.getElem?_eq_getElem (by omega))
    rw [show workspace.size + 1 + index = node by omega] at hFound hBounds
    exact ⟨link, (parent?_of_block? hFound).trans hLink, hBounds⟩
  · have hLimit : (first :: rest).length ≤ changed.size := by
      have hLength := length_le_chainSize (first :: rest)
      omega
    have hChain := hHangs.chain_eq hLimit
    rw [chainNodes, List.head?_cons] at hChain
    rw [hChain, ← chainNodes, hLast]

/-! ## Statements -/

/-- **A statement is inserted just where there is room, and nothing else changes.** After any run of
commands, a statement that stands for nothing makes no block, whatever the place. Any other one is
inserted just if its place is nowhere in particular, or free at a block that exists. Then the new
blocks come after the old ones, each attached to an earlier new one, except for the first: that one
is attached to the place, which is all that changes for the old blocks, and it starts the chain that
ends with the answered block. If the statement is refused, all old blocks are as before. -/
theorem run_insertChain_statement (commands : List Command) (statement : Statement)
    (place : Place) :
    let workspace := run commands
    let inserted := EditableGraph.insertChain workspace place statement.blueprints
    (statement.normalForm = .empty → inserted = (workspace, .ok none)) ∧
      (statement.normalForm ≠ .empty →
        ((∃ last?, inserted.2 = .ok last?) ↔ workspace.HasRoom place.link?) ∧
          (∀ last?, inserted.2 = .ok last? → ∃ last, last? = some last ∧
            workspace.ChainInserted inserted.1 place.link? last) ∧
          ∀ error, inserted.2 = .error error →
            ∀ node < workspace.size, inserted.1.block? node = workspace.block? node) := by
  intro workspace inserted
  have hForest : workspace.Forest := Forest.run commands
  have hEvery := chainEvery_distinct statement.every_blueprints
  have hNothing : statement.blueprints = [] ↔ statement.normalForm = .empty :=
    statement.blueprints_eq_iff .empty
  rw [← hNothing, ne_eq, ← hNothing]
  have hInserted : inserted = EditableGraph.insertChain workspace place statement.blueprints := rfl
  have hChanged : inserted.1.Forest := hForest.carryOut _
  cases hChain : statement.blueprints with
  | nil =>
    rw [hChain] at hInserted
    exact ⟨fun _ => hInserted, fun hNe => absurd rfl hNe⟩
  | cons first rest =>
    rw [hChain] at hInserted hEvery
    refine ⟨nofun, fun _ => ?_⟩
    by_cases hRoom : workspace.HasRoom place.link?
    · rw [hForest.insertChain_of_hasRoom _ hRoom hEvery, if_neg (List.cons_ne_nil _ _)] at hInserted
      rw [hInserted] at hChanged ⊢
      refine ⟨iff_of_true ⟨_, rfl⟩ hRoom, ?_, nofun⟩
      rintro last? ⟨⟩
      have hSome := List.getLast?_eq_some_getLast
        (show chainNodes workspace.size (first :: rest) ≠ [] from List.cons_ne_nil _ _)
      exact ⟨_, hSome, hForest.chainInserted hEvery hChanged rfl hSome⟩
    · obtain ⟨error, hRefused⟩ := hForest.insertChain_of_not_hasRoom hRoom hEvery
      rw [hRefused] at hInserted
      rw [hInserted]
      refine ⟨iff_of_false (fun ⟨_, hOk⟩ => nomatch hOk) hRoom, nofun, ?_⟩
      exact fun _ _ node hNode => block?_extend_of_lt hNode

-- the place is in the block that is made first
example :
    (EditableGraph.insertChain empty (.after 0) (Statement.enterPhase "draw").blueprints).2 =
      .error ⟨BlockKind.enterPhase.tag, 0, .wouldCycle 0 0⟩ := by decide

end Workspace

end RuleBlocks
