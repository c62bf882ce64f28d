import RuleBlocks.Proofs.Blueprint.Layout
import RuleBlocks.Proofs.NameMap
import RuleBlocks.Proofs.Workspace.Change

/-!
# Drawn blueprints

A blueprint is drawn in a workspace if the blocks of its layout stand there, whatever the first of
them is attached to. From outside it can then be seen what kind of block it is (`Drawn.tag?`), what
its fields hold (`Drawn.field?`), and what is drawn in its inputs (`Drawn.sockets`). A chain that
hangs from a link has just the members of its blueprints (`Hangs.chain_eq`).
-/

namespace RuleBlocks.Workspace

open Blueprint

/-- The blocks of a list stand in a workspace from a number on. -/
def BlocksAt (workspace : Workspace) (free : Nat) (blocks : List Block) : Prop :=
  ∀ index, index < blocks.length → workspace.block? (free + index) = blocks[index]?

namespace BlocksAt

variable {workspace : Workspace} {free : Nat} {block : Block} {blocks first second : List Block}

theorem head (h : workspace.BlocksAt free (block :: blocks)) :
    workspace.block? free = some block := h 0 (Nat.zero_lt_succ _)

theorem append_left (h : workspace.BlocksAt free (first ++ second)) :
    workspace.BlocksAt free first := by
  intro index hIndex
  have hLength : index < (first ++ second).length := by
    rw [List.length_append]
    omega
  exact (h index hLength).trans (List.getElem?_append_left hIndex)

theorem append_right (h : workspace.BlocksAt free (first ++ second)) :
    workspace.BlocksAt (free + first.length) second := by
  intro index hIndex
  have hLength : first.length + index < (first ++ second).length := by
    rw [List.length_append]
    omega
  have hBlock := h (first.length + index) hLength
  rw [List.getElem?_append_right (Nat.le_add_right _ _), Nat.add_sub_cancel_left] at hBlock
  rw [Nat.add_assoc, hBlock]

theorem tail (h : workspace.BlocksAt free (block :: blocks)) :
    workspace.BlocksAt (free + 1) blocks := by
  have hSplit : workspace.BlocksAt free ([block] ++ blocks) := h
  exact hSplit.append_right

theorem length_le_size (h : workspace.BlocksAt free blocks) : blocks.length ≤ workspace.size := by
  cases blocks with
  | nil => exact Nat.zero_le _
  | cons block rest =>
    have hLast : rest.length < (block :: rest).length := Nat.lt_succ_self _
    have hBlock := h rest.length hLast
    rw [List.getElem?_eq_getElem hLast] at hBlock
    have hLt : free + rest.length < workspace.size := lt_size_of_block? hBlock
    rw [List.length_cons]
    omega

end BlocksAt

/-- The blocks of a blueprint stand in a workspace from a number on. -/
def Drawn (workspace : Workspace) (node : NodeId) (blueprint : Blueprint) : Prop :=
  blueprint.Distinct ∧
    ∃ parent? next?, workspace.BlocksAt node (layout node parent? next? blueprint)

/-- The blueprints of a list are drawn one after the other. -/
def ChainDrawn (workspace : Workspace) : Nat → List Blueprint → Prop
  | _, [] => True
  | free, first :: rest =>
    workspace.Drawn free first ∧ workspace.ChainDrawn (free + first.size) rest

/-- The blueprints of a list are drawn as a chain that is attached by a link. -/
def Hangs (workspace : Workspace) (free : NodeId) (link? : Option ParentLink)
    (chain : List Blueprint) : Prop :=
  chainEvery (fun _ inputs => inputs.Nodup) chain ∧
    workspace.BlocksAt free (chainLayout free link? chain)

/-- What is to stand in an input of a block is drawn there, from a number on. -/
def SocketDrawn (workspace : Workspace) (node free : NodeId) : SocketOf Blueprint → Prop
  | .value input inner =>
    workspace.view.input? node input = some free ∧
      workspace.parent? free = some ⟨node, .value input⟩ ∧ workspace.Drawn free inner
  | .body input chain | .parts input chain =>
    workspace.view.input? node input = (chainNodes free chain).head? ∧
      workspace.Hangs free (some ⟨node, .statement input⟩) chain

/-- What is to stand in the inputs of a block is drawn there. -/
def SocketsDrawn (workspace : Workspace) (node : NodeId) : Nat → List (SocketOf Blueprint) → Prop
  | _, [] => True
  | free, socket :: sockets =>
    workspace.SocketDrawn node free socket ∧
      workspace.SocketsDrawn node (free + socketSize socket) sockets

variable {workspace : Workspace} {node : NodeId} {free : Nat} {link? : Option ParentLink}

/-! ## Chains -/

theorem chainDrawn_append {first second : List Blueprint} :
    workspace.ChainDrawn free (first ++ second) ↔
      workspace.ChainDrawn free first ∧ workspace.ChainDrawn (free + chainSize first) second := by
  induction first generalizing free with
  | nil => simp [ChainDrawn, chainSize]
  | cons blueprint rest ih =>
    rw [List.cons_append, ChainDrawn, ChainDrawn, ih, chainSize, Nat.add_assoc, and_assoc]

namespace Hangs

variable {chain : List Blueprint}

theorem chainDrawn (h : workspace.Hangs free link? chain) : workspace.ChainDrawn free chain := by
  obtain ⟨hEvery, hBlocks⟩ := h
  induction chain generalizing free link? with
  | nil => trivial
  | cons first rest ih =>
    rw [chainLayout] at hBlocks
    have hRest := hBlocks.append_right
    rw [length_layout] at hRest
    exact ⟨⟨hEvery.1, _, _, hBlocks.append_left⟩, ih hEvery.2 hRest⟩

theorem size_le (h : workspace.Hangs free link? chain) : chainSize chain ≤ workspace.size := by
  have hLength := h.2.length_le_size
  rwa [length_chainLayout] at hLength

/-- The first member of a chain and how it is attached. -/
theorem first {first : Blueprint} {rest : List Blueprint}
    (h : workspace.Hangs free link? (first :: rest)) :
    workspace.parent? free = link? ∧
      workspace.view.next? free = (chainNodes (free + first.size) rest).head? ∧
      workspace.Hangs (free + first.size) (some ⟨free, .next⟩) rest := by
  obtain ⟨hEvery, hBlocks⟩ := h
  rw [chainLayout] at hBlocks
  have hRest := hBlocks.append_right
  rw [length_layout] at hRest
  obtain ⟨head, tail, hLayout⟩ := layout_eq_cons free first
  have hFirst := hBlocks.append_left
  rw [hLayout] at hFirst
  have hBlock := hFirst.head
  refine ⟨parent?_of_block? hBlock, ?_, hEvery.2, hRest⟩
  show (workspace.block? free).bind Block.next? = _
  rw [hBlock, ← follower?_eq]
  rfl

/-- Going from block to block one meets just the members of a chain. -/
theorem chain_eq (h : workspace.Hangs free link? chain) {limit : Nat}
    (hLimit : chain.length ≤ limit) :
    workspace.view.chain limit (chainNodes free chain).head? = chainNodes free chain := by
  induction chain generalizing free link? limit with
  | nil => cases limit <;> rfl
  | cons first rest ih =>
    obtain ⟨limit, rfl⟩ : ∃ more, limit = more + 1 :=
      ⟨limit - 1, by rw [List.length_cons] at hLimit; omega⟩
    obtain ⟨-, hNext, hRest⟩ := h.first
    rw [chainNodes, List.head?_cons, View.chain, hNext, ih hRest (Nat.le_of_succ_le_succ hLimit)]

/-- What holds of the first member of a chain and passes from each member to the next holds of
all. -/
theorem forall_mem {P : NodeId → Prop} (h : workspace.Hangs free link? chain)
    (hFirst : ∀ member, workspace.parent? member = link? → P member)
    (hNext : ∀ previous member, P previous →
      workspace.parent? member = some ⟨previous, .next⟩ → P member) :
    ∀ member ∈ chainNodes free chain, P member := by
  induction chain generalizing free link? with
  | nil => nofun
  | cons first rest ih =>
    obtain ⟨hParent, -, hRest⟩ := h.first
    intro member hMem
    rcases List.mem_cons.mp hMem with rfl | hMem
    · exact hFirst _ hParent
    · exact ih hRest (fun other hOther => hNext _ _ (hFirst _ hParent) hOther) member hMem

end Hangs

/-! ## Single blocks -/

namespace Drawn

variable {kind : BlockKind} {fields : List (String × String)} {sockets : List (SocketOf Blueprint)}

theorem exists_block (h : workspace.Drawn node (.block kind fields sockets)) :
    ∃ next? parent?, workspace.block? node =
      some ⟨node, kind.tag, NameMap.ofList fields, connections (node + 1) sockets, next?, parent?⟩ ∧
      workspace.BlocksAt (node + 1) (socketsLayout node (node + 1) sockets) := by
  obtain ⟨-, parent?, next?, hBlocks⟩ := h
  rw [layout] at hBlocks
  exact ⟨next?, parent?, hBlocks.head, hBlocks.tail⟩

theorem tag? (h : workspace.Drawn node (.block kind fields sockets)) :
    workspace.view.tag? node = some kind.tag := by
  obtain ⟨_, _, hBlock, -⟩ := h.exists_block
  show (workspace.block? node).map Block.tag = _
  rw [hBlock]
  rfl

theorem field? (h : workspace.Drawn node (.block kind fields sockets)) {field text : String}
    (hFields : (fields.map Prod.fst).Nodup) (hField : (field, text) ∈ fields) :
    workspace.view.field? node field = some text := by
  obtain ⟨_, _, hBlock, -⟩ := h.exists_block
  show (workspace.block? node).bind (fun block => block.fields.get? field) = _
  rw [hBlock]
  exact NameMap.get?_ofList hFields hField

end Drawn

/-! ## Inputs -/

/-- A connection is found by its input among connections of other inputs. -/
theorem input?_of_connections {socket : SocketOf Blueprint} {before after : List Connection}
    {holder : Block} (hHolder : workspace.block? node = some holder)
    (hInputs : holder.inputs = before ++ socketConnections free socket ++ after)
    (hBefore : socket.input ∉ before.map Connection.input)
    (hAfter : socket.input ∉ after.map Connection.input) :
    workspace.view.input? node socket.input =
      ((socketConnections free socket).head?).map Connection.target := by
  have hNone : ∀ {others : List Connection}, socket.input ∉ others.map Connection.input →
      (others.find? fun connection => connection.input = socket.input) = none := by
    intro others hOthers
    refine List.find?_eq_none.mpr fun connection hMem hEq => hOthers ?_
    exact List.mem_map.mpr ⟨connection, hMem, by simpa using hEq⟩
  show (workspace.block? node).bind (fun block =>
    (block.connection? socket.input).map Connection.target) = _
  rw [hHolder, Option.bind_some, Block.connection?, hInputs, List.find?_append, List.find?_append,
    hNone hBefore, hNone hAfter, Option.none_or, Option.or_none]
  rcases socket with _ | ⟨_, _ | _⟩ | ⟨_, _ | _⟩ <;> simp [socketConnections, SocketOf.input]

theorem socketDrawn_of_blocksAt {socket : SocketOf Blueprint}
    (hInput : workspace.view.input? node socket.input =
      ((socketConnections free socket).head?).map Connection.target)
    (hEvery : socketEvery (fun _ inputs => inputs.Nodup) socket)
    (hBlocks : workspace.BlocksAt free (socketLayout node free socket)) :
    workspace.SocketDrawn node free socket := by
  cases socket with
  | value input inner =>
    rw [socketLayout] at hBlocks
    have hInner : workspace.Drawn free inner := ⟨hEvery, _, _, hBlocks⟩
    obtain ⟨head, tail, hLayout⟩ := layout_eq_cons free inner
    rw [hLayout] at hBlocks
    exact ⟨hInput, parent?_of_block? hBlocks.head, hInner⟩
  | body input chain | parts input chain =>
    rw [socketLayout] at hBlocks
    refine ⟨?_, hEvery, hBlocks⟩
    cases chain <;> exact hInput

theorem socketsDrawn_of_connections {sockets : List (SocketOf Blueprint)}
    {before : List Connection} {holder : Block} (hHolder : workspace.block? node = some holder)
    (hInputs : holder.inputs = before ++ connections free sockets)
    (hBefore : ∀ socket ∈ sockets, socket.input ∉ before.map Connection.input)
    (hNames : (sockets.map SocketOf.input).Nodup)
    (hEvery : socketsEvery (fun _ inputs => inputs.Nodup) sockets)
    (hBlocks : workspace.BlocksAt free (socketsLayout node free sockets)) :
    workspace.SocketsDrawn node free sockets := by
  induction sockets generalizing free before with
  | nil => trivial
  | cons socket sockets ih =>
    obtain ⟨hFresh, hNames⟩ := List.nodup_cons.mp hNames
    rw [socketsLayout] at hBlocks
    have hRest := hBlocks.append_right
    rw [length_socketLayout] at hRest
    rw [connections, ← List.append_assoc] at hInputs
    have hInput := input?_of_connections hHolder hInputs (hBefore socket List.mem_cons_self)
      fun hMem => hFresh (connections_input hMem)
    refine ⟨socketDrawn_of_blocksAt hInput hEvery.1 hBlocks.append_left,
      ih hInputs (fun other hOther hMem => ?_) hNames hEvery.2 hRest⟩
    rw [List.map_append, List.mem_append] at hMem
    rcases hMem with hOld | hNew
    · exact hBefore other (List.mem_cons_of_mem _ hOther) hOld
    · exact hFresh (List.mem_map.mpr ⟨other, hOther, socketConnections_input hNew⟩)

/-- What is to stand in the inputs of a block is drawn there. -/
theorem Drawn.sockets {kind : BlockKind} {fields : List (String × String)}
    {sockets : List (SocketOf Blueprint)}
    (h : workspace.Drawn node (.block kind fields sockets)) :
    workspace.SocketsDrawn node (node + 1) sockets := by
  obtain ⟨_, _, hBlock, hRest⟩ := h.exists_block
  have hNothing : ∀ socket ∈ sockets, socket.input ∉ ([] : List Connection).map Connection.input :=
    fun _ _ => List.not_mem_nil
  exact socketsDrawn_of_connections hBlock rfl hNothing h.1.1 h.1.2 hRest

end RuleBlocks.Workspace
