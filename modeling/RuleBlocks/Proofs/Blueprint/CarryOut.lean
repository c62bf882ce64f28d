import RuleBlocks.Blueprint.Plan
import RuleBlocks.Proofs.Blueprint.Layout
import RuleBlocks.Proofs.Workspace.Extend

/-!
# Carrying out a plan

A plan that is carried out in a workspace makes just the layout of its blueprint: nothing is
refused, the new blocks come after the old ones, and of the old ones only that block changes to
which the first new one is attached. The main statements are `carryOut_steps` for a single block and
`carryOut_chainSteps` for a chain.

The parts of an offer are made first and put next to one another afterwards; `carryOut_linkSteps`
says that this comes to the same as putting each of them into place at once.
-/

namespace RuleBlocks

namespace EditableGraph

variable {Graph : Type} [EditableGraph Graph] {graph changed : Graph}

theorem carryOut_cons_ok {step : Step} (h : edit graph step.edit = (changed, .ok ()))
    (steps : List Step) : carryOut graph (step :: steps) = carryOut changed steps := by
  rw [carryOut, h]

theorem carryOut_cons_error {step : Step} {cause : GraphError}
    (h : edit graph step.edit = (changed, .error cause)) (steps : List Step) :
    ∃ error, carryOut graph (step :: steps) = (changed, .error error) := by
  rw [carryOut, h]
  exact ⟨_, rfl⟩

theorem carryOut_append_ok {first : List Step} (h : carryOut graph first = (changed, .ok ()))
    (second : List Step) : carryOut graph (first ++ second) = carryOut changed second := by
  induction first generalizing graph with
  | nil =>
    cases h
    rfl
  | cons step steps ih =>
    rw [List.cons_append]
    rw [carryOut] at h ⊢
    cases hEdit : edit graph step.edit with
    | mk next result =>
      rw [hEdit] at h
      cases result with
      | ok _ => exact ih h
      | error _ => cases h

theorem carryOut_append_error {first : List Step} {error : BuildError}
    (h : carryOut graph first = (changed, .error error)) (second : List Step) :
    carryOut graph (first ++ second) = (changed, .error error) := by
  induction first generalizing graph with
  | nil => cases h
  | cons step steps ih =>
    rw [List.cons_append]
    rw [carryOut] at h ⊢
    cases hEdit : edit graph step.edit with
    | mk next result =>
      rw [hEdit] at h
      cases result with
      | ok _ => exact ih h
      | error _ => exact h

end EditableGraph

namespace Workspace

variable {workspace changed : Workspace} {node child : NodeId}

theorem edit_setField_ok (field text : String) (h : node < workspace.size) :
    EditableGraph.edit workspace (.setField node field text) =
      (workspace.modify node fun block => { block with fields := block.fields.insert field text },
        .ok ()) := by
  obtain ⟨block, hBlock⟩ := exists_block?_iff.mpr h
  show workspace.edit _ = _
  simp only [edit, setField, hBlock]

/-- The workspace in which the place that a link names holds a child. -/
def receive (workspace : Workspace) (child : NodeId) : Option ParentLink → Workspace
  | none => workspace
  | some link => workspace.modify link.node (·.put child link.via)

/-- The place that a link names is there and free. -/
def HasRoom (workspace : Workspace) : Option ParentLink → Prop
  | none => True
  | some link => ∃ parent, workspace.block? link.node = some parent ∧ parent.IsFree link.via

@[simp] theorem size_receive (link? : Option ParentLink) :
    (workspace.receive child link?).size = workspace.size := by
  cases link? with
  | none => rfl
  | some link => exact size_modify _

theorem closed_receive (hClosed : workspace.Closed) (link? : Option ParentLink) :
    (workspace.receive child link?).Closed := by
  cases link? with
  | none => exact hClosed
  | some link => exact closed_modify hClosed fun _ => Block.parent?_put

theorem HasRoom.lt_size {link? : Option ParentLink} (hRoom : workspace.HasRoom link?) :
    ∀ link, link? = some link → link.node < workspace.size := by
  rintro link rfl
  obtain ⟨parent, hParent, -⟩ := hRoom
  exact lt_size_of_block? hParent

end Workspace

namespace Blueprint

open EditableGraph Workspace

variable {workspace : Workspace} {node free : NodeId} {link? : Option ParentLink}

theorem carryOut_setFields (blame : Blame) (fields : List (String × String))
    (hNode : node < workspace.size) :
    carryOut workspace
        (fields.map fun field => (⟨.setField node field.1 field.2, blame⟩ : Step)) =
      (workspace.modify node fun block => { block with
        fields := fields.foldl (fun map entry => map.insert entry.1 entry.2) block.fields },
        .ok ()) := by
  induction fields generalizing workspace with
  | nil =>
    have hSame : (workspace.modify node fun block => { block with
        fields := [].foldl (fun map (entry : String × String) => map.insert entry.1 entry.2)
          block.fields }) = workspace :=
      modify_eq_self fun _ _ => rfl
    rw [hSame]
    rfl
  | cons field fields ih =>
    rw [List.map_cons, carryOut_cons_ok (edit_setField_ok field.1 field.2 hNode),
      ih (by rwa [size_modify]), modify_modify]
    rfl

/-! ## Links between new blocks -/

variable {blueprint : Blueprint} {next? : Option NodeId}

theorem closed_extend_layout (hClosed : workspace.Closed) (hFree : workspace.size = free)
    (hLink : ∀ link, link? = some link → link.node < free) :
    (workspace.extend (layout free link? next? blueprint)).Closed := by
  refine closed_extend hClosed ?_
  rw [length_layout, hFree]
  exact layout_within free link? next? hLink blueprint

theorem receive_extend_layout (hFree : workspace.size = free) (child : NodeId) :
    (workspace.extend (layout free link? none blueprint)).receive child (some ⟨free, .next⟩) =
      workspace.extend (layout free link? (some child) blueprint) := by
  obtain ⟨head, tail, hLayout⟩ := layout_eq_cons free blueprint
  rw [receive, hLayout, hLayout, modify_extend_size hFree]
  rfl

theorem hasRoom_extend_layout (hFree : workspace.size = free) :
    (workspace.extend (layout free link? none blueprint)).HasRoom (some ⟨free, .next⟩) := by
  obtain ⟨head, tail, hLayout⟩ := layout_eq_cons free blueprint
  subst hFree
  refine ⟨{ head with next? := none, parent? := link? }, ?_, rfl⟩
  rw [hLayout]
  exact block?_extend_size

/-- The first block of a layout that is attached to nothing yet can be attached to any free place of
an older block. -/
theorem attach_layout (hClosed : workspace.Closed) (hFree : workspace.size = free)
    {link : ParentLink} (hRoom : workspace.HasRoom (some link)) (blueprint : Blueprint)
    (more : List Block) :
    (workspace.extend (layout free none none blueprint ++ more)).attach link free =
      .ok ((workspace.receive free (some link)).extend
        (layout free (some link) none blueprint ++ more)) := by
  obtain ⟨head, tail, hLayout⟩ := layout_eq_cons free blueprint
  obtain ⟨parent, hParent, hPlace⟩ := hRoom
  subst hFree
  rw [hLayout, hLayout, List.cons_append, List.cons_append]
  exact attach_extend hClosed hParent hPlace rfl

/-- The blocks of blueprints that are made one after the other without being attached. -/
def separateLayout (free : NodeId) : List Blueprint → List Block
  | [] => []
  | first :: rest => layout free none none first ++ separateLayout (free + first.size) rest

/-- Parts that are put next to one another after they were made form the same chain as parts that
are put into place at once. -/
theorem carryOut_linkSteps (first : Blueprint) (rest : List Blueprint) (hClosed : workspace.Closed)
    (hFree : workspace.size = free) (hLink : ∀ link, link? = some link → link.node < free) :
    carryOut (workspace.extend
        (layout free link? none first ++ separateLayout (free + first.size) rest))
        (linkSteps free (chainNodes (free + first.size) rest)) =
      (workspace.extend (chainLayout free link? (first :: rest)), .ok ()) := by
  induction rest generalizing workspace free link? first with
  | nil => rw [chainNodes, linkSteps, separateLayout, chainLayout, chainLayout]; rfl
  | cons second rest ih =>
    have hSize : (workspace.extend (layout free link? none first)).size = free + first.size := by
      rw [size_extend, length_layout, hFree]
    have hAttach := attach_layout (closed_extend_layout hClosed hFree hLink) hSize
      (hasRoom_extend_layout hFree) second
      (separateLayout (free + first.size + second.size) rest)
    rw [chainNodes, linkSteps, separateLayout, ← extend_extend,
      carryOut_cons_ok (edit_attach_ok hAttach), receive_extend_layout hFree,
      ih second (closed_extend_layout hClosed hFree hLink), extend_extend]
    · rfl
    · rw [size_extend, length_layout, hFree]
    · rintro link ⟨⟩
      exact Nat.lt_add_of_pos_right first.size_pos

theorem carryOut_partSteps (kind : BlockKind) (input : String) (chain : List Blueprint)
    (hClosed : workspace.Closed) (hFree : workspace.size = free) {block : Block}
    (hBlock : workspace.block? node = some block)
    (hPlace : input ∉ block.inputs.map Connection.input) :
    carryOut (workspace.extend (separateLayout free chain))
        (partSteps kind node input (chainNodes free chain)) =
      ((workspace.modify node fun block => { block with
        inputs := block.inputs ++ socketConnections free (.parts input chain) }).extend
        (chainLayout free (some ⟨node, .statement input⟩) chain), .ok ()) := by
  cases chain with
  | nil =>
    have hSame : (workspace.modify node fun block => { block with
        inputs := block.inputs ++ socketConnections free (.parts input []) }) = workspace :=
      modify_eq_self fun block _ => by rw [socketConnections, List.append_nil]
    rw [hSame]
    rfl
  | cons first rest =>
    have hRoom : workspace.HasRoom (some ⟨node, .statement input⟩) := ⟨block, hBlock, hPlace⟩
    rw [chainNodes, partSteps, separateLayout,
      carryOut_cons_ok (edit_attach_ok (attach_layout hClosed hFree hRoom first _)),
      carryOut_linkSteps first rest (closed_receive hClosed _)]
    · rfl
    · rw [size_receive, hFree]
    · exact hFree ▸ hRoom.lt_size

/-! ## Whole blueprints -/

mutual

/-- The plan of a blueprint makes the layout of the blueprint. -/
theorem carryOut_steps : ∀ (blueprint : Blueprint), blueprint.Distinct →
    ∀ (workspace : Workspace), workspace.Closed → ∀ node, workspace.size = node →
      carryOut workspace (steps node blueprint) =
        (workspace.extend (layout node none none blueprint), .ok ())
  | .block kind fields sockets, hDistinct, workspace, hClosed, node, hNode => by
    obtain ⟨hNames, hEvery⟩ := hDistinct
    have hCreate : EditableGraph.edit workspace (.create kind.tag) =
        (workspace.extend [Block.ofTag node kind.tag], .ok ()) := by
      rw [← hNode, ← create_eq_extend]
      rfl
    have hNew : node < (workspace.extend [Block.ofTag node kind.tag]).size := by
      rw [size_extend, hNode]
      exact Nat.lt_succ_self node
    let made : Block := ⟨node, kind.tag, NameMap.ofList fields, [], none, none⟩
    have hFields := carryOut_setFields ⟨node, some kind⟩ fields hNew
    rw [modify_extend_size hNode] at hFields
    have hMade : (workspace.extend [made]).block? node = some made := by
      rw [← hNode]
      exact block?_extend_size
    have hMadeClosed : (workspace.extend [made]).Closed := by
      refine closed_extend hClosed fun block hMem link hLink => ?_
      rw [List.mem_singleton] at hMem
      subst hMem
      cases hLink
    have hSockets := carryOut_socketsSteps kind sockets hEvery hNames _ hMadeClosed node (node + 1)
      (by rw [size_extend, hNode]; rfl) made hMade fun socket _ hMem => by cases hMem
    rw [modify_extend_size hNode, extend_extend] at hSockets
    rw [steps, carryOut_cons_ok hCreate, carryOut_append_ok hFields, layout]
    exact hSockets

theorem carryOut_socketsSteps (kind : BlockKind) : ∀ (sockets : List (SocketOf Blueprint)),
    socketsEvery (fun _ inputs => inputs.Nodup) sockets →
    (sockets.map SocketOf.input).Nodup →
    ∀ (workspace : Workspace), workspace.Closed → ∀ node free, workspace.size = free →
    ∀ holder, workspace.block? node = some holder →
    (∀ socket ∈ sockets, socket.input ∉ holder.inputs.map Connection.input) →
      carryOut workspace (socketsSteps kind node free sockets) =
        ((workspace.modify node fun block => { block with
          inputs := block.inputs ++ connections free sockets }).extend
          (socketsLayout node free sockets), .ok ())
  | [], _, _, workspace, _, node, free, _, _, _, _ => by
    have hSame : (workspace.modify node fun block => { block with
        inputs := block.inputs ++ connections free [] }) = workspace :=
      modify_eq_self fun block _ => by rw [connections, List.append_nil]
    rw [hSame, socketsLayout, extend_nil]
    rfl
  | socket :: sockets, hEvery, hNames, workspace, hClosed, node, free, hFree, holder, hHolder,
      hPlace => by
    obtain ⟨hFirst, hRest⟩ := hEvery
    obtain ⟨hFresh, hNames⟩ := List.nodup_cons.mp hNames
    have hLt := lt_size_of_block? hHolder
    have hStep := carryOut_socketSteps kind socket hFirst workspace hClosed node free hFree holder
      hHolder (hPlace socket List.mem_cons_self)
    let filled : Workspace := (workspace.modify node fun block => { block with
      inputs := block.inputs ++ socketConnections free socket }).extend
        (socketLayout node free socket)
    have hFilledSize : filled.size = free + socketSize socket := by
      rw [size_extend, size_modify, hFree, length_socketLayout]
    have hFilledClosed : filled.Closed := by
      refine closed_extend (closed_modify hClosed fun _ => rfl) ?_
      rw [size_modify, hFree, length_socketLayout]
      exact socketLayout_within node free (hFree ▸ hLt) socket
    have hFilled : filled.block? node = some { holder with
        inputs := holder.inputs ++ socketConnections free socket } := by
      rw [block?_extend_of_lt (by rwa [size_modify]), block?_modify, if_pos rfl, hHolder]
      rfl
    have hSteps := carryOut_socketsSteps kind sockets hRest hNames filled hFilledClosed node
      (free + socketSize socket) hFilledSize _ hFilled fun other hOther hMem => by
        rw [List.map_append, List.mem_append] at hMem
        rcases hMem with hOld | hNew
        · exact hPlace other (List.mem_cons_of_mem _ hOther) hOld
        · refine hFresh (List.mem_map.mpr ⟨other, hOther, ?_⟩)
          exact socketConnections_input hNew
    rw [socketsSteps, carryOut_append_ok hStep]
    refine hSteps.trans ?_
    rw [modify_extend_of_lt (by rwa [size_modify]), modify_modify, extend_extend, socketsLayout]
    simp only [List.append_assoc]
    rfl

theorem carryOut_socketSteps (kind : BlockKind) : ∀ (socket : SocketOf Blueprint),
    socketEvery (fun _ inputs => inputs.Nodup) socket →
    ∀ (workspace : Workspace), workspace.Closed → ∀ node free, workspace.size = free →
    ∀ holder, workspace.block? node = some holder →
    socket.input ∉ holder.inputs.map Connection.input →
      carryOut workspace (socketSteps kind node free socket) =
        ((workspace.modify node fun block => { block with
          inputs := block.inputs ++ socketConnections free socket }).extend
          (socketLayout node free socket), .ok ())
  | .value input inner, hEvery, workspace, hClosed, node, free, hFree, holder, hHolder, hPlace => by
    have hRoom : workspace.HasRoom (some ⟨node, .value input⟩) := ⟨holder, hHolder, hPlace⟩
    have hInner := carryOut_steps inner hEvery workspace hClosed free hFree
    have hAttach := attach_layout hClosed hFree hRoom inner []
    rw [List.append_nil, List.append_nil] at hAttach
    rw [socketSteps, carryOut_append_ok hInner, carryOut_cons_ok (edit_attach_ok hAttach)]
    rfl
  | .body input chain, hEvery, workspace, hClosed, node, free, hFree, holder, hHolder, hPlace => by
    have hRoom : workspace.HasRoom (some ⟨node, .statement input⟩) := ⟨holder, hHolder, hPlace⟩
    rw [socketSteps, carryOut_chainSteps chain hEvery workspace hClosed free hFree _ hRoom]
    cases chain with
    | nil =>
      have hSame : (workspace.modify node fun block => { block with
          inputs := block.inputs ++ socketConnections free (.body input []) }) = workspace :=
        modify_eq_self fun block _ => by rw [socketConnections, List.append_nil]
      rw [hSame, if_pos rfl]
      rfl
    | cons first rest => rfl
  | .parts input chain, hEvery, workspace, hClosed, node, free, hFree, holder, hHolder, hPlace => by
    have hMake := carryOut_makeSteps chain hEvery workspace hClosed free hFree
    rw [socketSteps, carryOut_append_ok hMake,
      carryOut_partSteps kind input chain hClosed hFree hHolder hPlace]
    rfl

/-- The plan of a chain makes the layout of the chain and puts it into its place. -/
theorem carryOut_chainSteps : ∀ (chain : List Blueprint),
    chainEvery (fun _ inputs => inputs.Nodup) chain →
    ∀ (workspace : Workspace), workspace.Closed → ∀ free, workspace.size = free →
    ∀ link?, workspace.HasRoom link? →
      carryOut workspace (chainSteps link? free chain) =
        ((if chain = [] then workspace else workspace.receive free link?).extend
          (chainLayout free link? chain), .ok ())
  | [], _, workspace, _, free, _, link?, _ => by
    rw [if_pos rfl, chainLayout, extend_nil]
    rfl
  | first :: rest, hEvery, workspace, hClosed, free, hFree, link?, hRoom => by
    obtain ⟨hFirst, hRest⟩ := hEvery
    have hSteps := carryOut_steps first hFirst workspace hClosed free hFree
    have hAttach : carryOut (workspace.extend (layout free none none first))
        (attachSteps link? free) =
          ((workspace.receive free link?).extend (layout free link? none first), .ok ()) := by
      cases link? with
      | none => rfl
      | some link =>
        have hAttach := attach_layout hClosed hFree hRoom first []
        rw [List.append_nil, List.append_nil] at hAttach
        rw [attachSteps, carryOut_cons_ok (edit_attach_ok hAttach)]
        rfl
    have hReceived : (workspace.receive free link?).size = free := by rw [size_receive, hFree]
    have hLink : ∀ link, link? = some link → link.node < free := hFree ▸ hRoom.lt_size
    have hChain := carryOut_chainSteps rest hRest _
      (closed_extend_layout (closed_receive hClosed link?) hReceived hLink) (free + first.size)
      (by rw [size_extend, length_layout, hReceived]) (some ⟨free, .next⟩)
      (hasRoom_extend_layout hReceived)
    rw [chainSteps, List.append_assoc, carryOut_append_ok hSteps, carryOut_append_ok hAttach,
      hChain, if_neg (List.cons_ne_nil _ _), chainLayout, ← extend_extend]
    -- the first block takes the second as its next one only if there is a second one
    cases rest with
    | nil => rfl
    | cons second rest =>
      rw [if_neg (List.cons_ne_nil _ _), receive_extend_layout hReceived]
      rfl

theorem carryOut_makeSteps : ∀ (chain : List Blueprint),
    chainEvery (fun _ inputs => inputs.Nodup) chain →
    ∀ (workspace : Workspace), workspace.Closed → ∀ free, workspace.size = free →
      carryOut workspace (makeSteps free chain) =
        (workspace.extend (separateLayout free chain), .ok ())
  | [], _, workspace, _, free, _ => by
    rw [separateLayout, extend_nil]
    rfl
  | first :: rest, hEvery, workspace, hClosed, free, hFree => by
    obtain ⟨hFirst, hRest⟩ := hEvery
    have hSteps := carryOut_steps first hFirst workspace hClosed free hFree
    have hMade : (workspace.extend (layout free none none first)).Closed :=
      closed_extend_layout hClosed hFree (by rintro link ⟨⟩)
    have hRest := carryOut_makeSteps rest hRest _ hMade (free + first.size)
      (by rw [size_extend, length_layout, hFree])
    rw [makeSteps, carryOut_append_ok hSteps, hRest, extend_extend, separateLayout]

end

end Blueprint

end RuleBlocks
