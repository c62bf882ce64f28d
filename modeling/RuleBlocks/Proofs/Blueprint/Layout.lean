import RuleBlocks.Blueprint.Basic
import RuleBlocks.Workspace.Basic

/-!
# The layout of a blueprint

The layout of a blueprint is the list of the blocks that it stands for, with all their fields and
links, once the number of its first block is known. A block comes before what stands in its inputs,
and the members of a chain come one after the other, each with all that stands inside it.

A layout has as many blocks as its blueprint has (`length_layout`), and nothing in it is attached to
a block that comes later than the whole layout (`layout_within`).
-/

namespace RuleBlocks

/-- The name of an input that is to be filled. -/
def SocketOf.input {Inner : Type} : SocketOf Inner → String
  | .value input _ | .body input _ | .parts input _ => input

namespace Blueprint

/-- The connection of an input, if the first block in it gets the given number. An input for an
empty chain is not connected. -/
def socketConnections (free : NodeId) : SocketOf Blueprint → List Connection
  | .value input _ => [⟨input, .value, free⟩]
  | .body _ [] | .parts _ [] => []
  | .body input _ | .parts input _ => [⟨input, .statement, free⟩]

theorem socketConnections_input {free : NodeId} {socket : SocketOf Blueprint} {input : String}
    (h : input ∈ (socketConnections free socket).map Connection.input) : input = socket.input := by
  rcases socket with _ | ⟨_, _ | _⟩ | ⟨_, _ | _⟩
  case body.nil | parts.nil => cases h
  all_goals exact List.mem_singleton.mp h

/-- The connections of inputs whose blocks are numbered from the given number on. -/
def connections (free : NodeId) : List (SocketOf Blueprint) → List Connection
  | [] => []
  | socket :: sockets =>
    socketConnections free socket ++ connections (free + socketSize socket) sockets

theorem connections_input {free : NodeId} {sockets : List (SocketOf Blueprint)} {input : String}
    (h : input ∈ (connections free sockets).map Connection.input) :
    input ∈ sockets.map SocketOf.input := by
  induction sockets generalizing free with
  | nil => cases h
  | cons socket sockets ih =>
    rw [connections, List.map_append, List.mem_append] at h
    rcases h with hFirst | hRest
    · exact socketConnections_input hFirst ▸ List.mem_cons_self
    · exact List.mem_cons_of_mem _ (ih hRest)

/-- The number of the second block of a chain, if there is one and the first block has the given
number. -/
def follower? (free : NodeId) (first : Blueprint) : List Blueprint → Option NodeId
  | [] => none
  | _ :: _ => some (free + first.size)

mutual

/-- The blocks of a blueprint, the first of which has the given number and is attached by the given
links. -/
def layout (node : NodeId) (parent? : Option ParentLink) (next? : Option NodeId) :
    Blueprint → List Block
  | block kind fields sockets =>
    ⟨node, kind.tag, NameMap.ofList fields, connections (node + 1) sockets, next?, parent?⟩ ::
      socketsLayout node (node + 1) sockets

/-- The blocks in the inputs of a block. -/
def socketsLayout (node free : NodeId) : List (SocketOf Blueprint) → List Block
  | [] => []
  | socket :: sockets =>
    socketLayout node free socket ++ socketsLayout node (free + socketSize socket) sockets

/-- The blocks in one input of a block. -/
def socketLayout (node free : NodeId) : SocketOf Blueprint → List Block
  | .value input inner => layout free (some ⟨node, .value input⟩) none inner
  | .body input chain | .parts input chain =>
    chainLayout free (some ⟨node, .statement input⟩) chain

/-- The blocks of a chain whose first block is attached by the given link. -/
def chainLayout (free : NodeId) (parent? : Option ParentLink) : List Blueprint → List Block
  | [] => []
  | first :: rest =>
    layout free parent? (follower? free first rest) first ++
      chainLayout (free + first.size) (some ⟨free, .next⟩) rest

end

mutual

/-- Every block of a blueprint has a property of its kind and of the names of its inputs. -/
def Every (P : BlockKind → List String → Prop) : Blueprint → Prop
  | block kind _ sockets => P kind (sockets.map SocketOf.input) ∧ socketsEvery P sockets

/-- Every block in the inputs of a block has the property. -/
def socketsEvery (P : BlockKind → List String → Prop) : List (SocketOf Blueprint) → Prop
  | [] => True
  | socket :: sockets => socketEvery P socket ∧ socketsEvery P sockets

/-- Every block in an input has the property. -/
def socketEvery (P : BlockKind → List String → Prop) : SocketOf Blueprint → Prop
  | .value _ inner => Every P inner
  | .body _ chain | .parts _ chain => chainEvery P chain

/-- Every block of a chain has the property. -/
def chainEvery (P : BlockKind → List String → Prop) : List Blueprint → Prop
  | [] => True
  | first :: rest => Every P first ∧ chainEvery P rest

end

/-- No two inputs of a block have the same name. -/
abbrev Distinct : Blueprint → Prop := Every fun _ inputs => inputs.Nodup

variable {node free bound : Nat} {parent? : Option ParentLink} {next? : Option NodeId}

/-! ## Lengths -/

mutual

@[simp] theorem length_layout (node : Nat) (parent? : Option ParentLink)
    (next? : Option NodeId) :
    ∀ blueprint, (layout node parent? next? blueprint).length = blueprint.size
  | block kind fields sockets => by
    rw [layout, size, List.length_cons, length_socketsLayout]

@[simp] theorem length_socketsLayout (node free : Nat) :
    ∀ sockets, (socketsLayout node free sockets).length = socketsSize sockets
  | [] => rfl
  | socket :: sockets => by
    rw [socketsLayout, socketsSize, List.length_append, length_socketLayout, length_socketsLayout]

@[simp] theorem length_socketLayout (node free : Nat) :
    ∀ socket, (socketLayout node free socket).length = socketSize socket
  | .value input inner => by rw [socketLayout, socketSize, length_layout]
  | .body input chain | .parts input chain => by rw [socketLayout, socketSize, length_chainLayout]

@[simp] theorem length_chainLayout (free : Nat) (parent? : Option ParentLink) :
    ∀ chain, (chainLayout free parent? chain).length = chainSize chain
  | [] => rfl
  | first :: rest => by
    rw [chainLayout, chainSize, List.length_append, length_layout, length_chainLayout]

end

theorem size_pos (blueprint : Blueprint) : 0 < blueprint.size := by
  cases blueprint
  exact Nat.succ_pos _

/-- Only the first block of a layout depends on how the whole is attached. -/
theorem layout_eq_cons (node : Nat) (blueprint : Blueprint) :
    ∃ (head : Block) (tail : List Block), ∀ parent? next?, layout node parent? next? blueprint =
      { head with next? := next?, parent? := parent? } :: tail := by
  obtain ⟨kind, fields, sockets⟩ := blueprint
  refine ⟨⟨node, kind.tag, NameMap.ofList fields, connections (node + 1) sockets, none, none⟩,
    socketsLayout node (node + 1) sockets, fun parent? next? => ?_⟩
  rw [layout]

/-! ## Members of chains -/

theorem length_chainNodes (free : Nat) (chain : List Blueprint) :
    (chainNodes free chain).length = chain.length := by
  induction chain generalizing free with
  | nil => rfl
  | cons first rest ih => rw [chainNodes, List.length_cons, List.length_cons, ih]

theorem chainNodes_append (free : Nat) (first second : List Blueprint) :
    chainNodes free (first ++ second) =
      chainNodes free first ++ chainNodes (free + chainSize first) second := by
  induction first generalizing free with
  | nil => rfl
  | cons blueprint rest ih =>
    rw [List.cons_append, chainNodes, chainNodes, ih, chainSize, Nat.add_assoc, List.cons_append]

theorem chainSize_append (first second : List Blueprint) :
    chainSize (first ++ second) = chainSize first + chainSize second := by
  induction first with
  | nil => rw [List.nil_append, chainSize, Nat.zero_add]
  | cons blueprint rest ih => rw [List.cons_append, chainSize, chainSize, ih, Nat.add_assoc]

theorem length_le_chainSize (chain : List Blueprint) : chain.length ≤ chainSize chain := by
  induction chain with
  | nil => exact Nat.zero_le _
  | cons first rest ih =>
    have hFirst := first.size_pos
    rw [List.length_cons, chainSize]
    omega

theorem follower?_eq (free : Nat) (first : Blueprint) (rest : List Blueprint) :
    follower? free first rest = (chainNodes (free + first.size) rest).head? := by
  cases rest <;> rfl

theorem mem_chainNodes_bounds {member : Nat} {chain : List Blueprint}
    (h : member ∈ chainNodes free chain) : free ≤ member ∧ member < free + chainSize chain := by
  induction chain generalizing free with
  | nil => cases h
  | cons first rest ih =>
    have hFirst := first.size_pos
    rw [chainSize]
    rcases List.mem_cons.mp h with rfl | hRest
    · omega
    · obtain ⟨hLower, hUpper⟩ := ih hRest
      omega

theorem filter_chainNodes_of_le {other : Nat} {chain : List Blueprint}
    (h : free + chainSize chain ≤ other) :
    (chainNodes free chain).filter (· ≠ other) = chainNodes free chain := by
  refine List.filter_eq_self.mpr fun member hMember => ?_
  have hUpper := (mem_chainNodes_bounds hMember).2
  simpa using Nat.ne_of_lt (Nat.lt_of_lt_of_le hUpper h)

/-- A chain without one of its members. -/
theorem filter_chainNodes (free : Nat) (first : List Blueprint) (blueprint : Blueprint)
    (rest : List Blueprint) :
    (chainNodes free (first ++ blueprint :: rest)).filter (· ≠ free + chainSize first) =
      chainNodes free first ++ chainNodes (free + chainSize first + blueprint.size) rest := by
  have hAfter : (chainNodes (free + chainSize first + blueprint.size) rest).filter
      (· ≠ free + chainSize first) =
        chainNodes (free + chainSize first + blueprint.size) rest := by
    refine List.filter_eq_self.mpr fun member hMember => ?_
    have hLower := (mem_chainNodes_bounds hMember).1
    have hSize := blueprint.size_pos
    have hLt : free + chainSize first < member := by omega
    simpa using (Nat.ne_of_lt hLt).symm
  rw [chainNodes_append, chainNodes, List.filter_append, filter_chainNodes_of_le (Nat.le_refl _),
    List.filter_cons_of_neg (by simp), hAfter]

/-! ## Kinds -/

/-- Blocks are of kinds and have inputs with a property. -/
def OfKinds (P : BlockKind → List String → Prop) (blocks : List Block) : Prop :=
  ∀ block ∈ blocks, ∃ kind inputs, block.tag = kind.tag ∧ P kind inputs

theorem ofKinds_append {P : BlockKind → List String → Prop} {first second : List Block}
    (hFirst : OfKinds P first) (hSecond : OfKinds P second) : OfKinds P (first ++ second) := by
  intro block hMem
  rcases List.mem_append.mp hMem with h | h
  · exact hFirst block h
  · exact hSecond block h

mutual

theorem layout_ofKinds {P : BlockKind → List String → Prop} (node : Nat)
    (parent? : Option ParentLink) (next? : Option NodeId) :
    ∀ blueprint : Blueprint, blueprint.Every P → OfKinds P (layout node parent? next? blueprint)
  | block kind fields sockets, hEvery => by
    rw [layout]
    intro inner hMem
    rcases List.mem_cons.mp hMem with rfl | hMem
    · exact ⟨kind, _, rfl, hEvery.1⟩
    · exact socketsLayout_ofKinds node (node + 1) sockets hEvery.2 inner hMem

theorem socketsLayout_ofKinds {P : BlockKind → List String → Prop} (node free : Nat) :
    ∀ sockets : List (SocketOf Blueprint), socketsEvery P sockets →
      OfKinds P (socketsLayout node free sockets)
  | [], _ => by simp [OfKinds, socketsLayout]
  | socket :: sockets, hEvery => by
    rw [socketsLayout]
    exact ofKinds_append (socketLayout_ofKinds node free socket hEvery.1)
      (socketsLayout_ofKinds node _ sockets hEvery.2)

theorem socketLayout_ofKinds {P : BlockKind → List String → Prop} (node free : Nat) :
    ∀ socket : SocketOf Blueprint, socketEvery P socket →
      OfKinds P (socketLayout node free socket)
  | .value input inner, hEvery => by
    rw [socketLayout]
    exact layout_ofKinds free _ _ inner hEvery
  | .body input chain, hEvery | .parts input chain, hEvery => by
    rw [socketLayout]
    exact chainLayout_ofKinds free _ chain hEvery

theorem chainLayout_ofKinds {P : BlockKind → List String → Prop} (free : Nat)
    (parent? : Option ParentLink) :
    ∀ chain : List Blueprint, chainEvery P chain → OfKinds P (chainLayout free parent? chain)
  | [], _ => by simp [OfKinds, chainLayout]
  | first :: rest, hEvery => by
    rw [chainLayout]
    exact ofKinds_append (layout_ofKinds free _ _ first hEvery.1)
      (chainLayout_ofKinds _ _ rest hEvery.2)

end

/-! ## Links -/

/-- Blocks are attached only to blocks with numbers below a bound. -/
def Within (bound : Nat) (blocks : List Block) : Prop :=
  ∀ block ∈ blocks, ∀ link, block.parent? = some link → link.node < bound

theorem within_append {first second : List Block} (hFirst : Within bound first)
    (hSecond : Within bound second) : Within bound (first ++ second) := by
  intro block hMem
  rcases List.mem_append.mp hMem with h | h
  · exact hFirst block h
  · exact hSecond block h

theorem Within.mono {blocks : List Block} {more : Nat} (hBlocks : Within bound blocks)
    (hMore : bound ≤ more) : Within more blocks :=
  fun block hMem link hLink => Nat.lt_of_lt_of_le (hBlocks block hMem link hLink) hMore

mutual

theorem layout_within (node : Nat) (parent? : Option ParentLink) (next? : Option NodeId)
    (hParent : ∀ link, parent? = some link → link.node < node) :
    ∀ blueprint, Within (node + blueprint.size) (layout node parent? next? blueprint)
  | block kind fields sockets => by
    rw [layout, size]
    have hSockets := socketsLayout_within node (node + 1) (Nat.lt_succ_self node) sockets
    intro inner hMem link hLink
    rcases List.mem_cons.mp hMem with rfl | hMem
    · exact Nat.lt_of_lt_of_le (hParent link hLink) (by omega)
    · exact Nat.lt_of_lt_of_le (hSockets inner hMem link hLink) (by omega)

theorem socketsLayout_within (node free : Nat) (hNode : node < free) :
    ∀ sockets, Within (free + socketsSize sockets) (socketsLayout node free sockets)
  | [] => by simp [Within, socketsLayout]
  | socket :: sockets => by
    rw [socketsLayout, socketsSize]
    refine within_append ((socketLayout_within node free hNode socket).mono (by omega))
      ((socketsLayout_within node _ ?_ sockets).mono ?_)
    · omega
    · omega

theorem socketLayout_within (node free : Nat) (hNode : node < free) :
    ∀ socket, Within (free + socketSize socket) (socketLayout node free socket)
  | .value input inner => by
    rw [socketLayout, socketSize]
    exact layout_within free _ _ (fun link hLink => by cases hLink; exact hNode) inner
  | .body input chain | .parts input chain => by
    rw [socketLayout, socketSize]
    exact chainLayout_within free _ (fun link hLink => by cases hLink; exact hNode) chain

theorem chainLayout_within (free : Nat) (parent? : Option ParentLink)
    (hParent : ∀ link, parent? = some link → link.node < free) :
    ∀ chain, Within (free + chainSize chain) (chainLayout free parent? chain)
  | [] => by simp [Within, chainLayout]
  | first :: rest => by
    rw [chainLayout, chainSize]
    refine within_append ((layout_within free _ _ hParent first).mono (by omega))
      ((chainLayout_within _ _ (fun link hLink => ?_) rest).mono (by omega))
    cases hLink
    exact Nat.lt_add_of_pos_right first.size_pos

end

/-! ## Roots -/

/-- Every block is attached to something. -/
def Attached (blocks : List Block) : Prop := ∀ block ∈ blocks, block.parent? ≠ none

theorem attached_append {first second : List Block} (hFirst : Attached first)
    (hSecond : Attached second) : Attached (first ++ second) := by
  intro block hMem
  rcases List.mem_append.mp hMem with h | h
  · exact hFirst block h
  · exact hSecond block h

mutual

theorem layout_attached (node : Nat) (link : ParentLink) (next? : Option NodeId) :
    ∀ blueprint, Attached (layout node (some link) next? blueprint)
  | block kind fields sockets => by
    rw [layout]
    intro inner hMem
    rcases List.mem_cons.mp hMem with rfl | hMem
    · nofun
    · exact socketsLayout_attached node (node + 1) sockets inner hMem

theorem socketsLayout_attached (node free : Nat) :
    ∀ sockets, Attached (socketsLayout node free sockets)
  | [] => by simp [Attached, socketsLayout]
  | socket :: sockets => by
    rw [socketsLayout]
    exact attached_append (socketLayout_attached node free socket)
      (socketsLayout_attached node _ sockets)

theorem socketLayout_attached (node free : Nat) :
    ∀ socket, Attached (socketLayout node free socket)
  | .value input inner => by
    rw [socketLayout]
    exact layout_attached free _ none inner
  | .body input chain | .parts input chain => by
    rw [socketLayout]
    exact chainLayout_attached free _ chain

theorem chainLayout_attached (free : Nat) (link : ParentLink) :
    ∀ chain, Attached (chainLayout free (some link) chain)
  | [] => by simp [Attached, chainLayout]
  | first :: rest => by
    rw [chainLayout]
    exact attached_append (layout_attached free link _ first) (chainLayout_attached _ _ rest)

end

/-- The numbers of the blocks that are attached to nothing. -/
def rootsOf (blocks : List Block) : List NodeId :=
  (blocks.filter fun block => block.parent?.isNone).map Block.number

theorem rootsOf_append (first second : List Block) :
    rootsOf (first ++ second) = rootsOf first ++ rootsOf second := by
  rw [rootsOf, List.filter_append, List.map_append]
  rfl

theorem Attached.rootsOf_eq_nil {blocks : List Block} (hBlocks : Attached blocks) :
    rootsOf blocks = [] := by
  rw [rootsOf, List.filter_eq_nil_iff.mpr, List.map_nil]
  intro block hMem
  simp [hBlocks block hMem]

/-- The only root of a chain is its first block. -/
theorem rootsOf_chainLayout (free : Nat) (chain : List Blueprint) :
    rootsOf (chainLayout free none chain) = (chainNodes free chain).take 1 := by
  cases chain with
  | nil => rw [chainLayout, chainNodes, rootsOf, List.filter_nil, List.map_nil, List.take_nil]
  | cons first rest =>
    obtain ⟨kind, fields, sockets⟩ := first
    have hInside := (socketsLayout_attached free (free + 1) sockets).rootsOf_eq_nil
    have hRest := (chainLayout_attached (free + (block kind fields sockets).size) ⟨free, .next⟩
      rest).rootsOf_eq_nil
    rw [chainLayout, layout, rootsOf_append, hRest, List.append_nil, chainNodes,
      List.take_succ_cons, List.take_zero, rootsOf, List.filter_cons_of_pos (by rfl), List.map_cons]
    exact congrArg _ hInside

end Blueprint

end RuleBlocks
