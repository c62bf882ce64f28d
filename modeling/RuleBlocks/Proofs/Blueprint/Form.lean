import RuleBlocks.Block.Slot
import RuleBlocks.Proofs.Blueprint.Layout
import RuleBlocks.Proofs.NameMap

/-!
# Forms of blocks

All blocks of a kind have the same fields and inputs: the form of the kind. Blueprints that fit the
forms of their kinds can be told from their layouts, even if more blocks follow
(`layout_append_inj`, `chainLayout_append_inj`). The tag of a block tells its kind and so the names
of its fields and inputs. An input of a chain without blocks is not connected, and a chain goes on
just if its member has a next block, so it is also known where each chain ends.
-/

namespace RuleBlocks

/-- Whether an input takes a value, the statements of a body, or the parts of an offer. -/
inductive SocketSort where
  | value
  | body
  | parts
deriving DecidableEq, Repr

/-- What blocks of one kind have in common: the names of their fields, and their inputs with what
each of them takes. -/
structure BlockForm where
  fields : List String
  inputs : List (String × SocketSort)
deriving DecidableEq, Repr

/-- The form of the blocks of a kind. -/
def BlockKind.form : BlockKind → BlockForm
  | phase => ⟨[Field.phase], []⟩
  | enterPhase => ⟨[Field.phaseName], []⟩
  | setNumber => ⟨[Field.name], [(Input.value, .value)]⟩
  | ifElse => ⟨[], [(Input.condition, .value), (Input.goTrue, .body), (Input.goFalse, .body)]⟩
  | repeatWhile => ⟨[], [(Input.condition, .value), (Input.body, .body)]⟩
  | shuffle => ⟨[], [(Input.zones, .value)]⟩
  | generateCards => ⟨[Field.cards], [(Input.dest, .value)]⟩
  | dealCards => ⟨[], [(Input.count, .value), (Input.source, .value), (Input.dest, .value)]⟩
  | moveCards => ⟨[], [(Input.source, .value), (Input.dest, .value)]⟩
  | declareWinner => ⟨[], [(Input.player, .value)]⟩
  | advancePlayer => ⟨[], [(Input.advance, .value)]⟩
  | offer => ⟨[Field.playerName], [(Input.offerTo, .value), (Input.cases, .parts)]⟩
  | unnamedOffer => ⟨[], [(Input.offerTo, .value), (Input.cases, .parts)]⟩
  | offerCase =>
    ⟨[Field.prompt], [(Input.filter, .value), (Input.offers, .parts), (Input.actions, .body)]⟩
  | openOfferCase => ⟨[Field.prompt], [(Input.offers, .parts), (Input.actions, .body)]⟩
  | choiceSelection => ⟨[Field.selectedAs, Field.choiceType], [(Input.source, .value)]⟩
  | choiceMove => ⟨[], [(Input.source, .value), (Input.dest, .value)]⟩
  | numberLiteral => ⟨[Field.number], []⟩
  | getNumber => ⟨[Field.numberName], []⟩
  | cardCount => ⟨[], [(Input.cards, .value)]⟩
  | booleanLiteral => ⟨[Field.boolean], []⟩
  | compare => ⟨[Field.comparison], [(Input.left, .value), (Input.right, .value)]⟩
  | playerOfType => ⟨[Field.typeName], [(Input.player, .value)]⟩
  | currentPlayer | allPlayers => ⟨[], []⟩
  | getTyped => ⟨[Field.category, Field.variableName], []⟩
  | zoneForPlayer => ⟨[Field.zoneName], [(Input.player, .value)]⟩
  | zonesOfType => ⟨[Field.zoneType], []⟩
  | cardSelector => ⟨[Field.selector], [(Input.zone, .value)]⟩
  | cardsMatchingSuit => ⟨[], [(Input.zone, .value), (Input.suit, .value)]⟩
  | cardsMatchingRank => ⟨[], [(Input.zone, .value), (Input.rank, .value)]⟩
  | rankFromCard | suitFromCard => ⟨[], [(Input.card, .value)]⟩
  | rankLiteral => ⟨[Field.rank], []⟩
  | suitLiteral => ⟨[Field.suit], []⟩

theorem BlockKind.nodup_fields (kind : BlockKind) : kind.form.fields.Nodup := by
  cases kind <;> decide

theorem BlockKind.nodup_inputs (kind : BlockKind) : (kind.form.inputs.map Prod.fst).Nodup := by
  cases kind <;> decide

namespace SocketOf

variable {Inner : Type}

/-- What an input takes. -/
def sort : SocketOf Inner → SocketSort
  | .value _ _ => .value
  | .body _ _ => .body
  | .parts _ _ => .parts

/-- The name of an input and what it takes. -/
def shape (socket : SocketOf Inner) : String × SocketSort := (socket.input, socket.sort)

theorem map_fst_shape (sockets : List (SocketOf Inner)) :
    (sockets.map shape).map Prod.fst = sockets.map input := by
  rw [List.map_map]
  rfl

end SocketOf

namespace Blueprint

mutual

/-- Every block of a blueprint has the form of its kind. -/
def Fits : Blueprint → Prop
  | block kind fields sockets =>
    (fields.map Prod.fst = kind.form.fields ∧ sockets.map SocketOf.shape = kind.form.inputs) ∧
      socketsFit sockets

def socketsFit : List (SocketOf Blueprint) → Prop
  | [] => True
  | socket :: sockets => socketFits socket ∧ socketsFit sockets

def socketFits : SocketOf Blueprint → Prop
  | .value _ inner => Fits inner
  | .body _ chain | .parts _ chain => chainFits chain

def chainFits : List Blueprint → Prop
  | [] => True
  | first :: rest => Fits first ∧ chainFits rest

end

theorem chainFits_append {first second : List Blueprint} (hFirst : chainFits first)
    (hSecond : chainFits second) : chainFits (first ++ second) := by
  induction first with
  | nil => exact hSecond
  | cons blueprint rest ih => exact ⟨hFirst.1, ih hFirst.2⟩

/-! ## Connections -/

variable {node free : Nat} {input : String}

theorem filter_connections_of_not_mem {sockets : List (SocketOf Blueprint)}
    (hInput : input ∉ sockets.map SocketOf.input) :
    (connections free sockets).filter (fun connection => connection.input = input) = [] := by
  refine List.filter_eq_nil_iff.mpr fun connection hMem hEq => hInput ?_
  have hEq : connection.input = input := by simpa using hEq
  rw [← hEq]
  exact connections_input (List.mem_map_of_mem hMem)

theorem filter_socketConnections (socket : SocketOf Blueprint) :
    (socketConnections free socket).filter (fun connection => connection.input = socket.input) =
      socketConnections free socket := by
  refine List.filter_eq_self.mpr fun connection hMem => ?_
  have hInput : connection.input = socket.input :=
    socketConnections_input (List.mem_map_of_mem hMem)
  simpa using hInput

/-- The connections of a block tell how each of its inputs is connected. -/
theorem connections_cons_inj {first second : SocketOf Blueprint}
    {sockets others : List (SocketOf Blueprint)} {next otherNext : Nat}
    (hInput : first.input = second.input)
    (hSockets : first.input ∉ sockets.map SocketOf.input)
    (hOthers : first.input ∉ others.map SocketOf.input)
    (hEq : socketConnections free first ++ connections next sockets =
      socketConnections free second ++ connections otherNext others) :
    socketConnections free first = socketConnections free second ∧
      connections next sockets = connections otherNext others := by
  have hFirst : socketConnections free first = socketConnections free second := by
    have hFilter := congrArg
      (List.filter fun connection : Connection => connection.input = first.input) hEq
    rwa [List.filter_append, List.filter_append, filter_connections_of_not_mem hSockets,
      filter_connections_of_not_mem hOthers, filter_socketConnections, hInput,
      filter_socketConnections, List.append_nil, List.append_nil] at hFilter
  rw [hFirst] at hEq
  exact ⟨hFirst, List.append_cancel_left hEq⟩

/-! ## Layouts -/

mutual

/-- **A layout tells its blueprint**, whether its block has a next one, and what comes after it. -/
theorem layout_append_inj (node : Nat) {parent? otherParent? : Option ParentLink}
    {next? otherNext? : Option NodeId} {rest more : List Block} :
    ∀ first second : Blueprint, first.Fits → second.Fits →
      layout node parent? next? first ++ rest = layout node otherParent? otherNext? second ++ more →
      first = second ∧ next? = otherNext? ∧ rest = more
  | .block kind fields sockets, .block otherKind otherFields otherSockets, hFirst, hSecond,
      hEq => by
    rw [layout, layout, List.cons_append, List.cons_append] at hEq
    obtain ⟨hHead, hTail⟩ := List.cons.inj hEq
    injection hHead with _ hTag hFields hInputs hNext _
    obtain rfl : kind = otherKind := BlockKind.tag_injective hTag
    have hNames : fields.map Prod.fst = otherFields.map Prod.fst :=
      hFirst.1.1.trans hSecond.1.1.symm
    have hNodup : (fields.map Prod.fst).Nodup := hFirst.1.1 ▸ kind.nodup_fields
    obtain rfl : fields = otherFields := NameMap.ofList_inj hNames hNodup hFields
    have hShapes := hFirst.1.2.trans hSecond.1.2.symm
    have hDistinct : (sockets.map SocketOf.input).Nodup := by
      rw [← SocketOf.map_fst_shape, hFirst.1.2]
      exact kind.nodup_inputs
    obtain ⟨rfl, hRest⟩ := socketsLayout_append_inj node (node + 1) sockets otherSockets hFirst.2
      hSecond.2 hShapes hDistinct hInputs hTail
    exact ⟨rfl, hNext, hRest⟩
termination_by structural first => first

theorem socketsLayout_append_inj (node free : Nat) {rest more : List Block} :
    ∀ first second : List (SocketOf Blueprint), socketsFit first → socketsFit second →
      first.map SocketOf.shape = second.map SocketOf.shape → (first.map SocketOf.input).Nodup →
      connections free first = connections free second →
      socketsLayout node free first ++ rest = socketsLayout node free second ++ more →
      first = second ∧ rest = more
  | [], [], _, _, _, _, _, hEq => ⟨rfl, hEq⟩
  | socket :: sockets, other :: others, hFirst, hSecond, hShapes, hNodup, hInputs, hEq => by
    obtain ⟨hShape, hRestShapes⟩ := List.cons.inj hShapes
    obtain ⟨hFresh, hRestNodup⟩ := List.nodup_cons.mp hNodup
    have hNames : sockets.map SocketOf.input = others.map SocketOf.input := by
      rw [← SocketOf.map_fst_shape, hRestShapes, SocketOf.map_fst_shape]
    have hInput : socket.input = other.input := congrArg Prod.fst hShape
    rw [connections, connections] at hInputs
    obtain ⟨hHere, hThere⟩ := connections_cons_inj hInput hFresh (hNames ▸ hFresh) hInputs
    rw [socketsLayout, socketsLayout, List.append_assoc, List.append_assoc] at hEq
    obtain ⟨rfl, hAfter⟩ := socketLayout_append_inj node free socket other hFirst.1 hSecond.1 hShape
      hHere hEq
    obtain ⟨rfl, hRest⟩ := socketsLayout_append_inj node _ sockets others hFirst.2 hSecond.2
      hRestShapes hRestNodup hThere hAfter
    exact ⟨rfl, hRest⟩
termination_by structural first => first

theorem socketLayout_append_inj (node free : Nat) {rest more : List Block} :
    ∀ first second : SocketOf Blueprint, socketFits first → socketFits second →
      first.shape = second.shape → socketConnections free first = socketConnections free second →
      socketLayout node free first ++ rest = socketLayout node free second ++ more →
      first = second ∧ rest = more
  | .value input inner, .value otherInput otherInner, hFirst, hSecond, hShape, _, hEq => by
    obtain rfl : input = otherInput := congrArg Prod.fst hShape
    obtain ⟨rfl, -, hRest⟩ := layout_append_inj free inner otherInner hFirst hSecond hEq
    exact ⟨rfl, hRest⟩
  | .body input chain, .body otherInput otherChain, hFirst, hSecond, hShape, hInputs, hEq
  | .parts input chain, .parts otherInput otherChain, hFirst, hSecond, hShape, hInputs, hEq => by
    obtain rfl : input = otherInput := congrArg Prod.fst hShape
    have hEmpty : chain = [] ↔ otherChain = [] := by
      cases chain <;> cases otherChain <;> simp [socketConnections] at hInputs ⊢
    obtain ⟨rfl, hRest⟩ := chainLayout_append_inj free chain otherChain hFirst hSecond hEmpty hEq
    exact ⟨rfl, hRest⟩
termination_by structural first => first

/-- The layout of a chain tells the chain, once it is known whether there are any blocks in it. -/
theorem chainLayout_append_inj (free : Nat) {parent? otherParent? : Option ParentLink}
    {rest more : List Block} :
    ∀ first second : List Blueprint, chainFits first → chainFits second →
      (first = [] ↔ second = []) →
      chainLayout free parent? first ++ rest = chainLayout free otherParent? second ++ more →
      first = second ∧ rest = more
  | [], second, _, _, hEmpty, hEq => by
    obtain rfl : second = [] := hEmpty.mp rfl
    exact ⟨rfl, hEq⟩
  | first :: chain, [], _, _, hEmpty, _ => absurd (hEmpty.mpr rfl) (List.cons_ne_nil _ _)
  | first :: chain, second :: others, hFirst, hSecond, _, hEq => by
    rw [chainLayout, chainLayout, List.append_assoc, List.append_assoc] at hEq
    obtain ⟨rfl, hNext, hAfter⟩ := layout_append_inj free first second hFirst.1 hSecond.1 hEq
    have hEmpty : chain = [] ↔ others = [] := by
      cases chain <;> cases others <;> simp [follower?] at hNext ⊢
    obtain ⟨rfl, hRest⟩ := chainLayout_append_inj _ chain others hFirst.2 hSecond.2 hEmpty hAfter
    exact ⟨rfl, hRest⟩
termination_by structural first => first

end

theorem chainLayout_eq_nil {parent? : Option ParentLink} {chain : List Blueprint} :
    chainLayout free parent? chain = [] ↔ chain = [] := by
  rw [← List.length_eq_zero_iff, length_chainLayout]
  have hLength := length_le_chainSize chain
  constructor
  · intro hSize
    rw [hSize] at hLength
    exact List.length_eq_zero_iff.mp (Nat.le_zero.mp hLength)
  · rintro rfl
    rw [chainSize]

/-- A chain of blueprints that fit can be told from its layout. -/
theorem chainLayout_inj {parent? : Option ParentLink} {first second : List Blueprint}
    (hFirst : chainFits first) (hSecond : chainFits second)
    (hEq : chainLayout free parent? first = chainLayout free parent? second) : first = second := by
  have hEmpty : first = [] ↔ second = [] := by
    rw [← chainLayout_eq_nil, hEq, chainLayout_eq_nil]
  have hAppend : chainLayout free parent? first ++ [] = chainLayout free parent? second ++ [] := by
    rw [hEq]
  exact (chainLayout_append_inj free first second hFirst hSecond hEmpty hAppend).1

end Blueprint

end RuleBlocks
