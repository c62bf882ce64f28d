import RuleBlocks.Proofs.Reading.Ways

/-!
# Where the path of a diagnostic leads

The path of a diagnostic names inputs, the outermost first. Followed through the graph it leads from
the chain with which the reading began to the block of the diagnostic (`View.PathTo`): each input is
one of a member of the chain in the input before. Every report is made under the path of its own
block, whatever was read before and in whatever order (`Reader.paths_closed`). In a forest no other
path leads to the block (`Forest.pathTo_unique`), so none of the inputs on the way is missing.
-/

namespace RuleBlocks

open Relation

namespace View

variable {view : View} {first node holder child : NodeId} {input : String} {limit : Nat}
variable {path : List PathSegment}

/-- A block stands in an input of another one: it is a member of the chain that begins with what the
input holds, and just what the input holds if that is the socket of a value. -/
def StandsIn (view : View) (holder : NodeId) (input : String) (node : NodeId) : Prop :=
  ∃ child, view.input? holder input = some child ∧ view.InChainFrom child node ∧
    (input ∉ Input.chains → node = child)

/-- A path leads from the chain that begins with a block to a block. -/
inductive PathTo (view : View) (first : NodeId) : List PathSegment → NodeId → Prop
  | member {node : NodeId} : view.InChainFrom first node → PathTo view first [] node
  | inside {path : List PathSegment} {holder node : NodeId} {input : String} :
      PathTo view first path holder → view.StandsIn holder input node →
      PathTo view first (path ++ [⟨holder, input⟩]) node

theorem standsIn_of_input? (hChild : view.input? holder input = some child) :
    view.StandsIn holder input child := ⟨child, hChild, .refl, fun _ => rfl⟩

theorem standsIn_of_mem_chain (hInput : input ∈ Input.chains)
    (h : node ∈ view.chain limit (view.input? holder input)) : view.StandsIn holder input node := by
  obtain ⟨child, hChild, hMember⟩ := exists_first_of_mem_chain h
  exact ⟨child, hChild, hMember, absurd hInput⟩

theorem StandsIn.exists_mem_chain (h : view.StandsIn holder input node) :
    ∃ limit, node ∈ view.chain limit (view.input? holder input) := by
  obtain ⟨child, hChild, hMember, -⟩ := h
  rw [hChild]
  exact hMember.exists_mem_chain

/-- A path is a way from the member of the chain through which it leads. -/
theorem PathTo.exists_way (h : view.PathTo first path node) :
    ∃ start, view.InChainFrom first start ∧
      ∀ starts, start ∈ starts → view.Way starts path node := by
  induction h with
  | member hMember => exact ⟨_, hMember, fun starts hStart => .start hStart⟩
  | inside _ hInside ih =>
    obtain ⟨start, hStart, hWay⟩ := ih
    obtain ⟨limit, hMem⟩ := hInside.exists_mem_chain
    exact ⟨start, hStart, fun starts hStarts => (hWay starts hStarts).inside hMem⟩

end View

namespace Reader

open Reading

/-- **Every report is made under the path of its block, and shows the tag of the block.** -/
theorem paths_closed (reader : Reader) (first : NodeId) :
    reader.ClosedUnderChains fun _ spot reading => ∀ diagnostic ∈ reading.diagnostics,
      reader.view.PathTo first spot.path spot.node →
        reader.view.PathTo first diagnostic.path diagnostic.node ∧
          diagnostic.tag = reader.view.shownTag diagnostic.node := by
  refine closedUnderChains_of_reports (fun _ _ _ hPath => ⟨hPath, rfl⟩) ?_ ?_
  · intro spot input child diagnostic hChild _ hInner hPath
    exact hInner (hPath.inside (View.standsIn_of_input? hChild))
  · intro spot input member diagnostic hInput hMember hInner hPath
    exact hInner (hPath.inside (View.standsIn_of_mem_chain hInput hMember))

theorem pathTo_of_mem_readChain (reader : Reader) {first : NodeId} {diagnostic : Diagnostic}
    (hMem : diagnostic ∈ (reader.readChain (some first)).diagnostics) :
    reader.view.PathTo first diagnostic.path diagnostic.node ∧
      diagnostic.tag = reader.view.shownTag diagnostic.node := by
  rw [readChain, diagnostics_chainStatement, List.mem_flatMap] at hMem
  obtain ⟨member, hMember, hMem⟩ := hMem
  exact (reader.paths_closed first).statement _ ⟨member, []⟩ diagnostic hMem
    (.member (View.inChainFrom_of_mem_chain hMember))

end Reader

namespace Workspace

variable {workspace : Workspace} {first node : NodeId} {path other : List PathSegment}

/-- **In a forest just one path leads to a block.** -/
theorem Forest.pathTo_unique (hForest : workspace.Forest)
    (h : workspace.view.PathTo first path node) (hOther : workspace.view.PathTo first other node) :
    path = other := by
  obtain ⟨start, hStart, hWay⟩ := h.exists_way
  obtain ⟨otherStart, hOtherStart, hOtherWay⟩ := hOther.exists_way
  have hStarts : workspace.StartsFrom first [start, otherStart] := by
    intro member hMember
    rcases List.mem_pair.mp hMember with rfl | rfl
    · exact hForest.follows_of_inChainFrom hStart
    · exact hForest.follows_of_inChainFrom hOtherStart
  exact hForest.way_unique hStarts (hWay _ (by simp)) (hOtherWay _ (by simp))

/-- Paths lead to blocks of the workspace. -/
theorem Forest.lt_size_of_pathTo (hForest : workspace.Forest) (hFirst : first < workspace.size)
    (h : workspace.view.PathTo first path node) : node < workspace.size := by
  cases h with
  | member hMember => exact (hForest.depth_le_of_inChainFrom hFirst hMember).2
  | inside _ hInside =>
    obtain ⟨limit, hMem⟩ := hInside.exists_mem_chain
    exact hForest.lt_size_of_mem_inputChain hMem

/-- **The path of a diagnostic leads to its block.** After any run of commands, and whatever tags
mean, let a chain be read from a block. The path of every diagnostic leads from the chain, input by
input, to the block of the diagnostic, no other path does, and the diagnostic shows the tag of that
block. -/
theorem run_diagnostics_pathTo (commands : List Command) (vocabulary : Vocabulary)
    (options : ReadOptions) {first : NodeId} (hFirst : first < (run commands).size) :
    let view := (run commands).view
    let reader := Reader.ofView view vocabulary options
    ∀ diagnostic ∈ (reader.readChain (some first)).diagnostics,
      view.PathTo first diagnostic.path diagnostic.node ∧
        (∀ path, view.PathTo first path diagnostic.node → path = diagnostic.path) ∧
        view.tag? diagnostic.node = some diagnostic.tag := by
  intro view reader diagnostic hMem
  have hForest := Forest.run commands
  obtain ⟨hPath, hTag⟩ := reader.pathTo_of_mem_readChain hMem
  refine ⟨hPath, fun path hOther => hForest.pathTo_unique hOther hPath, ?_⟩
  obtain ⟨block, hBlock⟩ := exists_block?_iff.mpr (hForest.lt_size_of_pathTo hFirst hPath)
  have hShown : view.tag? diagnostic.node = some block.tag := congrArg (Option.map Block.tag) hBlock
  have hSame : reader.view.shownTag diagnostic.node = block.tag := by
    rw [View.shownTag, show reader.view.tag? _ = _ from hShown, Option.getD_some]
  rw [hShown, hTag, hSame]

/-- A loop after another block, with a block of no known kind as its condition. In the loop a block
without its field comes after another one. -/
def loopOverFaults : List Command :=
  [.edit (.create BlockKind.enterPhase.tag), .edit (.create BlockKind.repeatWhile.tag),
    .edit (.create "my_block"), .edit (.create BlockKind.enterPhase.tag),
    .edit (.create BlockKind.enterPhase.tag), .edit (.setField 0 Field.phaseName "draw"),
    .edit (.setField 3 Field.phaseName "draw"), .edit (.attach ⟨0, .next⟩ 1),
    .edit (.attach ⟨1, .value Input.condition⟩ 2), .edit (.attach ⟨1, .statement Input.body⟩ 3),
    .edit (.attach ⟨3, .next⟩ 4)]

theorem loopOverFaults_pathTo :
    let view := (run loopOverFaults).view
    let reading := (Reader.ofView view .canonical .unchecked).readChain (some 0)
    0 < (run loopOverFaults).size ∧
      reading.diagnostics.map (fun diagnostic => (diagnostic.node, diagnostic.path)) =
        [(2, [⟨1, Input.condition⟩]), (4, [⟨1, Input.body⟩])] ∧
      ∀ diagnostic ∈ reading.diagnostics, view.PathTo 0 diagnostic.path diagnostic.node ∧
        (∀ path, view.PathTo 0 path diagnostic.node → path = diagnostic.path) ∧
        view.tag? diagnostic.node = some diagnostic.tag := by
  intro view reading
  have hFirst : 0 < (run loopOverFaults).size := by decide
  exact ⟨hFirst, by decide +kernel,
    run_diagnostics_pathTo loopOverFaults .canonical .unchecked hFirst⟩

end Workspace

end RuleBlocks
