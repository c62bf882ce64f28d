import RuleBlocks.Proofs.Reading.Continued
import RuleBlocks.Proofs.Reading.Statement
import RuleBlocks.Proofs.RoundTrip.Program

/-!
# Appending to a program

A statement that is drawn after the last block of a chain goes on with what the chain stands for.
The old part of the chain may have faults: it is read as before, and nothing new is reported. Then
come the items of the new statement (`run_readChain_appended`).
-/

namespace RuleBlocks

namespace Statement

/-- The statements of a sequence: none of the empty statement, those of a block, and any other
statement by itself. -/
def elements : Statement → List Statement
  | empty => []
  | block statements => statements
  | statement => [statement]

/-- A chain of items has them as its elements. -/
theorem elements_ofChain {statements : List Statement}
    (hItems : ∀ statement ∈ statements, statement.IsItem) :
    (ofChain statements).elements = statements := by
  match statements with
  | [] => rfl
  | [statement] =>
    have hItem : statement.items = [statement] := hItems statement List.mem_cons_self
    cases statement with
    | empty =>
      rw [items] at hItem
      cases hItem
    | block parts => exact absurd rfl (IsItem.ne_block hItem parts)
    | _ => rfl
  | _ :: _ :: _ => rfl

theorem elements_normalForm (statement : Statement) :
    statement.normalForm.elements = statement.items :=
  elements_ofChain (isItem_of_mem_items statement)

end Statement

namespace Reader

open Reading Statement

variable {reader readerOther : Reader} {start : Option NodeId} {rest : List NodeId}

/-- What is read from a chain are the statements that are read from its members. -/
theorem elements_readChain (reader : Reader) (start : Option NodeId) :
    (reader.readChain start).value.elements =
      (reader.chain start).filterMap fun member => (reader.readStatement member).value := by
  rw [readChain, value_chainStatement, elements_ofChain]
  · rfl
  · intro statement hStatement
    obtain ⟨node, -, hRead⟩ := List.mem_filterMap.mp hStatement
    exact (yields_statement reader.depthLimit ⟨node, []⟩ statement hRead).isItem

theorem diagnostics_readChain (reader : Reader) (start : Option NodeId) :
    (reader.readChain start).diagnostics =
      (reader.chain start).flatMap fun member => (reader.readStatement member).diagnostics :=
  diagnostics_chainStatement _ _ _

/-- Where further members come after those that are read as before, their statements come after the
old ones. -/
theorem readChain_append
    (hChain : readerOther.chain start = reader.chain start ++ rest)
    (hMembers : ∀ member ∈ reader.chain start,
      readerOther.readStatement member = reader.readStatement member) :
    (readerOther.readChain start).value.elements = (reader.readChain start).value.elements ++
        (collect readerOther.readStatement rest).value ∧
      (readerOther.readChain start).diagnostics = (reader.readChain start).diagnostics ++
        (collect readerOther.readStatement rest).diagnostics := by
  rw [elements_readChain, elements_readChain, diagnostics_readChain, diagnostics_readChain, hChain,
    value_collect, diagnostics_collect, List.filterMap_append, List.flatMap_append]
  refine ⟨congrArg (· ++ _) (List.filterMap_congr fun member hMember => ?_),
    congrArg (· ++ _) (List.flatMap_congr fun member hMember => ?_)⟩
  · rw [hMembers member hMember]
  · rw [hMembers member hMember]

end Reader

namespace Workspace

open Blueprint Reading

variable {workspace : Workspace} {first last : NodeId} {chain : List Blueprint}

/-! ## What is appended -/

theorem ContinuedAfter.refl : workspace.ContinuedAfter workspace last :=
  ⟨fun _ => rfl, fun _ _ => rfl, fun _ _ => rfl, fun _ _ => rfl⟩

/-- Blocks that are put after a block leave the others as they are. -/
theorem continuedAfter_receive (child : NodeId) (blocks : List Block) :
    workspace.ContinuedAfter ((workspace.receive child (some ⟨last, .next⟩)).extend blocks)
      last := by
  have hBlock {node : NodeId} (hNode : node < workspace.size) :
      ((workspace.receive child (some ⟨last, .next⟩)).extend blocks).block? node =
        if last = node then (workspace.block? node).map (·.put child .next)
        else workspace.block? node := by
    rw [block?_receive_extend hNode, receive, block?_modify]
  constructor
  case tag? =>
    intro node hNode
    simp only [view, hBlock hNode]
    split <;> cases workspace.block? node <;> rfl
  case field? =>
    intro node field hNode
    simp only [view, hBlock hNode]
    split <;> cases workspace.block? node <;> rfl
  case input? =>
    intro node input hNode
    simp only [view, hBlock hNode]
    split <;> cases workspace.block? node <;> rfl
  case next? =>
    intro node hNode hNotLast
    simp only [view, hBlock hNode, if_neg hNotLast.symm]

/-- A chain that is put after a block where nothing comes next is what comes next there. -/
theorem Forest.insertChain_after (hForest : workspace.Forest) (hLast : last < workspace.size)
    (hNone : workspace.view.next? last = none)
    (hEvery : chainEvery (fun _ inputs => inputs.Nodup) chain) :
    ∃ after : Workspace,
      EditableGraph.insertChain workspace (.after last) chain =
        (after, .ok (chainNodes workspace.size chain).getLast?) ∧
      after.Forest ∧ workspace.ContinuedAfter after last ∧
      after.Hangs workspace.size (some ⟨last, .next⟩) chain ∧
      after.view.next? last = (chainNodes workspace.size chain).head? := by
  obtain ⟨block, hBlock⟩ := exists_block?_iff.mpr hLast
  have hFree : block.next? = none := by
    simpa [view, hBlock] using hNone
  have hEq := hForest.insertChain_of_hasRoom (.after last) ⟨block, hBlock, hFree⟩ hEvery
  have hAfter : (EditableGraph.insertChain workspace (.after last) chain).1.Forest :=
    hForest.carryOut _
  rw [hEq] at hAfter
  refine ⟨_, hEq, hAfter, ?_⟩
  cases chain with
  | nil =>
    rw [if_pos rfl, chainLayout, extend_nil]
    exact ⟨.refl, ⟨trivial, fun _ hIndex => absurd hIndex (Nat.not_lt_zero _)⟩, hNone⟩
  | cons head rest =>
    rw [if_neg (List.cons_ne_nil _ _), Place.link?]
    refine ⟨continuedAfter_receive _ _, ⟨hEvery, blocksAt_receive_extend⟩, ?_⟩
    have hFound : ((workspace.receive workspace.size (some ⟨last, .next⟩)).extend
        (chainLayout workspace.size (some ⟨last, .next⟩) (head :: rest))).block? last =
          some (block.put workspace.size .next) := by
      rw [block?_receive_extend hLast, receive, block?_modify, if_pos rfl, hBlock]
      rfl
    simp only [view, hFound]
    rfl

/-- The items of a statement without empty names are read from its chain. -/
theorem Forest.collect_items (hForest : workspace.Forest) {statement : Statement}
    (hNames : "" ∉ statement.requiredNames) {free : Nat} {link? : Option ParentLink}
    (hHangs : workspace.Hangs free link? statement.blueprints) :
    collect (Reader.ofView workspace.view .canonical .unchecked).readStatement
        (chainNodes free statement.blueprints) = ⟨statement.items, [], true⟩ := by
  have hOver := Reader.over_ofView hForest Vocabulary.kind?_canonical_tag .unchecked
  have hDepth : chainSize statement.blueprints ≤ workspace.view.size + 1 := by
    rw [size_view]
    exact Nat.le_succ_of_le hHangs.size_le
  have hRecovers := Reader.recovers_items hOver statement free _ [] [] hHangs.chainDrawn
    (fun member _ => Reader.sees_of_unchecked rfl member []) hDepth
  exact hRecovers.eq_clean rfl hNames
    (finished_collect_iff.mpr fun member _ => Reader.finished_readStatement hForest rfl member)

/-- **Appending to a chain appends to the program.** After any run of commands, take a block, the
block with which its chain ends, and a statement without empty names. Drawing the statement after
the end of the chain is never refused. Then the chain is read as before, whatever was read from it
and reported for it, followed by what the normal form of the statement consists of. -/
theorem run_readChain_appended (commands : List Command) (statement : Statement)
    (hNames : "" ∉ statement.requiredNames) (first last : NodeId)
    (hFirst : first < (run commands).size)
    (hEnds : (run commands).view.ChainEnds first last) :
    let reading (workspace : Workspace) :=
      (Reader.ofView workspace.view .canonical .unchecked).readChain (some first)
    ∃ after last?, EditableGraph.insertChain (run commands) (.after last) statement.blueprints =
        (after, .ok last?) ∧
      (reading (run commands)).finished = true ∧ (reading after).finished = true ∧
      (reading after).diagnostics = (reading (run commands)).diagnostics ∧
      (reading after).value.elements =
        (reading (run commands)).value.elements ++ statement.normalForm.elements := by
  intro reading
  have hForest := Forest.run commands
  have hLast : last < (run commands).size :=
    lt_size_of_below hFirst (above_of_follows (hForest.follows_of_chainEnds hEnds))
  obtain ⟨after, hInsert, hAfter, hContinued, hHangs, hNext⟩ := hForest.insertChain_after hLast
    hEnds.2 (chainEvery_distinct statement.every_blueprints)
  have hRest : ∀ limit, (chainNodes (run commands).size statement.blueprints).length ≤ limit →
      after.view.chain limit (after.view.next? last) =
        chainNodes (run commands).size statement.blueprints := by
    intro limit hLimit
    rw [length_chainNodes] at hLimit
    rw [hNext, hHangs.chain_eq hLimit]
  obtain ⟨hChain, hMembers⟩ := hForest.chain_continued hAfter hFirst hEnds hContinued hRest
  obtain ⟨hElements, hDiagnostics⟩ := Reader.readChain_append hChain hMembers
  have hItems := hAfter.collect_items hNames hHangs
  refine ⟨after, _, hInsert, Reader.finished_readChain hForest rfl _,
    Reader.finished_readChain hAfter rfl _, ?_, ?_⟩
  · rw [hItems, List.append_nil] at hDiagnostics
    exact hDiagnostics
  · rw [hItems, ← Statement.elements_normalForm] at hElements
    exact hElements

/-- A chain in which a phase without a name comes before a phase with one. -/
def halfNamedPhases : List Command :=
  [.edit (.create BlockKind.enterPhase.tag), .edit (.create BlockKind.enterPhase.tag),
    .edit (.setField 1 Field.phaseName "draw"), .edit (.attach ⟨0, .next⟩ 1)]

theorem halfNamedPhases_appended :
    let statement : Statement := .block [.empty, .enterPhase "play", .enterPhase "score"]
    let reading (workspace : Workspace) :=
      (Reader.ofView workspace.view .canonical .unchecked).readChain (some 0)
    "" ∉ statement.requiredNames ∧ 0 < (run halfNamedPhases).size ∧
      (run halfNamedPhases).view.ChainEnds 0 1 ∧
      (reading (run halfNamedPhases)).hasErrors = true ∧
      ∃ after last?, EditableGraph.insertChain (run halfNamedPhases) (.after 1)
          statement.blueprints = (after, .ok last?) ∧
        (reading (run halfNamedPhases)).finished = true ∧ (reading after).finished = true ∧
        (reading after).diagnostics = (reading (run halfNamedPhases)).diagnostics ∧
        (reading after).value.elements =
          (reading (run halfNamedPhases)).value.elements ++ statement.normalForm.elements := by
  intro statement reading
  have hNames : "" ∉ statement.requiredNames := by
    simp [statement, Statement.requiredNames, Statement.requiredNamesOfAll]
  have hFirst : 0 < (run halfNamedPhases).size := by decide
  have hEnds : (run halfNamedPhases).view.ChainEnds 0 1 := ⟨.single (by decide), by decide⟩
  exact ⟨hNames, hFirst, hEnds, by decide,
    run_readChain_appended halfNamedPhases statement hNames 0 1 hFirst hEnds⟩

end Workspace

end RuleBlocks
