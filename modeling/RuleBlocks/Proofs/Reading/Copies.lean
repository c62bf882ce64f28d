import RuleBlocks.Proofs.Reading.Alike
import RuleBlocks.Proofs.Reading.Forest

/-!
# Copies are read alike

What is read at a block depends only on the blocks below it: on their tags and fields, on the order
of their chains, and on which block stands in which input. The numbers of the blocks, the order in
which they were made and attached, and all other blocks of the workspace do not matter. So a block
and a copy of it give equal values, and the diagnostics of the copy are those of the block with the
numbers of the copy (`Workspace.run_readings_copied`).

The two workspaces need not be of one size, so chains and statements are followed down to different
limits. But neither limit is ever reached: the members of a chain stand one below the other in a
forest (`forall₂_chain`), and reading a forest comes to an end.
-/

namespace RuleBlocks

open Relation

/-! ## Copies -/

/-- A block leads to the next one of its chain and to what stands in its inputs. -/
inductive View.LeadsTo (view : View) (node below : NodeId) : Prop
  | next : view.next? node = some below → LeadsTo view node below
  | input {input : String} : view.input? node input = some below → LeadsTo view node below

/-- One comes from a block to another one through inputs and to the next blocks of chains. -/
def View.Reaches (view : View) : NodeId → NodeId → Prop := ReflTransGen view.LeadsTo

/-- What can be reached from a root in one graph is found again in another one, where each of the
blocks has another number. -/
structure View.CopiedBelow (view copy : View) (root : NodeId) (f : NodeId → NodeId) : Prop where
  tag? {node : NodeId} : view.Reaches root node → copy.tag? (f node) = view.tag? node
  field? {node : NodeId} (field : String) : view.Reaches root node →
    copy.field? (f node) field = view.field? node field
  input? {node : NodeId} (input : String) : view.Reaches root node →
    copy.input? (f node) input = (view.input? node input).map f
  next? {node : NodeId} : view.Reaches root node → copy.next? (f node) = (view.next? node).map f

/-- The diagnostic for a block, made that for another one, to which another way leads. -/
def Diagnostic.rename (f : NodeId → NodeId) (diagnostic : Diagnostic) : Diagnostic :=
  { diagnostic with
    node := f diagnostic.node
    path := diagnostic.path.map fun step => { step with node := f step.node } }

def Reading.rename {α : Type} (f : NodeId → NodeId) (reading : Reading α) : Reading α :=
  { reading with diagnostics := reading.diagnostics.map (Diagnostic.rename f) }

/-- Diagnostics are those of the copy. -/
def Renamed (f : NodeId → NodeId) (diagnostics copied : List Diagnostic) : Prop :=
  copied = diagnostics.map (Diagnostic.rename f)

namespace Renamed

variable {f : NodeId → NodeId}

theorem additive : Reading.Additive (Renamed f) where
  nil := rfl
  append hFirst hMore := by
    unfold Renamed
    rw [List.map_append, hFirst, hMore]

end Renamed

theorem Reading.Alike.eq_rename {α : Type} {f : NodeId → NodeId} {reading copied : Reading α}
    (h : Alike (Renamed f) α reading copied) : copied = reading.rename f := by
  obtain ⟨value, diagnostics, finished⟩ := copied
  obtain ⟨rfl, rfl, rfl⟩ := h
  rfl

/-! ## Chains in forests -/

namespace Workspace

variable {workspace other : Workspace} {R : NodeId → NodeId → Prop}

section

variable (hForest : workspace.Forest) (hOther : other.Forest)
variable (hNode : ∀ node second, R node second → node < workspace.size ∧ second < other.size)
variable (hNext : ∀ node second, R node second →
  Option.Rel R (workspace.view.next? node) (other.view.next? second))

include hForest hOther hNode hNext

/-- A chain of a forest ends before it is cut off, so chains with corresponding members are followed
alike down to different limits. -/
theorem forall₂_chain_of_lt (limit limitOther : Nat) {node second : NodeId} (hStart : R node second)
    (hLimit : workspace.size < limit + workspace.depth node)
    (hLimitOther : other.size < limitOther + other.depth second) :
    List.Forall₂ R (workspace.view.chain limit (some node))
      (other.view.chain limitOther (some second)) := by
  obtain ⟨hLt, hLtOther⟩ := hNode node second hStart
  have hDepth := hForest.depth_le_size hLt
  have hDepthOther := hOther.depth_le_size hLtOther
  induction limit generalizing node second limitOther with
  | zero => omega
  | succ limit ih =>
    cases limitOther with
    | zero => omega
    | succ limitOther =>
      rw [View.chain, View.chain]
      refine .cons hStart ?_
      have hRel := hNext node second hStart
      generalize hAfter : workspace.view.next? node = after?,
        hAfterOther : other.view.next? second = afterOther? at hRel
      cases hRel with
      | none => cases limit <;> cases limitOther <;> exact .nil
      | some hRest =>
        -- the next members stand deeper by as much as the limits have fallen
        have hBelow := hForest.depth_child (hForest.parent?_of_next? hAfter)
        have hBelowOther := hOther.depth_child (hOther.parent?_of_next? hAfterOther)
        dsimp only at hBelow hBelowOther
        obtain ⟨hLt, hLtOther⟩ := hNode _ _ hRest
        exact ih limitOther hRest (by omega) (by omega) hLt hLtOther (hForest.depth_le_size hLt)
          (hOther.depth_le_size hLtOther)

theorem forall₂_chain {start second : Option NodeId} (hStart : Option.Rel R start second) :
    List.Forall₂ R (workspace.view.chain workspace.view.size start)
      (other.view.chain other.view.size second) := by
  rw [size_view, size_view]
  cases hStart with
  | none => cases workspace.size <;> cases other.size <;> exact .nil
  | @some node second hStart =>
    have hDepth : 0 < workspace.depth node := depth_pos
    have hDepthOther : 0 < other.depth second := depth_pos
    exact forall₂_chain_of_lt hForest hOther hNode hNext _ _ hStart (by omega) (by omega)

end

theorem Forest.lt_size_of_reaches (hForest : workspace.Forest) {root node : NodeId}
    (hRoot : root < workspace.size) (h : workspace.view.Reaches root node) :
    node < workspace.size := by
  induction h with
  | refl => exact hRoot
  | tail _ hStep _ =>
    cases hStep with
    | next h => exact lt_size_of_parent? (hForest.parent?_of_next? h)
    | input h =>
      obtain ⟨link, hLink, -⟩ := hForest.isParent_of_input? h
      exact lt_size_of_parent? hLink

theorem lt_size_iff_tag? {node : NodeId} :
    node < workspace.size ↔ (workspace.view.tag? node).isSome = true := by
  rw [← exists_block?_iff]
  simp [view, Option.isSome_iff_exists]

end Workspace

/-! ## Readers of copies -/

/-- A block below the root, and its copy. -/
def IsCopy (view : View) (root : NodeId) (f : NodeId → NodeId) (node copied : NodeId) : Prop :=
  view.Reaches root node ∧ copied = f node

namespace IsCopy

variable {view : View} {root node : NodeId} {f : NodeId → NodeId}

/-- What a block leads to, and the copies of that. -/
theorem rel_map {found? : Option NodeId} (hNode : view.Reaches root node)
    (hStep : ∀ below, found? = some below → view.LeadsTo node below) :
    Option.Rel (IsCopy view root f) found? (found?.map f) := by
  cases found? with
  | none => exact .none
  | some below => exact .some ⟨hNode.tail (hStep below rfl), rfl⟩

theorem path_eq {path copied : List PathSegment} (h : PathsMatch (IsCopy view root f) path copied) :
    copied = path.map fun step => { step with node := f step.node } := by
  have hSteps : List.Forall₂ (· = ·) (path.map fun step => { step with node := f step.node })
      copied := by
    refine List.forall₂_map_left_iff.mpr (h.imp ?_)
    rintro ⟨node, input⟩ ⟨_, _⟩ ⟨⟨-, rfl⟩, rfl⟩
    rfl
  rw [List.forall₂_eq_eq_eq] at hSteps
  exact hSteps.symm

end IsCopy

namespace Workspace

variable {workspace other : Workspace} {root : NodeId} {f : NodeId → NodeId}
variable {vocabulary : Vocabulary}

/-- Readers of a block and of its copy go in step. -/
theorem Forest.inStep_copy (hForest : workspace.Forest) (hOther : other.Forest)
    (hRoot : root < workspace.size) (hCopy : workspace.view.CopiedBelow other.view root f) :
    Reader.InStep ⟨workspace.view, vocabulary, none⟩ ⟨other.view, vocabulary, none⟩
      (IsCopy workspace.view root f) (Reading.AlikeAtEnd (Renamed f)) where
  toCongruence := Renamed.additive.congruence_atEnd
  kind? := by
    rintro node _ ⟨hReaches, rfl⟩
    simp only [View.kind?, hCopy.tag? hReaches]
  field? := by
    rintro node _ field ⟨hReaches, rfl⟩
    exact (hCopy.field? field hReaches).symm
  input? := by
    rintro node _ input ⟨hReaches, rfl⟩
    rw [hCopy.input? input hReaches]
    exact IsCopy.rel_map hReaches fun _ => .input
  chain := by
    refine forall₂_chain hForest hOther ?_ ?_
    · rintro node _ ⟨hReaches, rfl⟩
      have hNode := hForest.lt_size_of_reaches hRoot hReaches
      refine ⟨hNode, lt_size_iff_tag?.mpr ?_⟩
      rw [hCopy.tag? hReaches]
      exact lt_size_iff_tag?.mp hNode
    · rintro node _ ⟨hReaches, rfl⟩
      rw [hCopy.next? hReaches]
      exact IsCopy.rel_map hReaches fun _ => .next
  error := by
    rintro ⟨node, path⟩ ⟨_, _⟩ error ⟨⟨hReaches, rfl⟩, hPath⟩ - -
    obtain rfl := IsCopy.path_eq hPath
    refine ⟨rfl, rfl, ?_⟩
    simp [Renamed, Reader.report, Diagnostic.rename, View.shownTag, hCopy.tag? hReaches]
  unknown := by
    rintro node _ ⟨hReaches, rfl⟩ -
    simp only [View.shownTag, hCopy.tag? hReaches]
  checked _ _ _ _ _ := ⟨rfl, rfl, Renamed.additive.nil⟩

/-- **Reading depends only on the blocks below.** Take any two workspaces, and a block of the first
one with a copy in the second: whatever can be reached from the block is found there with the same
tags, fields, chains and inputs. Then the chain from the block, the block itself, and the block as
an expression of any category are read to the same values as at the copy, and the diagnostics there
are the same ones in the same order, for the blocks of the copy. -/
theorem run_readings_copied (commands others : List Command) (root : NodeId)
    (hRoot : root < (run commands).size) (f : NodeId → NodeId)
    (hCopy : (run commands).view.CopiedBelow (run others).view root f) (vocabulary : Vocabulary)
    (globals globalsOther : List (Category × String)) :
    let reader := Reader.ofView (run commands).view vocabulary ⟨false, globals⟩
    let readerOther := Reader.ofView (run others).view vocabulary ⟨false, globalsOther⟩
    readerOther.readChain (some (f root)) = (reader.readChain (some root)).rename f ∧
      readerOther.readStatement (f root) = (reader.readStatement root).rename f ∧
      ∀ category, readerOther.readExpression (f root) category =
        (reader.readExpression root category).rename f := by
  intro reader readerOther
  have hForest := Forest.run commands
  have hOther := Forest.run others
  have hStep : reader.InStep readerOther (IsCopy (run commands).view root f)
      (Reading.AlikeAtEnd (Renamed f)) := hForest.inStep_copy hOther hRoot hCopy
  have hCopied : IsCopy (run commands).view root f root (f root) := ⟨.refl, rfl⟩
  have hStatement := hStep.statement_depths (fun _ => nofun) (fun _ _ => nofun) reader.depthLimit
    readerOther.depthLimit
  refine ⟨?_, ?_, fun category => ?_⟩
  · exact (hStep.readChain hStatement (.some hCopied) (Reader.finished_readChain hForest rfl _)
      (Reader.finished_readChain hOther rfl _)).eq_rename
  · exact (hStatement _ _ (.start hCopied) (Reader.finished_readStatement hForest rfl _)
      (Reader.finished_readStatement hOther rfl _)).eq_rename
  · exact (hStep.readExpression hCopied category (reader.finished_closed.expression category)
      (readerOther.finished_closed.expression category)).eq_rename

/-- It is enough for a copy that every block of the workspace is found again. -/
theorem Forest.copiedBelow_of_blocks (hForest : workspace.Forest) (hRoot : root < workspace.size)
    (hBlocks : ∀ node block, workspace.block? node = some block →
      ∃ copied, other.block? (f node) = some copied ∧ copied.tag = block.tag ∧
        copied.fields = block.fields ∧ copied.next? = block.next?.map f ∧
        ∀ input, (copied.connection? input).map Connection.target =
          ((block.connection? input).map Connection.target).map f) :
    workspace.view.CopiedBelow other.view root f := by
  have hReached {node : NodeId} (hReaches : workspace.view.Reaches root node) :=
    exists_block?_iff.mpr (hForest.lt_size_of_reaches hRoot hReaches)
  constructor
  case tag? =>
    intro node hReaches
    obtain ⟨block, hBlock⟩ := hReached hReaches
    obtain ⟨copied, hCopied, hTag, -⟩ := hBlocks node block hBlock
    simp [view, hBlock, hCopied, hTag]
  case field? =>
    intro node field hReaches
    obtain ⟨block, hBlock⟩ := hReached hReaches
    obtain ⟨copied, hCopied, -, hFields, -⟩ := hBlocks node block hBlock
    simp [view, hBlock, hCopied, hFields]
  case input? =>
    intro node input hReaches
    obtain ⟨block, hBlock⟩ := hReached hReaches
    obtain ⟨copied, hCopied, -, -, -, hInputs⟩ := hBlocks node block hBlock
    simpa [view, hBlock, hCopied] using hInputs input
  case next? =>
    intro node hReaches
    obtain ⟨block, hBlock⟩ := hReached hReaches
    obtain ⟨copied, hCopied, -, -, hNext, -⟩ := hBlocks node block hBlock
    simp [view, hBlock, hCopied, hNext]

/-- A loop over one phase, with a condition that is no truth value. -/
def faultyLoop : List Command :=
  [.edit (.create BlockKind.repeatWhile.tag), .edit (.create BlockKind.booleanLiteral.tag),
    .edit (.setField 1 Field.boolean "MAYBE"), .edit (.create BlockKind.enterPhase.tag),
    .edit (.setField 2 Field.phaseName "draw"), .edit (.attach ⟨0, .value Input.condition⟩ 1),
    .edit (.attach ⟨0, .statement Input.body⟩ 2)]

/-- The same loop, made from the inside outwards and in a chain with a further block. -/
def faultyLoopCopy : List Command :=
  [.edit (.create BlockKind.enterPhase.tag), .edit (.setField 0 Field.phaseName "draw"),
    .edit (.create BlockKind.shuffle.tag), .edit (.create BlockKind.booleanLiteral.tag),
    .edit (.setField 2 Field.boolean "MAYBE"), .edit (.create BlockKind.repeatWhile.tag),
    .edit (.attach ⟨3, .statement Input.body⟩ 0), .edit (.attach ⟨3, .value Input.condition⟩ 2),
    .edit (.attach ⟨1, .next⟩ 3)]

theorem faultyLoop_copied :
    let f := fun node => [3, 2, 0].getD node 0
    let reader := Reader.ofView (run faultyLoop).view .canonical .unchecked
    let readerOther := Reader.ofView (run faultyLoopCopy).view .canonical .unchecked
    0 < (run faultyLoop).size ∧
      (run faultyLoop).view.CopiedBelow (run faultyLoopCopy).view 0 f ∧
      readerOther.readChain (some 3) = (reader.readChain (some 0)).rename f ∧
      readerOther.readStatement 3 = (reader.readStatement 0).rename f ∧
      ∀ category, readerOther.readExpression 3 category =
        (reader.readExpression 0 category).rename f := by
  intro f reader readerOther
  have hRoot : 0 < (run faultyLoop).size := by decide
  have hCopy : (run faultyLoop).view.CopiedBelow (run faultyLoopCopy).view 0 f := by
    refine (Forest.run faultyLoop).copiedBelow_of_blocks hRoot fun node block hBlock => ?_
    have hNode : node < 3 := lt_size_of_block? hBlock
    match node, hNode with
    | 0, _ =>
      obtain rfl : block = ⟨0, BlockKind.repeatWhile.tag, .empty, [⟨Input.condition, .value, 1⟩,
        ⟨Input.body, .statement, 2⟩], none, none⟩ := Option.some.inj (hBlock.symm.trans (by decide))
      refine ⟨⟨3, BlockKind.repeatWhile.tag, .empty, [⟨Input.body, .statement, 0⟩,
        ⟨Input.condition, .value, 2⟩], none, some ⟨1, .next⟩⟩, by decide, rfl, rfl, rfl, ?_⟩
      intro input
      by_cases hCondition : Input.condition = input
      · subst hCondition
        decide
      · by_cases hBody : Input.body = input
        · subst hBody
          decide
        · simp [Block.connection?, hCondition, hBody]
    | 1, _ =>
      obtain rfl : block = ⟨1, BlockKind.booleanLiteral.tag,
        NameMap.empty.insert Field.boolean "MAYBE", [], none, some ⟨0, .value Input.condition⟩⟩ :=
        Option.some.inj (hBlock.symm.trans (by decide))
      exact ⟨⟨2, BlockKind.booleanLiteral.tag, NameMap.empty.insert Field.boolean "MAYBE", [], none,
        some ⟨3, .value Input.condition⟩⟩, by decide, rfl, rfl, rfl, fun _ => rfl⟩
    | 2, _ =>
      obtain rfl : block = ⟨2, BlockKind.enterPhase.tag,
        NameMap.empty.insert Field.phaseName "draw", [], none, some ⟨0, .statement Input.body⟩⟩ :=
        Option.some.inj (hBlock.symm.trans (by decide))
      exact ⟨⟨0, BlockKind.enterPhase.tag, NameMap.empty.insert Field.phaseName "draw", [], none,
        some ⟨3, .statement Input.body⟩⟩, by decide, rfl, rfl, rfl, fun _ => rfl⟩
  exact ⟨hRoot, hCopy,
    run_readings_copied faultyLoop faultyLoopCopy 0 hRoot f hCopy .canonical [] []⟩

end Workspace

end RuleBlocks
