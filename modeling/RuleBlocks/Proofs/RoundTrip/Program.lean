import RuleBlocks.Proofs.Blueprint.Insert
import RuleBlocks.Proofs.Blueprint.Program
import RuleBlocks.Proofs.RoundTrip.Statement

/-!
# Reading drawn programs

What a reader recovers from chains that hang from nothing: a statement from its chain
(`recovers_chain`), and phases from the chains of their hats (`recovers_addPhases`). In the
workspace that is drawn for phases the hats are just the blocks that a reader of phases looks for
(`filter_isTopHat`).

References are checked against what is seen at the outside. That is nothing in particular if they
are not checked, and otherwise the numbers that are set in the drawn program and the registered
globals (`seesOutside_drawn`).
-/

namespace RuleBlocks

open Blueprint

theorem Vocabulary.kind?_canonical_tag (kind : BlockKind) :
    canonical.kind? kind.tag = some kind := by rw [kind?_canonical, BlockKind.ofTag?_tag]

/-- The chain of a phase: its statement below a hat that holds its name. -/
def phaseChain (entry : String × Statement) : List Blueprint :=
  .leaf .phase Field.phase entry.1 :: entry.2.blueprints

theorem chainEvery_phaseChain (entry : String × Statement) :
    chainEvery (fun _ inputs => inputs.Nodup) (phaseChain entry) :=
  ⟨⟨List.nodup_nil, trivial⟩, chainEvery_distinct entry.2.every_blueprints⟩

/-! ## Readers of a forest -/

namespace Reader

open Reading

variable {reader : Reader} {workspace : Workspace} {vocabulary : Vocabulary} {node : NodeId}
variable {visible : List (Category × String)} {free : Nat} {entries : List (String × Statement)}

theorem over_ofView (hForest : workspace.Forest)
    (hVocabulary : ∀ kind : BlockKind, vocabulary.kind? kind.tag = some kind)
    (options : ReadOptions) : (ofView workspace.view vocabulary options).Over workspace where
  forest := hForest
  view := rfl
  vocabulary := hVocabulary
  scope scope hScope := by
    rw [ofView] at hScope
    dsimp only at hScope
    split at hScope
    · cases hScope
      exact ⟨rfl, rfl⟩
    · cases hScope

/-- What the blocks see around which there is no other block. -/
def SeesOutside (reader : Reader) (visible : List (Category × String)) : Prop :=
  ∀ node, reader.view.enclosing? node = none → reader.Sees node visible

theorem seesOutside_unchecked (hScope : reader.scope? = none) : reader.SeesOutside visible :=
  fun node _ => sees_of_unchecked hScope node visible

theorem isTopHat_of_kind? {kind : BlockKind}
    (hKind : reader.view.kind? reader.vocabulary node = some kind) (hNot : kind ≠ .phase) :
    reader.isTopHat node = false := by
  rw [isTopHat, hKind]
  simp [hNot]

variable (hOver : reader.Over workspace)

include hOver

/-! ## Chains -/

/-- **A statement is read from its chain.** -/
theorem recovers_chain {statement : Statement} {link? : Option ParentLink}
    (hHangs : workspace.Hangs free link? statement.blueprints)
    (hSees : ∀ member ∈ chainNodes free statement.blueprints, reader.Sees member visible)
    (path : List PathSegment) :
    reader.Recovers (reader.chainStatement (reader.statement reader.depthLimit) path
      (chainNodes free statement.blueprints).head?) statement.normalForm statement.requiredNames
      (statement.unresolved visible) := by
  have hDepth : chainSize statement.blueprints ≤ reader.depthLimit := by
    rw [depthLimit, hOver.view, Workspace.size_view]
    exact Nat.le_succ_of_le hHangs.size_le
  rw [chainStatement, chain_eq hOver hHangs]
  exact (recovers_items hOver statement free _ path visible hHangs.chainDrawn hSees hDepth).map _

theorem sees_of_hangs_outside {chain : List Blueprint} (hOutside : reader.SeesOutside visible)
    (hHangs : workspace.Hangs free none chain) :
    ∀ member ∈ chainNodes free chain, reader.Sees member visible := by
  intro member hMember
  refine hOutside member ?_
  rw [hOver.view]
  exact hHangs.enclosing?_eq_none hOver.forest member hMember

/-! ## Phases -/

/-- A phase is read from its chain. -/
theorem recovers_phase {entry : String × Statement} (hOutside : reader.SeesOutside visible)
    (hHangs : workspace.Hangs free none (phaseChain entry)) :
    reader.Recovers (reader.phase free) (some entry.1, entry.2.normalForm)
      (entry.1 :: entry.2.requiredNames) (entry.2.unresolved visible) := by
  have hField : reader.view.field? (Spot.mk free []).node Field.phase = some entry.1 :=
    field?_of_leaf hOver hHangs.chainDrawn.1
  have hSees := sees_of_hangs_outside hOver hOutside hHangs
  obtain ⟨-, hNext, hBody⟩ := hHangs.first
  have hStatement := recovers_chain hOver hBody
    (fun member hMember => hSees member (List.mem_cons_of_mem _ hMember)) []
  rw [← hNext, ← hOver.view] at hStatement
  exact (recovers_requiredField hField).bind (hStatement.map _)

/-- **Phases are read from the chains of their hats.** -/
theorem recovers_addPhases {known result : Phases} (hOutside : reader.SeesOutside visible)
    (hHang : workspace.ChainsHang free (entries.map phaseChain))
    (hResult : result.entries =
      known.entries ++ entries.map fun entry => (entry.1, entry.2.normalForm)) :
    reader.Recovers (reader.addPhases known (chainHeads free (entries.map phaseChain))) result
      (entries.flatMap fun entry => entry.1 :: entry.2.requiredNames)
      (entries.flatMap fun entry => entry.2.unresolved visible) := by
  induction entries generalizing free known with
  | nil =>
    rw [List.map_nil, List.append_nil] at hResult
    rw [NameMap.eq_of_entries_eq hResult]
    exact recovers_pure known
  | cons entry entries ih =>
    obtain ⟨hFirst, hRest⟩ := hHang
    -- the entries come in the order of their names, so every one is new and comes last
    have hSorted := result.sorted
    rw [hResult] at hSorted
    have hLt : ∀ other ∈ known.entries, other.1 < entry.1 := by
      obtain ⟨-, -, hAcross⟩ := List.pairwise_append.mp hSorted
      intro other hOther
      rw [List.map_cons] at hAcross
      exact hAcross other hOther (entry.1, entry.2.normalForm) List.mem_cons_self
    refine (recovers_phase hOver hOutside hFirst).bind ?_
    dsimp only
    rw [NameMap.contains_of_forall_lt hLt]
    refine ih hRest ?_
    rw [hResult, NameMap.entries_insert_of_forall_lt hLt, List.append_assoc]
    rfl

/-! ## Hats -/

theorem kind?_of_block? {block : Block} {kind : BlockKind}
    (hBlock : workspace.block? node = some block) (hTag : block.tag = kind.tag) :
    reader.view.kind? reader.vocabulary node = some kind := by
  have hTag? : workspace.view.tag? node = some block.tag := by
    show (workspace.block? node).map Block.tag = _
    rw [hBlock]
    rfl
  rw [hOver.view, View.kind?, hTag?, hTag]
  exact hOver.vocabulary kind

/-- Statements have no hats in their chains. -/
theorem filter_isTopHat_body {blueprints : List Blueprint} {link? : Option ParentLink}
    (hEvery : chainEvery OfStatements blueprints)
    (hBlocks : workspace.BlocksAt free (chainLayout free link? blueprints)) :
    ((chainLayout free link? blueprints).map Block.number).filter reader.isTopHat = [] := by
  refine List.filter_eq_nil_iff.mpr fun node hNode => ?_
  obtain ⟨block, hBlock, rfl⟩ := List.mem_map.mp hNode
  obtain ⟨kind, inputs, hTag, hKind⟩ :=
    chainLayout_ofKinds free link? blueprints hEvery block hBlock
  have hFound := kind?_of_block? hOver (hOver.forest.block?_number hBlocks hBlock) hTag
  rw [isTopHat_of_kind? hFound]
  · exact Bool.false_ne_true
  · rintro rfl
    exact hKind.2 rfl

/-- The hats of drawn phases are the first blocks of their chains. -/
theorem filter_isTopHat
    (hBlocks : workspace.BlocksAt free (chainsLayout free (entries.map phaseChain))) :
    ((chainsLayout free (entries.map phaseChain)).map Block.number).filter reader.isTopHat =
      chainHeads free (entries.map phaseChain) := by
  induction entries generalizing free with
  | nil => rfl
  | cons entry entries ih =>
    rw [List.map_cons, chainsLayout] at hBlocks ⊢
    have hRest := hBlocks.append_right
    rw [length_chainLayout] at hRest
    have hChain := hBlocks.append_left
    have hHangs : workspace.Hangs free none (phaseChain entry) :=
      ⟨chainEvery_phaseChain entry, hChain⟩
    have hKind := hOver.kind? hHangs.chainDrawn.1
    have hRoot := hHangs.first.1
    have hHat : reader.isTopHat free = true := by
      rw [isTopHat, hKind, hOver.view]
      simp [Workspace.view, Workspace.previous?, Workspace.enclosing?_of_root hRoot, hRoot]
    rw [phaseChain, chainLayout] at hChain
    have hBody := hChain.append_right
    rw [length_layout] at hBody
    rw [List.map_append, List.filter_append, ih hRest, chainHeads, phaseChain, chainLayout,
      List.map_append, List.filter_append,
      filter_isTopHat_body hOver entry.2.every_blueprints hBody, Blueprint.leaf, layout,
      List.map_cons, List.filter_cons_of_pos hHat]
    rfl

end Reader

/-! ## Globals -/

namespace Scope

variable {workspace : Workspace} {block : Block} {blocks : List Block}

/-- A block binds the number that it sets. -/
theorem map_numberBinding? (hBlock : workspace.block? block.number = some block)
    (hName : block.setNumber? ≠ some "") :
    (numberBinding? workspace.view .canonical block.number).map
        (fun binding => (binding.category, binding.name)) =
      block.setNumber?.map (Category.number, ·) := by
  have hTag? : workspace.view.tag? block.number = some block.tag := by
    simp [Workspace.view, hBlock]
  have hField : workspace.view.field? block.number Field.name = block.fields.get? Field.name := by
    simp [Workspace.view, hBlock]
  have hKind : workspace.view.kind? .canonical block.number = some .setNumber ↔
      block.tag = BlockKind.setNumber.tag := by
    rw [View.kind?, hTag?, Option.bind_some, Vocabulary.kind?_canonical,
      BlockKind.ofTag?_eq_some_iff, eq_comm]
  unfold Block.setNumber? at hName ⊢
  unfold numberBinding? View.filledField?
  rw [hField]
  by_cases hTag : block.tag = BlockKind.setNumber.tag
  · rw [if_pos hTag] at hName ⊢
    rw [if_pos (hKind.mpr hTag)]
    cases hFound : block.fields.get? Field.name with
    | none => rfl
    | some name =>
      have hFilled : name ≠ "" := fun hEmpty => hName (hEmpty ▸ hFound)
      rw [Option.filter_some_pos (by simpa using hFilled)]
      rfl
  · rw [if_neg fun hIsKind => hTag (hKind.mp hIsKind), if_neg hTag]
    rfl

/-- The globals of a workspace are the numbers that its blocks set, and the registered ones. -/
theorem globals_extend_empty (hForest : (Workspace.empty.extend blocks).Forest)
    (hNames : "" ∉ blocks.filterMap Block.setNumber?) (registered : List (Category × String)) :
    (ofView (Workspace.empty.extend blocks).view .canonical registered).globals.map
        (fun binding => (binding.category, binding.name)) =
      (blocks.filterMap Block.setNumber?).map (Category.number, ·) ++ registered := by
  have hBinding : ∀ block ∈ blocks,
      (numberBinding? (Workspace.empty.extend blocks).view .canonical block.number).map
          (fun binding => (binding.category, binding.name)) =
        block.setNumber?.map (Category.number, ·) := fun block hMem =>
    map_numberBinding? (hForest.block?_number Workspace.blocksAt_extend hMem) fun hEmpty =>
      hNames (List.mem_filterMap.mpr ⟨block, hMem, hEmpty⟩)
  have hView : (Workspace.empty.extend blocks).view.nodes = blocks.map Block.number :=
    Workspace.nodes_extend_empty blocks
  rw [ofView, hView, List.map_append, List.filterMap_map, List.map_filterMap, List.map_map,
    List.map_filterMap]
  refine congrArg₂ _ (List.filterMap_congr hBinding) ?_
  exact List.map_id registered

end Scope

theorem Reader.seesOutside_drawn {blocks : List Block}
    (hForest : (Workspace.empty.extend blocks).Forest)
    (hNames : "" ∉ blocks.filterMap Block.setNumber?) (registered : List (Category × String)) :
    (Reader.ofView (Workspace.empty.extend blocks).view .canonical ⟨true, registered⟩).SeesOutside
      ((blocks.filterMap Block.setNumber?).map (Category.number, ·) ++ registered) := by
  intro node hNode scope hScope
  cases hScope
  have hView : (Scope.ofView (Workspace.empty.extend blocks).view .canonical registered).view =
      (Workspace.empty.extend blocks).view := rfl
  have hSees := Scope.sees_root hView hNode
  rwa [Scope.globals_extend_empty hForest hNames] at hSees

end RuleBlocks
