import RuleBlocks.Proofs.Reading.Synonyms
import RuleBlocks.Proofs.RoundTrip.Lossless
import RuleBlocks.Proofs.Vocabulary

/-!
# Round trips with aliases

Blocks are drawn with canonical tags, whatever the vocabulary, but they are read in a vocabulary in
which any tag may have been given another meaning, a canonical one too. The meaning that a tag was
given last counts (`Vocabulary.kind?_ofAliases`). So a round trip may fail, but only if a tag that
was drawn has another meaning than its canonical one (`Statement.roundTrip_ofAliases`).
-/

namespace RuleBlocks

/-! ## The tags of drawn blocks -/

namespace Blueprint

mutual

/-- Blocks are drawn with canonical tags only. -/
theorem exists_tag_of_mem_layout {node : Nat} {parent? : Option ParentLink} {next? : Option NodeId}
    {block : Block} :
    ∀ {blueprint : Blueprint}, block ∈ layout node parent? next? blueprint →
      ∃ kind : BlockKind, block.tag = kind.tag
  | .block kind fields sockets => by
    rw [layout, List.mem_cons]
    rintro (rfl | hRest)
    · exact ⟨kind, rfl⟩
    · exact exists_tag_of_mem_socketsLayout hRest

theorem exists_tag_of_mem_socketsLayout {node free : Nat} {block : Block} :
    ∀ {sockets : List (SocketOf Blueprint)}, block ∈ socketsLayout node free sockets →
      ∃ kind : BlockKind, block.tag = kind.tag
  | [] => nofun
  | socket :: sockets => by
    rw [socketsLayout, List.mem_append]
    rintro (hFirst | hRest)
    · exact exists_tag_of_mem_socketLayout hFirst
    · exact exists_tag_of_mem_socketsLayout hRest

theorem exists_tag_of_mem_socketLayout {node free : Nat} {block : Block} :
    ∀ {socket : SocketOf Blueprint}, block ∈ socketLayout node free socket →
      ∃ kind : BlockKind, block.tag = kind.tag
  | .value input inner => by
    rw [socketLayout]
    exact exists_tag_of_mem_layout
  | .body input chain | .parts input chain => by
    rw [socketLayout]
    exact exists_tag_of_mem_chainLayout

theorem exists_tag_of_mem_chainLayout {free : Nat} {parent? : Option ParentLink} {block : Block} :
    ∀ {chain : List Blueprint}, block ∈ chainLayout free parent? chain →
      ∃ kind : BlockKind, block.tag = kind.tag
  | [] => nofun
  | first :: rest => by
    rw [chainLayout, List.mem_append]
    rintro (hFirst | hRest)
    · exact exists_tag_of_mem_layout hFirst
    · exact exists_tag_of_mem_chainLayout hRest

end

end Blueprint

namespace Statement

variable {statement : Statement} {vocabulary : Vocabulary}

theorem exists_tag_of_mem_drawn {block : Block} (hBlock : block ∈ statement.drawn.blocks) :
    ∃ kind : BlockKind, block.tag = kind.tag := by
  have hLayout : block ∈ Blueprint.chainLayout 0 none statement.blueprints := by
    simpa [drawn, Workspace.extend, Workspace.empty] using hBlock
  exact Blueprint.exists_tag_of_mem_chainLayout hLayout

/-- A vocabulary that keeps the kinds with which a statement is drawn reads what is drawn as the
canonical one does. -/
theorem synonymous_drawn
    (hKinds : ∀ block ∈ statement.drawn.blocks, ∀ kind : BlockKind, block.tag = kind.tag →
      vocabulary.kind? kind.tag = some kind) :
    statement.drawn.view.Synonymous .canonical statement.drawn.view vocabulary where
  untagged := rfl
  kinds node := by
    unfold View.kind? Workspace.view
    dsimp only
    cases hBlock : statement.drawn.block? node with
    | none => rfl
    | some block =>
      have hMem : block ∈ statement.drawn.blocks := Array.mem_of_getElem? hBlock
      obtain ⟨kind, hTag⟩ := exists_tag_of_mem_drawn hMem
      rw [Option.map_some, Option.bind_some, Option.bind_some, hTag, hKinds block hMem kind hTag]
      exact Vocabulary.kind?_canonical_tag kind
  unknown _ _ := rfl

/-- **Aliases do no harm as long as what is drawn keeps its meaning.** In every vocabulary with
aliases a canonical tag means its kind unless it was last given the meaning of another one. If none
of the required names of a statement is empty and the tags of all kinds with which it is drawn mean
these kinds, then the normal form of the statement is read, and nothing is reported. -/
theorem roundTrip_ofAliases (aliases : List (String × String)) :
    let vocabulary := Vocabulary.ofAliases aliases
    (∀ kind : BlockKind, vocabulary.kind? kind.tag = some kind ↔
      ∀ other, Vocabulary.lastMeaning? aliases kind.tag = some other → other = kind) ∧
    ∀ statement : Statement, "" ∉ statement.requiredNames →
      ∃ trip, statement.roundTrip vocabulary .unchecked = .ok trip ∧
        ((∀ block ∈ trip.workspace.blocks, ∀ kind : BlockKind, block.tag = kind.tag →
            vocabulary.kind? kind.tag = some kind) →
          trip.reading.finished = true ∧ trip.reading.value = statement.normalForm ∧
            trip.reading.diagnostics = []) := by
  intro vocabulary
  refine ⟨Vocabulary.kind?_ofAliases_tag_eq_iff aliases, fun statement hNames => ?_⟩
  refine ⟨_, statement.roundTrip_drawn vocabulary .unchecked, fun hKinds => ?_⟩
  have hClean := statement.recovers_drawnReading_unchecked.eq_clean rfl hNames
    (statement.finished_drawnReading .unchecked)
  have hAlike : Reading.Alike SameButTags _ (statement.drawnReading .unchecked)
      ((Reader.ofView statement.drawn.view vocabulary .unchecked).readChain
        (Blueprint.chainNodes 0 statement.blueprints).head?) :=
    Reader.alike_synonymous_readChain (synonymous_drawn hKinds) _
  rw [hClean] at hAlike
  exact ⟨hAlike.finished.symm, hAlike.value.symm, List.map_eq_nil_iff.mp hAlike.diagnostics.symm⟩

/-- A canonical tag with another meaning does no harm to a statement that is drawn without it. -/
theorem roundTrip_enterPhase_of_shuffle_renamed :
    let vocabulary := Vocabulary.ofAliases [(BlockKind.shuffle.tag, BlockKind.enterPhase.tag)]
    let statement := Statement.enterPhase "draw"
    vocabulary.kind? BlockKind.shuffle.tag = some .enterPhase ∧ "" ∉ statement.requiredNames ∧
      ∃ trip, statement.roundTrip vocabulary .unchecked = .ok trip ∧
        trip.reading.finished = true ∧ trip.reading.value = statement.normalForm ∧
          trip.reading.diagnostics = [] := by
  intro vocabulary statement
  have hNames : "" ∉ statement.requiredNames := by decide +kernel
  obtain ⟨trip, hTrip, hSame⟩ := (roundTrip_ofAliases _).2 statement hNames
  refine ⟨by decide +kernel, hNames, trip, hTrip, hSame fun block hBlock kind hTag => ?_⟩
  have hDrawn := (statement.roundTrip_drawn vocabulary .unchecked).symm.trans hTrip
  obtain rfl := Except.ok.inj hDrawn
  have hTags : ∀ block ∈ statement.drawn.blocks, block.tag = BlockKind.enterPhase.tag := by
    decide +kernel
  obtain rfl := BlockKind.tag_injective (hTag.symm.trans (hTags block hBlock))
  decide +kernel

/-- A tag that is given the meaning of another kind is read as that kind: a phase that is entered
comes back as something else. -/
theorem roundTrip_redirected :
    let vocabulary := Vocabulary.ofAliases [(BlockKind.enterPhase.tag, BlockKind.shuffle.tag)]
    let statement := Statement.enterPhase "draw"
    vocabulary.kind? BlockKind.enterPhase.tag = some .shuffle ∧ "" ∉ statement.requiredNames ∧
      ∃ trip, statement.roundTrip vocabulary .unchecked = .ok trip ∧
        trip.reading.value ≠ statement.normalForm ∧ trip.reading.hasErrors = true := by
  intro vocabulary statement
  exact ⟨by decide +kernel, by decide +kernel, _, statement.roundTrip_drawn vocabulary .unchecked,
    by decide +kernel, by decide +kernel⟩

end Statement

end RuleBlocks
