import RuleBlocks.Proofs.Reading.Statement
import RuleBlocks.Proofs.Reading.Forest
import RuleBlocks.Proofs.RoundTrip.Program
import RuleBlocks.RoundTrip

/-!
# Lossless round trips

A statement that is drawn in an empty workspace is read again in its normal form, just if none of
its required names is empty (`Statement.roundTrip_lossless`). What is read is always canonical, so
it can be drawn and read again without any loss, whatever workspace it was read from
(`Workspace.run_readings_roundTrip`).
-/

namespace RuleBlocks

open Blueprint

/-! ## Drawn programs -/

/-- The workspace in which just a statement is drawn. -/
def Statement.drawn (statement : Statement) : Workspace :=
  Workspace.empty.extend (chainLayout 0 none statement.blueprints)

/-- The reader of the workspace in which just a statement is drawn. -/
def Statement.drawnReader (statement : Statement) (options : ReadOptions) : Reader :=
  .ofView statement.drawn.view .canonical options

/-- What is read from the chain of a drawn statement. -/
def Statement.drawnReading (statement : Statement) (options : ReadOptions) : Reading Statement :=
  (statement.drawnReader options).readChain (chainNodes 0 statement.blueprints).head?

/-- The workspace in which just phases are drawn. -/
def Phases.drawn (phases : Phases) : Workspace :=
  Workspace.empty.extend (chainsLayout 0 phases.blueprints)

/-- The reader of the workspace in which just phases are drawn. -/
def Phases.drawnReader (phases : Phases) (options : ReadOptions) : Reader :=
  .ofView phases.drawn.view .canonical options

/-- A statement is drawn and comes back just as it is. -/
def Statement.RoundTrips (statement : Statement) : Prop :=
  ∃ workspace, statement.roundTrip .canonical .unchecked =
    .ok ⟨workspace, ⟨statement, [], true⟩, true⟩

/-- Phases are drawn and come back just as they are. -/
def Phases.RoundTrips (phases : Phases) : Prop :=
  ∃ workspace, Phases.roundTrip phases .canonical .unchecked =
    .ok ⟨workspace, ⟨phases, [], true⟩, true⟩

namespace Statement

variable (statement : Statement)

theorem chainEvery_nodup_blueprints :
    chainEvery (fun _ inputs => inputs.Nodup) statement.blueprints :=
  chainEvery_distinct statement.every_blueprints

theorem forest_drawn : statement.drawn.Forest :=
  Workspace.forest_empty.extend_chainLayout statement.chainEvery_nodup_blueprints

theorem hangs_drawn : statement.drawn.Hangs 0 none statement.blueprints :=
  ⟨statement.chainEvery_nodup_blueprints, Workspace.blocksAt_extend⟩

theorem over_drawn (options : ReadOptions) :
    (statement.drawnReader options).Over statement.drawn :=
  Reader.over_ofView statement.forest_drawn Vocabulary.kind?_canonical_tag options

/-- Drawing is never refused, and reading starts with the first member of the drawn chain. -/
theorem roundTrip_drawn (vocabulary : Vocabulary) (options : ReadOptions) :
    let reading := (Reader.ofView statement.drawn.view vocabulary options).readChain
      (chainNodes 0 statement.blueprints).head?
    statement.roundTrip vocabulary options =
      .ok ⟨statement.drawn, reading, reading.value = statement.normalForm⟩ := by
  have hInsert : EditableGraph.insertChain Workspace.empty .detached statement.blueprints =
      (statement.drawn, .ok (chainNodes 0 statement.blueprints).getLast?) :=
    Workspace.forest_empty.insertChain_detached statement.chainEvery_nodup_blueprints
  have hRoots : statement.drawn.roots.head? = (chainNodes 0 statement.blueprints).head? :=
    Workspace.head?_roots_extend_empty _
  have hFirst : ((chainNodes 0 statement.blueprints).getLast?.bind fun _ =>
      statement.drawn.roots.head?) = (chainNodes 0 statement.blueprints).head? := by
    rw [hRoots]
    cases chainNodes 0 statement.blueprints with
    | nil => rfl
    | cons first rest => rw [List.getLast?_cons, Option.bind_some]
  dsimp only
  rw [roundTrip, hInsert, ← hFirst]
  rfl

theorem roundTrip_eq (options : ReadOptions) :
    statement.roundTrip .canonical options =
      .ok ⟨statement.drawn, statement.drawnReading options,
        (statement.drawnReading options).value = statement.normalForm⟩ :=
  statement.roundTrip_drawn .canonical options

theorem finished_drawnReading (options : ReadOptions) :
    (statement.drawnReading options).finished = true :=
  Reader.finished_readChain statement.forest_drawn rfl _

theorem recovers_drawnReading {options : ReadOptions} {visible : List (Category × String)}
    (hOutside : (statement.drawnReader options).SeesOutside visible) :
    (statement.drawnReader options).Recovers (statement.drawnReading options) statement.normalForm
      statement.requiredNames (statement.unresolved visible) := by
  have hOver := statement.over_drawn options
  exact Reader.recovers_chain hOver statement.hangs_drawn
    (Reader.sees_of_hangs_outside hOver hOutside statement.hangs_drawn) []

theorem recovers_drawnReading_unchecked :
    (statement.drawnReader .unchecked).Recovers (statement.drawnReading .unchecked)
      statement.normalForm statement.requiredNames (statement.unresolved []) :=
  statement.recovers_drawnReading (Reader.seesOutside_unchecked rfl)

variable {statement}

theorem Canonical.roundTrips (hCanonical : statement.Canonical) : statement.RoundTrips := by
  have hReading := statement.recovers_drawnReading_unchecked.eq_clean rfl hCanonical.required
    (statement.finished_drawnReading .unchecked)
  rw [hCanonical.normal] at hReading
  refine ⟨statement.drawn, ?_⟩
  rw [roundTrip_eq, hReading, hCanonical.normal]
  simp

/-- **Just the statements without empty names make a lossless round trip.** Drawing is never
refused. If no required name is empty, the normal form of the statement is read and nothing is
reported; otherwise something else is read and an error is reported. -/
theorem roundTrip_lossless (statement : Statement) :
    ∃ trip, statement.roundTrip .canonical .unchecked = .ok trip ∧
      trip.reading.finished = true ∧
      if "" ∈ statement.requiredNames then
        trip.reading.value ≠ statement.normalForm ∧ trip.reading.hasErrors = true
      else trip.reading.value = statement.normalForm ∧ trip.reading.diagnostics = [] := by
  have hRecovers := statement.recovers_drawnReading_unchecked
  have hFinished := statement.finished_drawnReading .unchecked
  refine ⟨_, statement.roundTrip_eq .unchecked, hFinished, ?_⟩
  split
  · rename_i hEmpty
    refine ⟨fun hValue => ?_, hRecovers.faulty hEmpty⟩
    -- what is read is canonical, but the normal form keeps the empty name
    have hCanonical : (statement.drawnReading .unchecked).value.Canonical :=
      Reader.canonical_readChain _ _
    dsimp only at hValue
    rw [hValue] at hCanonical
    have hRequired := hCanonical.required
    rw [statement.requiredNames_normalForm] at hRequired
    exact hRequired hEmpty
  · rename_i hFilled
    dsimp only
    rw [hRecovers.eq_clean rfl hFilled hFinished]
    exact ⟨rfl, rfl⟩

end Statement

/-! ## Phases -/

namespace Phases

variable (phases : Phases)

theorem chainEvery_nodup_blueprints :
    ∀ chain ∈ phases.blueprints, chainEvery (fun _ inputs => inputs.Nodup) chain := by
  intro chain hChain
  obtain ⟨entry, -, rfl⟩ := List.mem_map.mp hChain
  exact chainEvery_phaseChain entry

theorem insertChains_blueprints :
    EditableGraph.insertChains Workspace.empty phases.blueprints =
        (phases.drawn, .ok (chainHeads 0 phases.blueprints)) ∧ phases.drawn.Forest :=
  Workspace.forest_empty.insertChains_eq phases.chainEvery_nodup_blueprints

theorem over_drawn (options : ReadOptions) : (phases.drawnReader options).Over phases.drawn :=
  Reader.over_ofView phases.insertChains_blueprints.2 Vocabulary.kind?_canonical_tag options

/-- Drawing is never refused, and the phases are read from the workspace in which they are drawn. -/
theorem roundTrip_drawn (vocabulary : Vocabulary) (options : ReadOptions) :
    let reading := (Reader.ofView phases.drawn.view vocabulary options).readPhases
    Phases.roundTrip phases vocabulary options =
      .ok ⟨phases.drawn, reading, reading.value = Phases.normalForm phases⟩ := by
  dsimp only
  rw [Phases.roundTrip, phases.insertChains_blueprints.1]
  rfl

theorem roundTrip_eq (options : ReadOptions) :
    Phases.roundTrip phases .canonical options =
      .ok ⟨phases.drawn, (phases.drawnReader options).readPhases,
        (phases.drawnReader options).readPhases.value = Phases.normalForm phases⟩ :=
  phases.roundTrip_drawn .canonical options

/-- Phases are read from the workspace in which they are drawn. -/
theorem recovers_readPhases {options : ReadOptions} {visible : List (Category × String)}
    (hOutside : (phases.drawnReader options).SeesOutside visible) :
    (phases.drawnReader options).Recovers (phases.drawnReader options).readPhases
      (Phases.normalForm phases)
      (phases.entries.flatMap fun entry => entry.1 :: entry.2.requiredNames)
      (phases.entries.flatMap fun entry => entry.2.unresolved visible) := by
  have hOver := phases.over_drawn options
  have hBlocks : phases.drawn.BlocksAt 0 (chainsLayout 0 (phases.entries.map phaseChain)) :=
    Workspace.blocksAt_extend
  have hNodes : phases.drawn.view.nodes =
      (chainsLayout 0 (phases.entries.map phaseChain)).map Block.number :=
    Workspace.nodes_extend_empty _
  rw [Reader.readPhases, hOver.view, hNodes, Reader.filter_isTopHat hOver hBlocks]
  exact Reader.recovers_addPhases hOver hOutside
    (hBlocks.chainsHang phases.chainEvery_nodup_blueprints) rfl

/-- Phases with names and canonical statements come back just as they are. -/
theorem roundTrips_of_canonical
    (hEntries : ∀ entry ∈ phases.entries, entry.1 ≠ "" ∧ entry.2.Canonical) :
    Phases.normalForm phases = phases ∧ phases.RoundTrips := by
  have hForest := phases.insertChains_blueprints.2
  have hNormal : Phases.normalForm phases = phases :=
    NameMap.mapValues_eq_self fun entry hEntry => (hEntries entry hEntry).2.normal
  have hNames : "" ∉ phases.entries.flatMap fun entry => entry.1 :: entry.2.requiredNames := by
    intro hEmpty
    obtain ⟨entry, hEntry, hName⟩ := List.mem_flatMap.mp hEmpty
    rcases List.mem_cons.mp hName with hName | hName
    · exact (hEntries entry hEntry).1 hName.symm
    · exact (hEntries entry hEntry).2.required hName
  have hOutside : (phases.drawnReader .unchecked).SeesOutside [] := Reader.seesOutside_unchecked rfl
  have hReading := (phases.recovers_readPhases hOutside).eq_clean rfl hNames
    (Reader.finished_readPhases hForest rfl)
  rw [hNormal] at hReading
  refine ⟨hNormal, phases.drawn, ?_⟩
  rw [roundTrip_eq, hReading, hNormal]
  simp

end Phases

/-! ## What is read from any workspace -/

/-- **What is read can be drawn and read again.** After any run of commands, a chain is read as a
canonical statement and the phases are read as canonical statements with names, and all of them make
a round trip without any loss. -/
theorem Workspace.run_readings_roundTrip (commands : List Command) (first : Option NodeId) :
    let reader := Reader.ofView (run commands).view .canonical .unchecked
    ((reader.readChain first).finished = true ∧ (reader.readChain first).value.Canonical ∧
        (reader.readChain first).value.RoundTrips) ∧
      reader.readPhases.finished = true ∧
      (∀ entry ∈ reader.readPhases.value.entries,
        entry.1 ≠ "" ∧ entry.2.Canonical ∧ entry.2.RoundTrips) ∧
      Phases.normalForm reader.readPhases.value = reader.readPhases.value ∧
      Phases.RoundTrips reader.readPhases.value := by
  intro reader
  have hForest := Forest.run commands
  have hCanonical := reader.canonical_readChain first
  have hPhases := reader.canonical_readPhases
  refine ⟨⟨Reader.finished_readChain hForest rfl first, hCanonical, hCanonical.roundTrips⟩,
    Reader.finished_readPhases hForest rfl, fun entry hEntry => ?_,
    Phases.roundTrips_of_canonical _ hPhases⟩
  obtain ⟨hName, hEntryCanonical⟩ := hPhases entry hEntry
  exact ⟨hName, hEntryCanonical, hEntryCanonical.roundTrips⟩

end RuleBlocks
