import RuleBlocks.Proofs.RoundTrip.Lossless

/-!
# Round trips of phases

Phases are drawn in the empty workspace as one tree each: the roots are just their hats, in the
order of the names. Read again, the phases come back in normal form, just if neither a name of a
phase nor a required name in one is empty (`Phases.roundTrip_hats`).
-/

namespace RuleBlocks

open Blueprint

namespace Reader

variable {reader : Reader} {workspace : Workspace} {free : Nat}
variable {entries : List (String × Statement)}

/-- The hats of chains that hang from nothing, one for each phase. -/
theorem forall₂_chainHeads (hOver : reader.Over workspace)
    (hHang : workspace.ChainsHang free (entries.map phaseChain)) :
    List.Forall₂
      (fun entry hat => reader.view.kind? reader.vocabulary hat = some .phase ∧
        reader.view.field? hat Field.phase = some entry.1)
      entries (chainHeads free (entries.map phaseChain)) := by
  induction entries generalizing free with
  | nil => exact .nil
  | cons entry entries ih =>
    obtain ⟨hFirst, hRest⟩ := hHang
    have hHat := hFirst.chainDrawn.1
    have hField : reader.view.field? (Spot.mk free []).node Field.phase = some entry.1 :=
      field?_of_leaf hOver hHat
    exact .cons ⟨hOver.kind? hHat, hField⟩ (ih hRest)

end Reader

namespace Phases

variable (phases : Phases)

theorem roots_drawn : phases.drawn.roots = chainHeads 0 phases.blueprints := by
  rw [drawn, Workspace.roots_extend_empty, Workspace.rootsOf_chainsLayout]

/-- Phases whose reading is the normal form of others have their names and their required names. -/
theorem required_of_readPhases {reader : Reader}
    (hValue : reader.readPhases.value = Phases.normalForm phases) :
    "" ∉ phases.entries.flatMap fun entry => entry.1 :: entry.2.requiredNames := by
  intro hEmpty
  obtain ⟨entry, hEntry, hName⟩ := List.mem_flatMap.mp hEmpty
  have hRead : (entry.1, entry.2.normalForm) ∈ reader.readPhases.value.entries := by
    rw [hValue]
    exact List.mem_map_of_mem hEntry
  obtain ⟨hFilled, hCanonical⟩ := reader.canonical_readPhases _ hRead
  rcases List.mem_cons.mp hName with hName | hName
  · exact hFilled hName.symm
  · exact hCanonical.required (entry.2.requiredNames_normalForm ▸ hName)

/-- **Round trips of phases.** Drawing phases in the empty workspace is never refused. It makes one
root for each phase, its hat, in the order of the names, and answers these hats. If no name of a
phase and no required name in it is empty, then the phases are read again with the same names and in
normal form, and nothing is reported; otherwise something else is read and an error is reported. -/
theorem roundTrip_hats :
    ∃ workspace hats trip,
      EditableGraph.insertChains Workspace.empty phases.blueprints = (workspace, .ok hats) ∧
      workspace.roots = hats ∧
      List.Forall₂
        (fun name hat => workspace.view.kind? .canonical hat = some .phase ∧
          workspace.view.field? hat Field.phase = some name) phases.names hats ∧
      Phases.roundTrip phases .canonical .unchecked = .ok trip ∧
      trip.workspace = workspace ∧
      trip.reading = (Reader.ofView workspace.view .canonical .unchecked).readPhases ∧
      trip.reading.finished = true ∧
      if "" ∈ phases.entries.flatMap fun entry => entry.1 :: entry.2.requiredNames then
        trip.reading.value ≠ Phases.normalForm phases ∧ trip.reading.hasErrors = true
      else
        trip.reading.value = Phases.normalForm phases ∧ trip.reading.diagnostics = [] := by
  obtain ⟨hInsert, hForest⟩ := phases.insertChains_blueprints
  have hFinished : (phases.drawnReader .unchecked).readPhases.finished = true :=
    Reader.finished_readPhases hForest rfl
  have hHang : phases.drawn.ChainsHang 0 (phases.entries.map phaseChain) :=
    Workspace.BlocksAt.chainsHang Workspace.blocksAt_extend phases.chainEvery_nodup_blueprints
  have hHats := Reader.forall₂_chainHeads (phases.over_drawn .unchecked) hHang
  have hOutside : (phases.drawnReader .unchecked).SeesOutside [] := Reader.seesOutside_unchecked rfl
  have hRecovers := phases.recovers_readPhases hOutside
  refine ⟨_, _, _, hInsert, phases.roots_drawn, ?_, phases.roundTrip_eq .unchecked, rfl, rfl,
    hFinished, ?_⟩
  · rw [NameMap.names, List.forall₂_map_left_iff]
    exact hHats
  · split
    · rename_i hEmpty
      exact ⟨fun hValue => phases.required_of_readPhases hValue hEmpty, hRecovers.faulty hEmpty⟩
    · rename_i hFilled
      dsimp only
      rw [hRecovers.eq_clean rfl hFilled hFinished]
      exact ⟨rfl, rfl⟩

end Phases

end RuleBlocks
