import RuleBlocks.Proofs.Reading.Hats
import RuleBlocks.Proofs.Reading.Sockets

/-!
# Hats that are reported

A hat that stands free gives a phase, or an error is reported at it: its name is missing, or another
hat has the name already. Any other hat gives no phase. An error is reported at it just if the
reading of the chain below a hat that stands free comes to it (`Workspace.run_hat_reported_iff`), so
a hat in a chain that begins with another block than a hat is lost without a word
(`Workspace.hatInChain_lost`).
-/

namespace RuleBlocks

namespace Reader

open Reading

variable {reader : Reader} {known : Phases} {hat : NodeId} {hats : List NodeId} {name : String}
variable {diagnostic : Diagnostic}

/-- The phases that are known once one more hat was read. -/
def withHat (reader : Reader) (known : Phases) (hat : NodeId) : Phases :=
  match reader.view.filledField? hat Field.phase with
  | none => known
  | some name =>
    if known.contains name then known
    else known.insert name (reader.readChain (reader.view.next? hat)).value

/-- The report that the name of a hat is known already. -/
def reportClash (reader : Reader) (known : Phases) (hat : NodeId) : Reading Unit :=
  match reader.view.filledField? hat Field.phase with
  | none => pure ()
  | some name =>
    if known.contains name then reader.report ⟨hat, []⟩ .error (.duplicatePhase name) else pure ()

theorem diagnostics_phase (hat : NodeId) :
    (reader.phase hat).diagnostics =
      (reader.requiredField ⟨hat, []⟩ Field.phase).diagnostics ++
        (reader.readChain (reader.view.next? hat)).diagnostics := by
  rw [phase, diagnostics_bind, diagnostics_bind, diagnostics_pure, List.append_nil]
  rfl

theorem diagnostics_addPhases_cons :
    (reader.addPhases known (hat :: hats)).diagnostics =
      (reader.phase hat).diagnostics ++ ((reader.reportClash known hat).diagnostics ++
        (reader.addPhases (reader.withHat known hat) hats).diagnostics) := by
  rw [addPhases, diagnostics_bind, value_phase, reportClash, withHat]
  cases reader.view.filledField? hat Field.phase with
  | none => rfl
  | some name =>
    dsimp only
    split
    · rw [diagnostics_bind]
    · rfl

/-- What is reported for a hat is reported for the phases. -/
theorem diagnostics_phase_subset (hMem : hat ∈ hats) :
    (reader.phase hat).diagnostics ⊆ (reader.addPhases known hats).diagnostics := by
  induction hats generalizing known with
  | nil => cases hMem
  | cons other hats ih =>
    rw [diagnostics_addPhases_cons]
    rcases List.mem_cons.mp hMem with rfl | hMem
    · exact List.subset_append_left _ _
    · exact List.subset_append_of_subset_right _ (List.subset_append_of_subset_right _ (ih hMem))

/-- All that is reported for the phases stands at one of the hats, or is reported for the chain
below one. -/
theorem mem_diagnostics_addPhases
    (hMem : diagnostic ∈ (reader.addPhases known hats).diagnostics) :
    ∃ hat ∈ hats, diagnostic.node = hat ∨
      diagnostic ∈ (reader.readChain (reader.view.next? hat)).diagnostics := by
  induction hats generalizing known with
  | nil => cases hMem
  | cons hat hats ih =>
    rw [diagnostics_addPhases_cons, List.mem_append, List.mem_append, diagnostics_phase,
      List.mem_append] at hMem
    rcases hMem with (hMem | hMem) | hMem | hMem
    · refine ⟨hat, List.mem_cons_self, Or.inl ?_⟩
      unfold requiredField at hMem
      split at hMem
      · cases hMem
      · exact (mem_diagnostics_fail hMem).1.1
    · exact ⟨hat, List.mem_cons_self, Or.inr hMem⟩
    · refine ⟨hat, List.mem_cons_self, Or.inl ?_⟩
      unfold reportClash at hMem
      split at hMem
      · cases hMem
      · split at hMem
        · rw [List.mem_singleton.mp hMem]
        · cases hMem
    · obtain ⟨other, hOther, h⟩ := ih hMem
      exact ⟨other, List.mem_cons_of_mem _ hOther, h⟩

theorem get?_withHat_eq_none (h : (reader.withHat known hat).get? name = none) :
    known.get? name = none ∧ reader.view.filledField? hat Field.phase ≠ some name := by
  unfold withHat at h
  cases hOther : reader.view.filledField? hat Field.phase with
  | none =>
    rw [hOther] at h
    exact ⟨h, nofun⟩
  | some other =>
    rw [hOther] at h
    dsimp only at h
    split at h
    · rename_i hKnown
      refine ⟨h, fun hEq => ?_⟩
      obtain rfl := Option.some.inj hEq
      rw [NameMap.contains, h] at hKnown
      cases hKnown
    · rw [NameMap.get?_insert] at h
      split at h
      · cases h
      · rename_i hNe
        exact ⟨h, fun hEq => hNe (Option.some.inj hEq)⟩

theorem exists_error_reportClash (hName : reader.view.filledField? hat Field.phase = some name)
    (hKnown : known.contains name = true) :
    ∃ diagnostic ∈ (reader.reportClash known hat).diagnostics,
      diagnostic.node = hat ∧ diagnostic.isError = true := by
  rw [reportClash, hName]
  dsimp only
  rw [if_pos hKnown]
  exact ⟨_, List.mem_singleton_self _, rfl, rfl⟩

theorem exists_error_requiredField {field : String}
    (hMissing : reader.view.filledField? hat field = none) :
    ∃ diagnostic ∈ (reader.requiredField ⟨hat, []⟩ field).diagnostics,
      diagnostic.node = hat ∧ diagnostic.isError = true := by
  rw [requiredField, hMissing]
  exact ⟨_, List.mem_singleton_self _, rfl, rfl⟩

/-- A hat with a name is the first with it, or an error is reported at the hat. -/
theorem first_or_error (known : Phases) (hMem : hat ∈ hats)
    (hName : reader.view.filledField? hat Field.phase = some name) :
    (known.get? name = none ∧
        hats.find? (fun hat => reader.view.filledField? hat Field.phase = some name) = some hat) ∨
      ∃ diagnostic ∈ (reader.addPhases known hats).diagnostics,
        diagnostic.node = hat ∧ diagnostic.isError = true := by
  induction hats generalizing known with
  | nil => cases hMem
  | cons other hats ih =>
    rw [diagnostics_addPhases_cons]
    rcases List.mem_cons.mp hMem with rfl | hMem
    · cases hKnown : known.get? name with
      | none => exact Or.inl ⟨rfl, List.find?_cons_of_pos (decide_eq_true hName)⟩
      | some evaluate =>
        have hContains : known.contains name = true := by rw [NameMap.contains, hKnown]; rfl
        obtain ⟨diagnostic, hReport, hAt⟩ := exists_error_reportClash hName hContains
        exact Or.inr ⟨diagnostic, List.mem_append_right _ (List.mem_append_left _ hReport), hAt⟩
    · rcases ih (reader.withHat known other) hMem with ⟨hNew, hFirst⟩ | hError
      · obtain ⟨hNone, hNe⟩ := get?_withHat_eq_none hNew
        exact Or.inl ⟨hNone, by rwa [List.find?_cons_of_neg (by simpa using hNe)]⟩
      · obtain ⟨diagnostic, hMem, hAt⟩ := hError
        exact Or.inr ⟨diagnostic, List.mem_append_right _ (List.mem_append_right _ hMem), hAt⟩

end Reader

namespace Workspace

variable {workspace : Workspace}

/-- **Which hats are reported.** After any run of commands, a hat that stands free is the first with
its name and gives the phase, or an error is reported at it. At a hat that does not stand free an
error is reported just if the reading of the chain below one that does comes to it. -/
theorem run_hat_reported_iff (commands : List Command) (vocabulary : Vocabulary)
    (options : ReadOptions) {hat : NodeId}
    (hHat : (run commands).view.kind? vocabulary hat = some .phase) :
    let workspace := run commands
    let reader := Reader.ofView workspace.view vocabulary options
    let phases := reader.readPhases
    phases.finished = true ∧
      (workspace.StandsFree hat →
        (∃ name, workspace.IsFreeHat vocabulary name hat ∧
          (∀ earlier < hat, ¬ workspace.IsFreeHat vocabulary name earlier) ∧
          phases.value.get? name = some (reader.readChain (workspace.view.next? hat)).value) ∨
        ∃ diagnostic ∈ phases.diagnostics, diagnostic.node = hat ∧ diagnostic.isError = true) ∧
      (¬ workspace.StandsFree hat →
        ((∃ diagnostic ∈ phases.diagnostics,
            diagnostic.node = hat ∧ diagnostic.isError = true) ↔
          ∃ top, workspace.view.kind? vocabulary top = some .phase ∧ workspace.StandsFree top ∧
            reader.ComesTo (workspace.view.next? top) hat)) := by
  intro workspace reader phases
  have hForest := Forest.run commands
  have hFinished (first : Option NodeId) : (reader.readChain first).finished = true :=
    Reader.finished_readChain hForest rfl first
  refine ⟨Reader.finished_readPhases hForest rfl, fun hFree => ?_, fun hNested => ?_⟩
  · have hTop : hat ∈ reader.view.nodes.filter reader.isTopHat :=
      (hForest.mem_hats_iff rfl).mpr ⟨hHat, hFree⟩
    cases hName : reader.view.filledField? hat Field.phase with
    | none =>
      obtain ⟨diagnostic, hMem, hAt⟩ := Reader.exists_error_requiredField hName
      have hPhase : diagnostic ∈ (reader.phase hat).diagnostics := by
        rw [Reader.diagnostics_phase]
        exact List.mem_append_left _ hMem
      exact Or.inr ⟨diagnostic, Reader.diagnostics_phase_subset hTop hPhase, hAt⟩
    | some name =>
      have hOr := Reader.first_or_error NameMap.empty hTop hName
      refine hOr.imp_left fun ⟨_, hFirst⟩ => ?_
      obtain ⟨hIs, hEarlier⟩ := (hForest.find?_hats_eq_some_iff rfl).mp hFirst
      refine ⟨name, hIs, hEarlier, ?_⟩
      rw [Reader.get?_readPhases, hFirst]
      rfl
  · constructor
    · rintro ⟨diagnostic, hMem, rfl, -⟩
      obtain ⟨top, hTop, hAt⟩ := Reader.mem_diagnostics_addPhases hMem
      obtain ⟨hKind, hFree⟩ := (hForest.mem_hats_iff rfl).mp hTop
      rcases hAt with rfl | hMem
      · exact absurd hFree hNested
      · exact ⟨top, hKind, hFree, Reader.comesTo_of_mem_diagnostics (hFinished _) hMem⟩
    · rintro ⟨top, hKind, hFree, hComes⟩
      have hTop : top ∈ reader.view.nodes.filter reader.isTopHat :=
        (hForest.mem_hats_iff rfl).mpr ⟨hKind, hFree⟩
      obtain ⟨diagnostic, hMem, hAt⟩ := hComes.exists_error hHat (hFinished _)
      have hPhase : diagnostic ∈ (reader.phase top).diagnostics := by
        rw [Reader.diagnostics_phase]
        exact List.mem_append_right _ hMem
      exact ⟨diagnostic, Reader.diagnostics_phase_subset hTop hPhase, hAt⟩

/-- A hat in the body of a loop below another hat. -/
def hatInLoop : List Command :=
  [.edit (.create BlockKind.phase.tag), .edit (.setField 0 Field.phase "main"),
    .edit (.create BlockKind.repeatWhile.tag), .edit (.attach ⟨0, .next⟩ 1),
    .edit (.create BlockKind.phase.tag), .edit (.setField 2 Field.phase "draw"),
    .edit (.attach ⟨1, .statement Input.body⟩ 2)]

theorem hatInLoop_reported :
    let reader := Reader.ofView (run hatInLoop).view .canonical .unchecked
    reader.view.kind? .canonical 2 = some .phase ∧ ¬ (run hatInLoop).StandsFree 2 ∧
      ∃ diagnostic ∈ reader.readPhases.diagnostics,
        diagnostic.node = 2 ∧ diagnostic.isError = true := by
  intro reader
  have hHat : reader.view.kind? .canonical 2 = some .phase := by decide
  have hLoop : reader.view.kind? reader.vocabulary 1 = some .repeatWhile := by decide
  have hNested : ¬ (run hatInLoop).StandsFree 2 := by
    rw [(Forest.run hatInLoop).standsFree_iff]
    exact fun h => absurd h.2 (by decide)
  have hComes : reader.ComesTo (reader.view.next? 0) 2 :=
    Or.inl ⟨_, .held .top (by decide) hLoop (List.mem_singleton_self _), by decide⟩
  obtain ⟨-, -, hReported⟩ := run_hat_reported_iff hatInLoop .canonical .unchecked hHat
  exact ⟨hHat, hNested, (hReported hNested).mpr ⟨0, by decide, Or.inl (by decide), hComes⟩⟩

/-- A hat with a name after a block that stands free. -/
def hatInChain : List Command :=
  [.edit (.create BlockKind.phase.tag), .edit (.setField 0 Field.phase "main"),
    .edit (.create BlockKind.enterPhase.tag), .edit (.setField 1 Field.phaseName "draw"),
    .edit (.attach ⟨1, .next⟩ 0)]

theorem hatInChain_lost :
    let reader := Reader.ofView (run hatInChain).view .canonical .unchecked
    reader.view.kind? .canonical 0 = some .phase ∧
      reader.view.filledField? 0 Field.phase = some "main" ∧
      reader.readPhases = ⟨NameMap.empty, [], true⟩ := by
  refine ⟨by decide, by decide, by rfl⟩

end Workspace

end RuleBlocks
