import RuleBlocks.Proofs.Reading.Forest

/-!
# The phases that are read

A hat is read if no block stands before it in a chain and no block holds a chain around it. So a hat
that is attached to nothing is read, but also one that is plugged into a socket for values of a
block around which there is no such chain (`Forest.standsFree_iff`).

Of several hats with one name the first counts, so a name is read just if a hat carries it, and its
phase is the chain below the first of these hats (`Workspace.run_phases_iff`).
-/

namespace RuleBlocks

namespace Reader

open Reading

variable {reader : Reader} {name : String}

theorem value_phase (hat : NodeId) :
    (reader.phase hat).value =
      (reader.view.filledField? hat Field.phase,
        (reader.readChain (reader.view.next? hat)).value) := by
  rw [phase, value_bind, value_bind, value_pure, value_requiredField]
  rfl

/-- A phase that is known stays, and among the hats the first with a name gives its phase. -/
theorem get?_addPhases (known : Phases) (hats : List NodeId) :
    (reader.addPhases known hats).value.get? name =
      (known.get? name).or
        ((hats.find? fun hat => reader.view.filledField? hat Field.phase = some name).map
          fun hat => (reader.readChain (reader.view.next? hat)).value) := by
  induction hats generalizing known with
  | nil => simp [addPhases]
  | cons hat hats ih =>
    rw [addPhases, value_bind, value_phase, List.find?_cons]
    cases hName : reader.view.filledField? hat Field.phase with
    | none => simpa using ih known
    | some other =>
      dsimp only
      by_cases hKnown : known.contains other = true
      · rw [if_pos hKnown, value_bind, ih]
        by_cases hEq : other = name
        · obtain ⟨evaluate, hEvaluate⟩ := Option.isSome_iff_exists.mp (hEq ▸ hKnown)
          simp [hEvaluate]
        · simp [hEq]
      · rw [if_neg hKnown, ih, NameMap.get?_insert]
        by_cases hEq : other = name
        · have hNew : known.get? name = none := by simpa [NameMap.contains, hEq] using hKnown
          simp [hEq, hNew]
        · simp [hEq]

theorem get?_readPhases :
    reader.readPhases.value.get? name =
      ((reader.view.nodes.filter reader.isTopHat).find? fun hat =>
        reader.view.filledField? hat Field.phase = some name).map
          fun hat => (reader.readChain (reader.view.next? hat)).value := by
  rw [readPhases, get?_addPhases, NameMap.get?_empty, Option.none_or]

end Reader

namespace Workspace

variable {workspace : Workspace} {node : NodeId}

/-- The block is attached to nothing, or it is plugged as a value into a block around which there is
none that holds a chain. -/
def StandsFree (workspace : Workspace) (node : NodeId) : Prop :=
  workspace.parent? node = none ∨
    ∃ parent input, workspace.parent? node = some ⟨parent, .value input⟩ ∧
      workspace.enclosing? parent = none

theorem Forest.standsFree_iff (hForest : workspace.Forest) :
    workspace.StandsFree node ↔
      workspace.previous? node = none ∧ workspace.enclosing? node = none := by
  unfold StandsFree
  cases hParent : workspace.parent? node with
  | none => simp [previous?, hParent, enclosing?_of_root hParent]
  | some link =>
    rw [hForest.enclosing?_eq hParent, previous?, hParent]
    obtain ⟨parent, via⟩ := link
    cases via <;> simp

/-- The hat of a phase with a name, which stands free. -/
structure IsFreeHat (workspace : Workspace) (vocabulary : Vocabulary) (name : String)
    (hat : NodeId) : Prop where
  kind : workspace.view.kind? vocabulary hat = some .phase
  free : workspace.StandsFree hat
  named : workspace.view.filledField? hat Field.phase = some name

theorem Forest.isTopHat_iff (hForest : workspace.Forest) {reader : Reader}
    (hView : reader.view = workspace.view) {hat : NodeId} :
    reader.isTopHat hat = true ↔
      workspace.view.kind? reader.vocabulary hat = some .phase ∧ workspace.StandsFree hat := by
  unfold Reader.isTopHat
  rw [hForest.standsFree_iff, hView, Bool.and_eq_true, Bool.and_eq_true, decide_eq_true_iff,
    Option.isNone_iff_eq_none, Option.isNone_iff_eq_none, and_assoc]
  rfl

theorem Forest.isFreeHat_iff (hForest : workspace.Forest) {reader : Reader}
    (hView : reader.view = workspace.view) {name : String} {hat : NodeId} :
    workspace.IsFreeHat reader.vocabulary name hat ↔
      reader.isTopHat hat = true ∧ reader.view.filledField? hat Field.phase = some name := by
  rw [hForest.isTopHat_iff hView, hView]
  exact ⟨fun h => ⟨⟨h.kind, h.free⟩, h.named⟩, fun h => ⟨h.1.1, h.1.2, h.2⟩⟩

theorem lt_size_of_kind? {vocabulary : Vocabulary} {node : NodeId} {kind : BlockKind}
    (h : workspace.view.kind? vocabulary node = some kind) : node < workspace.size := by
  obtain ⟨tag, hTag, -⟩ := Option.bind_eq_some_iff.mp h
  obtain ⟨block, hBlock, -⟩ := Option.map_eq_some_iff.mp hTag
  exact lt_size_of_block? hBlock

theorem Forest.mem_hats_iff (hForest : workspace.Forest) {reader : Reader}
    (hView : reader.view = workspace.view) {hat : NodeId} :
    hat ∈ reader.view.nodes.filter reader.isTopHat ↔
      workspace.view.kind? reader.vocabulary hat = some .phase ∧ workspace.StandsFree hat := by
  have hNodes : reader.view.nodes = List.range workspace.size := by
    rw [hView]
    exact hForest.nodes_eq
  rw [List.mem_filter, hForest.isTopHat_iff hView, hNodes, List.mem_range, and_iff_right_iff_imp]
  exact fun h => lt_size_of_kind? h.1

/-- The first hat with a name among those that are read. -/
theorem Forest.find?_hats_eq_some_iff (hForest : workspace.Forest) {reader : Reader}
    (hView : reader.view = workspace.view) {name : String} {hat : NodeId} :
    (reader.view.nodes.filter reader.isTopHat).find?
        (fun hat => reader.view.filledField? hat Field.phase = some name) = some hat ↔
      workspace.IsFreeHat reader.vocabulary name hat ∧
        ∀ earlier < hat, ¬ workspace.IsFreeHat reader.vocabulary name earlier := by
  have hNodes : reader.view.nodes = List.range workspace.size := by
    rw [hView]
    exact hForest.nodes_eq
  have hFree (hat : NodeId) : reader.isTopHat hat = true ∧
      reader.view.filledField? hat Field.phase = some name ↔
        workspace.IsFreeHat reader.vocabulary name hat := (hForest.isFreeHat_iff hView).symm
  rw [List.find?_filter, hNodes, List.find?_range_eq_some]
  simp only [Bool.not_eq_true', decide_eq_true_iff, decide_eq_false_iff_not, hFree, List.mem_range]
  exact ⟨fun h => ⟨h.1, h.2.2⟩, fun h => ⟨h.1, lt_size_of_kind? h.1.kind, h.2⟩⟩

theorem IsFreeHat.lt_size {vocabulary : Vocabulary} {name : String} {hat : NodeId}
    (h : workspace.IsFreeHat vocabulary name hat) : hat < workspace.size := lt_size_of_kind? h.kind

/-- **A phase is read just if a hat that stands free carries its name.** After any run of commands,
the phases that are read are the chains below the hats that stand free and have a name, where the
first hat in order of creation counts among those with one name. -/
theorem run_phases_iff (commands : List Command) (vocabulary : Vocabulary)
    (options : ReadOptions) :
    let workspace := run commands
    let reader := Reader.ofView workspace.view vocabulary options
    reader.readPhases.finished = true ∧
      ∀ name evaluate, reader.readPhases.value.get? name = some evaluate ↔
        ∃ hat, workspace.IsFreeHat vocabulary name hat ∧
          (∀ earlier < hat, ¬ workspace.IsFreeHat vocabulary name earlier) ∧
          evaluate = (reader.readChain (workspace.view.next? hat)).value := by
  intro workspace reader
  have hForest := Forest.run commands
  refine ⟨Reader.finished_readPhases hForest rfl, fun name evaluate => ?_⟩
  have hNodes : reader.view.nodes = List.range workspace.size := hForest.nodes_eq
  rw [Reader.get?_readPhases, List.find?_filter, hNodes, Option.map_eq_some_iff]
  refine exists_congr fun hat => ?_
  have hFree (hat : NodeId) : reader.isTopHat hat = true ∧
      reader.view.filledField? hat Field.phase = some name ↔
        workspace.IsFreeHat vocabulary name hat := (hForest.isFreeHat_iff rfl).symm
  rw [List.find?_range_eq_some]
  simp only [Bool.not_eq_true', decide_eq_true_iff, decide_eq_false_iff_not, hFree, List.mem_range]
  constructor
  · rintro ⟨⟨hHat, -, hFirst⟩, rfl⟩
    exact ⟨hHat, hFirst, rfl⟩
  · rintro ⟨hHat, hFirst, rfl⟩
    exact ⟨⟨hHat, hHat.lt_size, hFirst⟩, rfl⟩

/-- A hat with a name, plugged into a socket for values of a block that stands free. -/
def pluggedHat : List Command :=
  [.edit (.create BlockKind.phase.tag), .edit (.setField 0 Field.phase "main"),
    .edit (.create BlockKind.enterPhase.tag), .edit (.attach ⟨1, .value "X"⟩ 0)]

theorem pluggedHat_read :
    (run pluggedHat).roots = [1] ∧
      (run pluggedHat).view.kind? .canonical 1 = some .enterPhase ∧
      (Reader.ofView (run pluggedHat).view .canonical .unchecked).readPhases.value.get? "main" =
        some .empty := by
  refine ⟨by decide, by decide, by rfl⟩

end Workspace

end RuleBlocks
