import RuleBlocks.Proofs.Reading.Alike

/-!
# What a check of references adds

A reader may check references against a scope. That adds warnings to what it reports, and changes
nothing else: in any graph, the same reader without the check reads the same, and its diagnostics
are those of the first one without the warnings, in the same order (`Reader.check_onlyWarns`). For
both of them go through the same blocks, and all that the check ever does is to report a warning.
-/

namespace RuleBlocks

/-- The fault is that a name refers to nothing, or that names cannot be resolved. -/
def Diagnostic.AboutReference (diagnostic : Diagnostic) : Prop :=
  (∃ name category, diagnostic.error = .unresolvedVariable name category) ∨
    ∃ error, diagnostic.error = .scope error

/-- Reports that become others when their warnings, all about references, are taken away. -/
structure WarningsAdded (checked unchecked : List Diagnostic) : Prop where
  errors : checked.filter Diagnostic.isError = unchecked
  warnings : ∀ diagnostic ∈ checked, diagnostic.isError = false → diagnostic.AboutReference

/-- A reading adds nothing to another one but warnings about references; the other one has no
warnings at all. -/
structure Reading.OnlyWarns {α : Type} (checked unchecked : Reading α) : Prop where
  value : checked.value = unchecked.value
  finished : checked.finished = unchecked.finished
  errors : checked.errors = unchecked.diagnostics
  warnings : ∀ diagnostic ∈ checked.warnings, diagnostic.AboutReference
  unwarned : unchecked.warnings = []

namespace WarningsAdded

theorem additive : Reading.Additive WarningsAdded where
  nil := ⟨rfl, fun _ hMem => absurd hMem List.not_mem_nil⟩
  append hFirst hMore := by
    refine ⟨?_, fun diagnostic hMem => ?_⟩
    · rw [List.filter_append, hFirst.errors, hMore.errors]
    · rcases List.mem_append.mp hMem with hMem | hMem
      · exact hFirst.warnings diagnostic hMem
      · exact hMore.warnings diagnostic hMem

/-- An error stays. -/
theorem error {diagnostic : Diagnostic} (hError : diagnostic.isError = true) :
    WarningsAdded [diagnostic] [diagnostic] where
  errors := List.filter_eq_self.mpr fun other hMem => by rwa [List.mem_singleton.mp hMem]
  warnings other hMem hWarning := by
    rw [List.mem_singleton.mp hMem, hError] at hWarning
    cases hWarning

/-- A warning about a reference goes. -/
theorem warning {diagnostic : Diagnostic} (hWarning : diagnostic.isError = false)
    (hAbout : diagnostic.AboutReference) : WarningsAdded [diagnostic] [] where
  errors := List.filter_eq_nil_iff.mpr fun other hMem => by
    rw [List.mem_singleton.mp hMem, hWarning]
    exact Bool.false_ne_true
  warnings other hMem _ := List.mem_singleton.mp hMem ▸ hAbout

end WarningsAdded

theorem Reading.Alike.onlyWarns {α : Type} {checked unchecked : Reading α}
    (h : Alike WarningsAdded α checked unchecked) : checked.OnlyWarns unchecked where
  value := h.value
  finished := h.finished
  errors := h.diagnostics.errors
  warnings diagnostic hMem := by
    obtain ⟨hMem, hWarning⟩ := List.mem_filter.mp hMem
    exact h.diagnostics.warnings diagnostic hMem (by simpa using hWarning)
  unwarned := by
    rw [Reading.warnings, ← h.diagnostics.errors]
    refine List.filter_eq_nil_iff.mpr fun diagnostic hMem => ?_
    simp [List.of_mem_filter hMem]

namespace Reader

variable {reader : Reader} {spot : Spot} {node : NodeId}

/-- The same reader without a check of references. -/
def unchecked (reader : Reader) : Reader := { reader with scope? := none }

/-- Checking a reference reports a warning about it, or nothing. -/
theorem warningsAdded_checkReference (category : Category) (name : String) :
    WarningsAdded (reader.checkReference spot category name).diagnostics [] := by
  unfold checkReference
  split
  · exact WarningsAdded.additive.nil
  · split
    · exact WarningsAdded.additive.nil
    · exact .warning rfl (Or.inl ⟨name, category, rfl⟩)
    · exact .warning rfl (Or.inr ⟨_, rfl⟩)

/-- With and without the check, a reader goes through the same blocks. -/
theorem inStep_unchecked (reader : Reader) :
    reader.InStep reader.unchecked (· = ·) (Reading.Alike WarningsAdded) :=
  inStep_of_scopes WarningsAdded.additive (fun _ => .error) fun _ => warningsAdded_checkReference

/-! ## What can be read -/

theorem alike_readChain (reader : Reader) (first : Option NodeId) :
    Reading.Alike WarningsAdded _ (reader.readChain first) (reader.unchecked.readChain first) :=
  (readAlike_of_inStep reader.inStep_unchecked).chain first

theorem alike_readPhases (reader : Reader) :
    Reading.Alike WarningsAdded _ reader.readPhases reader.unchecked.readPhases :=
  (readAlike_of_inStep reader.inStep_unchecked).phases

/-- **A check of references only warns.** Whatever is read from a graph, with whatever vocabulary
and globals, the value is the same with and without the check. The diagnostics with it are those
without it and warnings between them, every one of which is about a reference. -/
theorem check_onlyWarns (view : View) (vocabulary : Vocabulary)
    (globals : List (Category × String)) :
    let checked := ofView view vocabulary ⟨true, globals⟩
    let unchecked := ofView view vocabulary ⟨false, globals⟩
    (∀ first, (checked.readChain first).OnlyWarns (unchecked.readChain first)) ∧
      (∀ node, (checked.readStatement node).OnlyWarns (unchecked.readStatement node)) ∧
      (∀ node category, (checked.readExpression node category).OnlyWarns
        (unchecked.readExpression node category)) ∧
      (∀ node, (checked.readNumber node).OnlyWarns (unchecked.readNumber node) ∧
        (checked.readBoolean node).OnlyWarns (unchecked.readBoolean node) ∧
        (checked.readPlayer node).OnlyWarns (unchecked.readPlayer node) ∧
        (checked.readPlayerCollection node).OnlyWarns (unchecked.readPlayerCollection node) ∧
        (checked.readZone node).OnlyWarns (unchecked.readZone node) ∧
        (checked.readZoneCollection node).OnlyWarns (unchecked.readZoneCollection node) ∧
        (checked.readCard node).OnlyWarns (unchecked.readCard node) ∧
        (checked.readCardCollection node).OnlyWarns (unchecked.readCardCollection node) ∧
        (checked.readRank node).OnlyWarns (unchecked.readRank node) ∧
        (checked.readSuit node).OnlyWarns (unchecked.readSuit node)) ∧
      checked.readPhases.OnlyWarns unchecked.readPhases := by
  intro checked unchecked
  have hStep : checked.InStep unchecked (· = ·) (Reading.Alike WarningsAdded) :=
    checked.inStep_unchecked
  have hStatement := hStep.statement_depthLimit rfl
  have hTyped {α : Type} (node : NodeId) (category : Category) (pick : Expression → Option α) :=
    (hStep.readTyped (rfl : node = node) category pick).onlyWarns
  refine ⟨fun first => (checked.alike_readChain first).onlyWarns,
    fun node => (hStatement _ _ (.start rfl)).onlyWarns,
    fun node category => (hStep.readExpression rfl category).onlyWarns, fun node => ?_,
    checked.alike_readPhases.onlyWarns⟩
  exact ⟨hTyped node _ _, hTyped node _ _, hTyped node _ _, hTyped node _ _, hTyped node _ _,
    hTyped node _ _, hTyped node _ _, hTyped node _ _, hTyped node _ _, hTyped node _ _⟩

end Reader

end RuleBlocks
