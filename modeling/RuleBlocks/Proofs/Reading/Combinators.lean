import RuleBlocks.Reading.Statement

/-!
# What combined readings come to

The value of a reading that is put together from others, and whether it comes to an end. A whole is
left out just if one of its parts is (`value_and`), and it comes to an end if all its parts do.
`Yields` says that whatever a reading gives has a property, if it gives anything.
-/

namespace RuleBlocks.Reading

variable {α β : Type}

/-! ## Values -/

@[simp] theorem value_pure (value : α) : (pure value : Reading α).value = value := rfl

@[simp] theorem value_bind (reading : Reading α) (next : α → Reading β) :
    (reading >>= next).value = (next reading.value).value := rfl

@[simp] theorem value_andThen (reading : Reading (Option α)) (next : α → Reading (Option β)) :
    (reading.andThen next).value = reading.value.bind fun value => (next value).value := by
  unfold andThen
  rw [value_bind]
  cases reading.value with
  | none => rfl
  | some value => rfl

@[simp] theorem value_and (f : Reading (Option (α → β))) (reading : Reading (Option α)) :
    (f.and reading).value = f.value.bind fun f => reading.value.map f := rfl

@[simp] theorem value_mapSome (f : α → β) (reading : Reading (Option α)) :
    (reading.mapSome f).value = reading.value.map f := rfl

@[simp] theorem value_always (reading : Reading α) :
    reading.always.value = some reading.value := rfl

@[simp] theorem value_parts (f : α) : (parts f).value = some f := rfl

theorem value_and_eq_some_iff {f : Reading (Option (α → β))} {reading : Reading (Option α)}
    {value : β} : (f.and reading).value = some value ↔
      ∃ function part, f.value = some function ∧ reading.value = some part ∧
        function part = value := by
  simp only [value_and, Option.bind_eq_some_iff, Option.map_eq_some_iff]
  constructor
  · rintro ⟨function, hFunction, part, hPart, rfl⟩
    exact ⟨function, part, hFunction, hPart, rfl⟩
  · rintro ⟨function, part, hFunction, hPart, rfl⟩
    exact ⟨function, hFunction, part, hPart, rfl⟩

@[simp] theorem value_collect (read : NodeId → Reading (Option α)) (nodes : List NodeId) :
    (collect read nodes).value = nodes.filterMap fun node => (read node).value := by
  induction nodes with
  | nil => rfl
  | cons node nodes ih =>
    rw [collect, value_bind, value_bind, value_pure, ih, List.filterMap_cons]
    cases (read node).value with
    | none => rfl
    | some value => rfl

/-- A part that was read for sure is just gone on from. -/
theorem pure_andThen (value : α) (next : α → Reading (Option β)) :
    (pure (some value) : Reading (Option α)).andThen next = next value := rfl

/-- Reading the parts of a collection further is reading them further one by one. -/
theorem collect_mapSome (f : α → β) (read : NodeId → Reading (Option α)) (nodes : List NodeId) :
    collect (fun node => (read node).mapSome f) nodes = do
      return (← collect read nodes).map f := by
  induction nodes with
  | nil => rfl
  | cons node nodes ih =>
    simp only [collect, ih]
    cases hValue : (read node).value <;> simp [bind, mapSome, pure, hValue]

theorem value_collect_mapSome (f : α → β) (read : NodeId → Reading (Option α))
    (nodes : List NodeId) :
    (collect (fun node => (read node).mapSome f) nodes).value =
      (collect read nodes).value.map f := by
  rw [collect_mapSome, value_bind, value_pure]

/-! ## Diagnostics -/

@[simp] theorem diagnostics_pure (value : α) : (pure value : Reading α).diagnostics = [] := rfl

@[simp] theorem diagnostics_bind (reading : Reading α) (next : α → Reading β) :
    (reading >>= next).diagnostics = reading.diagnostics ++ (next reading.value).diagnostics := rfl

@[simp] theorem diagnostics_mapSome (f : α → β) (reading : Reading (Option α)) :
    (reading.mapSome f).diagnostics = reading.diagnostics := by
  simp [mapSome]

@[simp] theorem diagnostics_always (reading : Reading α) :
    reading.always.diagnostics = reading.diagnostics := by
  simp [always]

@[simp] theorem diagnostics_parts (f : α) : (parts f).diagnostics = [] := rfl

@[simp] theorem diagnostics_and (f : Reading (Option (α → β))) (reading : Reading (Option α)) :
    (f.and reading).diagnostics = f.diagnostics ++ reading.diagnostics := by
  simp [and]

theorem diagnostics_collect (read : NodeId → Reading (Option α)) (nodes : List NodeId) :
    (collect read nodes).diagnostics = nodes.flatMap fun node => (read node).diagnostics := by
  induction nodes with
  | nil => rfl
  | cons node nodes ih =>
    rw [collect, diagnostics_bind, diagnostics_bind, diagnostics_pure, ih, List.append_nil,
      List.flatMap_cons]

/-! ## Ends -/

@[simp] theorem finished_pure (value : α) : (pure value : Reading α).finished = true := rfl

@[simp] theorem finished_bind (reading : Reading α) (next : α → Reading β) :
    (reading >>= next).finished = (reading.finished && (next reading.value).finished) := rfl

theorem finished_andThen {reading : Reading (Option α)} {next : α → Reading (Option β)}
    (hReading : reading.finished = true) (hNext : ∀ value, (next value).finished = true) :
    (reading.andThen next).finished = true := by
  unfold andThen
  rw [finished_bind, hReading, Bool.true_and]
  cases reading.value with
  | none => rfl
  | some value => exact hNext value

@[simp] theorem finished_mapSome (f : α → β) (reading : Reading (Option α)) :
    (reading.mapSome f).finished = reading.finished := by
  simp [mapSome]

@[simp] theorem finished_always (reading : Reading α) :
    reading.always.finished = reading.finished := by
  simp [always]

@[simp] theorem finished_parts (f : α) : (parts f).finished = true := rfl

@[simp] theorem finished_and (f : Reading (Option (α → β))) (reading : Reading (Option α)) :
    (f.and reading).finished = (f.finished && reading.finished) := by
  simp [and]

theorem finished_collect_iff {read : NodeId → Reading (Option α)} {nodes : List NodeId} :
    (collect read nodes).finished = true ↔ ∀ node ∈ nodes, (read node).finished = true := by
  induction nodes with
  | nil => simp [collect]
  | cons node nodes ih => simp [collect, ih]

/-! ## Readings in which all is well -/

/-- If all is well in a reading that went on from a part, then all was well in both. -/
theorem exists_of_andThen_eq_pure {reading : Reading (Option α)} {next : α → Reading (Option β)}
    {result : β} (h : reading.andThen next = pure (some result)) :
    ∃ value, reading = pure (some value) ∧ next value = pure (some result) := by
  obtain ⟨value?, diagnostics, finished⟩ := reading
  cases value? with
  | none => cases congrArg Reading.value h
  | some value =>
    have hDiagnostics : diagnostics ++ (next value).diagnostics = [] :=
      congrArg Reading.diagnostics h
    have hFinished : (finished && (next value).finished) = true := congrArg Reading.finished h
    obtain ⟨rfl, -⟩ := List.append_eq_nil_iff.mp hDiagnostics
    obtain ⟨rfl, -⟩ := Bool.and_eq_true_iff.mp hFinished
    exact ⟨value, rfl, h⟩

/-! ## Properties of what is read -/

/-- What was read has a property, unless it was left out. -/
def Yields (reading : Reading (Option α)) (P : α → Prop) : Prop :=
  ∀ value, reading.value = some value → P value

theorem Yields.pure {P : α → Prop} {value : α} (h : P value) :
    Yields (Pure.pure (some value)) P := by
  intro value' hValue
  cases hValue
  exact h

theorem Yields.mapSome {P : β → Prop} {f : α → β} {reading : Reading (Option α)}
    (h : reading.Yields fun value => P (f value)) : (reading.mapSome f).Yields P := by
  intro value hValue
  obtain ⟨inner, hInner, rfl⟩ := Option.map_eq_some_iff.mp hValue
  exact h inner hInner

theorem Yields.andThen {P : β → Prop} {reading : Reading (Option α)}
    {next : α → Reading (Option β)} (h : ∀ value, (next value).Yields P) :
    (reading.andThen next).Yields P := by
  intro value hValue
  rw [value_andThen] at hValue
  obtain ⟨inner, -, hInner⟩ := Option.bind_eq_some_iff.mp hValue
  exact h inner value hInner

theorem Yields.always {P : α → Prop} {reading : Reading α} (h : P reading.value) :
    reading.always.Yields P := by
  intro value hValue
  cases hValue
  exact h

theorem Yields.parts {P : α → Prop} {f : α} (h : P f) : (parts f).Yields P := Yields.pure h

theorem Yields.and {P : β → Prop} {Q : α → Prop} {f : Reading (Option (α → β))}
    {reading : Reading (Option α)} (hFunction : f.Yields fun f => ∀ value, Q value → P (f value))
    (hReading : reading.Yields Q) : (f.and reading).Yields P := by
  intro value hValue
  rw [value_and] at hValue
  obtain ⟨g, hG, hApply⟩ := Option.bind_eq_some_iff.mp hValue
  obtain ⟨inner, hInner, rfl⟩ := Option.map_eq_some_iff.mp hApply
  exact hFunction g hG inner (hReading inner hInner)

theorem forall_mem_collect {P : α → Prop} {read : NodeId → Reading (Option α)}
    (hRead : ∀ node, (read node).Yields P) (nodes : List NodeId) :
    ∀ value ∈ (collect read nodes).value, P value := by
  rw [value_collect]
  intro value hMem
  obtain ⟨node, -, hValue⟩ := List.mem_filterMap.mp hMem
  exact hRead node value hValue

end RuleBlocks.Reading

namespace RuleBlocks.Reader

open Reading

variable {α : Type} {reader : Reader} {spot : Spot} {field input : String}

/-! ## Fields and references -/

@[simp] theorem finished_report (severity : Severity) (error : ReadError) :
    (reader.report spot severity error).finished = true := rfl

@[simp] theorem finished_fail (error : ReadError) :
    (reader.fail spot error : Reading (Option α)).finished = true := rfl

theorem kind_eq_pure {kind : BlockKind}
    (h : reader.view.kind? reader.vocabulary spot.node = some kind) :
    reader.kind spot = pure (some kind) := by
  rw [Reader.kind, h]

theorem kind_eq_fail (h : reader.view.kind? reader.vocabulary spot.node = none) :
    reader.kind spot = reader.fail spot (.unknownBlockType (reader.view.shownTag spot.node)) := by
  rw [Reader.kind, h]

/-- A part that was left out is not gone on from. -/
theorem fail_andThen {β : Type} (error : ReadError) (next : α → Reading (Option β)) :
    (reader.fail spot error : Reading (Option α)).andThen next = reader.fail spot error := rfl

@[simp] theorem value_requiredField :
    (reader.requiredField spot field).value = reader.view.filledField? spot.node field := by
  unfold requiredField
  cases reader.view.filledField? spot.node field <;> rfl

@[simp] theorem finished_requiredField : (reader.requiredField spot field).finished = true := by
  unfold requiredField
  cases reader.view.filledField? spot.node field <;> rfl

@[simp] theorem value_parsedField (parse : String → Option α) :
    (reader.parsedField spot field parse).value =
      (reader.view.filledField? spot.node field).bind fun text => parse (Text.trim text) := by
  unfold parsedField
  rw [value_andThen, value_requiredField]
  congr 1
  funext text
  cases parse (Text.trim text) <;> rfl

@[simp] theorem finished_checkReference (category : Category) (name : String) :
    (reader.checkReference spot category name).finished = true := by
  unfold checkReference
  split
  · rfl
  · split <;> rfl

@[simp] theorem value_reference (category : Category) :
    (reader.reference spot field category).value = reader.view.filledField? spot.node field := by
  unfold reference
  rw [value_andThen, value_requiredField]
  cases reader.view.filledField? spot.node field <;> rfl

/-- A field that must not be empty never gives the empty name. -/
theorem filledField?_ne_empty {view : View} {node : NodeId} {name : String}
    (h : view.filledField? node field = some name) : name ≠ "" := by
  unfold View.filledField? at h
  simpa using (Option.filter_eq_some_iff.mp h).2

/-! ## Properties of what is read -/

theorem yields_fail {P : α → Prop} (error : ReadError) : (reader.fail spot error).Yields P := nofun

theorem yields_typeMismatch {P : α → Prop} (expected found : Category) :
    (reader.typeMismatch spot expected found).Yields P := nofun

theorem yields_requiredField : (reader.requiredField spot field).Yields (· ≠ "") := by
  intro name hName
  rw [value_requiredField] at hName
  exact filledField?_ne_empty hName

theorem yields_reference (category : Category) :
    (reader.reference spot field category).Yields (· ≠ "") := by
  intro name hName
  rw [value_reference] at hName
  exact filledField?_ne_empty hName

theorem yields_socket {P : α → Prop} {expected : Category}
    {read : Spot → BlockKind → Category → Reading (Option α)}
    (hRead : ∀ spot kind found, (read spot kind found).Yields P) :
    (reader.socket spot input expected read).Yields P := by
  unfold socket
  split
  · exact yields_fail _
  · exact Yields.andThen fun _ => hRead _ _ _

/-! ## Members of chains -/

/-- The reading of one member of a chain whose members have a role. -/
def member (reader : Reader) (path : List PathSegment) (role : BlockRole)
    (read : Spot → BlockKind → Reading (Option α)) (node : NodeId) : Reading (Option α) :=
  (reader.kind ⟨node, path⟩).andThen fun kind =>
    if kind.role = role then read ⟨node, path⟩ kind
    else reader.fail ⟨node, path⟩ (.misplacedBlock kind role)

theorem members_eq (first : Option NodeId) (role : BlockRole)
    (read : Spot → BlockKind → Reading (Option α)) :
    reader.members path first role read =
      collect (reader.member path role read) (reader.chain first) := rfl

theorem value_chainStatement (read : Spot → Reading (Option Statement)) (path : List PathSegment)
    (first : Option NodeId) :
    (reader.chainStatement read path first).value =
      .ofChain ((reader.chain first).filterMap fun node => (read ⟨node, path⟩).value) := by
  rw [chainStatement, value_bind, value_pure, value_collect]

theorem diagnostics_chainStatement (read : Spot → Reading (Option Statement))
    (path : List PathSegment) (first : Option NodeId) :
    (reader.chainStatement read path first).diagnostics =
      (reader.chain first).flatMap fun node => (read ⟨node, path⟩).diagnostics := by
  rw [chainStatement, diagnostics_bind, diagnostics_pure, List.append_nil, diagnostics_collect]

end RuleBlocks.Reader
