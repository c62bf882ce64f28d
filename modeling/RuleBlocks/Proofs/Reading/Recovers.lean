import RuleBlocks.Proofs.Program.Scope
import RuleBlocks.Proofs.Reading.Combinators

/-!
# Readings that recover a program

A reading recovers a value if it gives just that value, and reports nothing but the references that
lead nowhere, unless one of the required names in the value is empty; then an error is reported. A
reading that is put together from such readings is again one.
-/

namespace RuleBlocks

namespace Reading

variable {α : Type}

/-- What was reported, without the places. -/
def faults (reading : Reading α) : List (Severity × ReadError) :=
  reading.diagnostics.map fun diagnostic => (diagnostic.severity, diagnostic.error)

end Reading

namespace Scope

/-- The names to which a block can refer are those of an environment. -/
def Sees (scope : Scope) (node : NodeId) (visible : List (Category × String)) : Prop :=
  ∀ category, ∃ bindings, scope.names node category = .ok bindings ∧
    ∀ name, name ∈ bindings.map Binding.name ↔ (category, name) ∈ visible

end Scope

namespace Reader

open Reading

variable {reader : Reader} {node : NodeId} {spot : Spot} {field : String}
variable {visible : List (Category × String)} {α β : Type}

/-- If references are checked, then a block can refer to the names of an environment. -/
def Sees (reader : Reader) (node : NodeId) (visible : List (Category × String)) : Prop :=
  ∀ scope, reader.scope? = some scope → scope.Sees node visible

theorem sees_of_unchecked (hScope : reader.scope? = none) (node : NodeId)
    (visible : List (Category × String)) : reader.Sees node visible := by
  intro scope hSome
  rw [hScope] at hSome
  cases hSome

/-- The warnings about references that lead nowhere, if references are checked. -/
def warnings (reader : Reader) (unresolved : List (Category × String)) :
    List (Severity × ReadError) :=
  match reader.scope? with
  | none => []
  | some _ => unresolved.map fun (category, name) => (.warning, .unresolvedVariable name category)

@[simp] theorem warnings_nil : reader.warnings [] = [] := by
  unfold warnings
  split <;> rfl

@[simp] theorem warnings_append (first second : List (Category × String)) :
    reader.warnings (first ++ second) = reader.warnings first ++ reader.warnings second := by
  unfold warnings
  split
  · rfl
  · exact List.map_append

/-- A reading recovers a value with some required names, up to references that lead nowhere. -/
structure Recovers (reader : Reader) (reading : Reading α) (value : α) (names : List String)
    (unresolved : List (Category × String)) : Prop where
  clean : "" ∉ names → reading.value = value ∧ reading.faults = reader.warnings unresolved
  faulty : "" ∈ names → reading.hasErrors = true

variable {names moreNames : List String} {unresolved moreUnresolved : List (Category × String)}

/-- Without checks and without empty names there is nothing to report. -/
theorem Recovers.eq_clean {reading : Reading α} {value : α}
    (hReading : reader.Recovers reading value names unresolved) (hScope : reader.scope? = none)
    (hNames : "" ∉ names) (hFinished : reading.finished = true) : reading = ⟨value, [], true⟩ := by
  obtain ⟨hValue, hFaults⟩ := hReading.clean hNames
  have hNone : reader.warnings unresolved = [] := by rw [warnings, hScope]
  obtain ⟨_, diagnostics, _⟩ := reading
  have hDiagnostics : diagnostics = [] := List.map_eq_nil_iff.mp (hFaults.trans hNone)
  subst hValue hDiagnostics
  exact congrArg _ hFinished

theorem recovers_pure (value : α) : reader.Recovers (pure value) value [] [] where
  clean _ := ⟨rfl, warnings_nil.symm⟩
  faulty := nofun

theorem Recovers.bind {reading : Reading α} {next : α → Reading β} {value : α} {result : β}
    (hReading : reader.Recovers reading value names unresolved)
    (hNext : reader.Recovers (next value) result moreNames moreUnresolved) :
    reader.Recovers (reading >>= next) result (names ++ moreNames)
      (unresolved ++ moreUnresolved) where
  clean hNames := by
    rw [List.mem_append, not_or] at hNames
    obtain ⟨hValue, hFaults⟩ := hReading.clean hNames.1
    obtain ⟨hResult, hMore⟩ := hNext.clean hNames.2
    refine ⟨?_, ?_⟩
    · rw [value_bind, hValue, hResult]
    · rw [warnings_append, ← hFaults, ← hMore, ← hValue]
      exact List.map_append
  faulty hNames := by
    have hSplit : (reading >>= next).hasErrors =
        (reading.hasErrors || (next reading.value).hasErrors) := List.any_append
    rw [hSplit, Bool.or_eq_true]
    -- the second reading goes on from the right value just if the first one was not faulty
    by_cases hFirst : "" ∈ names
    · exact Or.inl (hReading.faulty hFirst)
    · rw [(hReading.clean hFirst).1]
      exact Or.inr (hNext.faulty ((List.mem_append.mp hNames).resolve_left hFirst))

theorem Recovers.map {reading : Reading α} {value : α} (f : α → β)
    (hReading : reader.Recovers reading value names unresolved) :
    reader.Recovers (reading >>= fun value => pure (f value)) (f value) names unresolved := by
  have hBind : reader.Recovers (reading >>= fun value => pure (f value)) (f value) (names ++ [])
      (unresolved ++ []) := hReading.bind (recovers_pure (f value))
  rwa [List.append_nil, List.append_nil] at hBind

theorem Recovers.congr {first second : Reading α} {value : α}
    (hFirst : reader.Recovers first value names unresolved) (hValue : second.value = first.value)
    (hDiagnostics : second.diagnostics = first.diagnostics) :
    reader.Recovers second value names unresolved := by
  obtain ⟨hClean, hFaulty⟩ := hFirst
  unfold faults at hClean
  unfold hasErrors at hFaulty
  rw [← hValue, ← hDiagnostics] at hClean
  rw [← hDiagnostics] at hFaulty
  exact ⟨hClean, hFaulty⟩

theorem Recovers.mapSome {reading : Reading (Option α)} {value : α} {f : α → β}
    (hReading : reader.Recovers reading (some value) names unresolved) :
    reader.Recovers (reading.mapSome f) (some (f value)) names unresolved :=
  hReading.map (Option.map f)

theorem Recovers.always {reading : Reading α} {value : α}
    (hReading : reader.Recovers reading value names unresolved) :
    reader.Recovers reading.always (some value) names unresolved := hReading.map some

theorem recovers_parts (f : α) : reader.Recovers (parts f) (some f) [] [] := recovers_pure (some f)

theorem Recovers.andThen {reading : Reading (Option α)} {next : α → Reading (Option β)} {value : α}
    {result : Option β} (hReading : reader.Recovers reading (some value) names unresolved)
    (hNext : reader.Recovers (next value) result moreNames moreUnresolved) :
    reader.Recovers (reading.andThen next) result (names ++ moreNames)
      (unresolved ++ moreUnresolved) := hReading.bind hNext

theorem Recovers.and {f : Reading (Option (α → β))} {reading : Reading (Option α)}
    {function : α → β} {value : α} (hFunction : reader.Recovers f (some function) names unresolved)
    (hReading : reader.Recovers reading (some value) moreNames moreUnresolved) :
    reader.Recovers (f.and reading) (some (function value)) (names ++ moreNames)
      (unresolved ++ moreUnresolved) := hFunction.bind (hReading.map _)

theorem recovers_collect_nil (read : NodeId → Reading (Option α)) :
    reader.Recovers (collect read []) [] [] [] := recovers_pure []

theorem Recovers.collect_cons {read : NodeId → Reading (Option α)} {nodes : List NodeId} {value : α}
    {values : List α} (hFirst : reader.Recovers (read node) (some value) names unresolved)
    (hRest : reader.Recovers (collect read nodes) values moreNames moreUnresolved) :
    reader.Recovers (collect read (node :: nodes)) (value :: values) (names ++ moreNames)
      (unresolved ++ moreUnresolved) := hFirst.bind (hRest.map _)

theorem Recovers.collect_append {read : NodeId → Reading (Option α)} {first second : List NodeId}
    {values moreValues : List α}
    (hFirst : reader.Recovers (collect read first) values names unresolved)
    (hSecond : reader.Recovers (collect read second) moreValues moreNames moreUnresolved) :
    reader.Recovers (collect read (first ++ second)) (values ++ moreValues) (names ++ moreNames)
      (unresolved ++ moreUnresolved) := by
  have hBind : reader.Recovers
      (collect read first >>= fun values => collect read second >>= fun more =>
        pure (values ++ more)) (values ++ moreValues) (names ++ moreNames)
      (unresolved ++ moreUnresolved) := hFirst.bind (hSecond.map _)
  refine hBind.congr ?_ ?_
  · simp only [value_bind, value_pure, value_collect, List.filterMap_append]
  · simp only [diagnostics_bind, diagnostics_pure, diagnostics_collect, List.flatMap_append,
      List.append_nil]

/-! ## Fields -/

theorem recovers_requiredField {text : String}
    (hField : reader.view.field? spot.node field = some text) :
    reader.Recovers (reader.requiredField spot field) (some text) [text] [] := by
  unfold requiredField View.filledField?
  rw [hField]
  by_cases hEmpty : text = ""
  · subst hEmpty
    exact ⟨fun hNames => absurd List.mem_cons_self hNames, fun _ => rfl⟩
  · rw [Option.filter_some_pos (by simpa using hEmpty)]
    exact ⟨fun _ => ⟨rfl, warnings_nil.symm⟩, fun hNames => by simp [Ne.symm hEmpty] at hNames⟩

theorem requiredField_of_ne_empty {text : String}
    (hField : reader.view.field? spot.node field = some text) (hText : text ≠ "") :
    reader.requiredField spot field = pure (some text) := by
  unfold requiredField View.filledField?
  rw [hField, Option.filter_some_pos (by simpa using hText)]

theorem recovers_parsedField {text : String} {parse : String → Option α} {value : α}
    (hField : reader.view.field? spot.node field = some text) (hText : text ≠ "")
    (hParse : parse (Text.trim text) = some value) :
    reader.Recovers (reader.parsedField spot field parse) (some value) [] [] := by
  unfold parsedField
  rw [requiredField_of_ne_empty hField hText]
  refine (recovers_pure (some text)).andThen ?_
  rw [hParse]
  exact recovers_pure (some value)

theorem recovers_checkReference {category : Category} {name : String}
    (hSees : reader.Sees spot.node visible) :
    reader.Recovers (reader.checkReference spot category name) () []
      (missing visible [(category, name)]) := by
  refine ⟨fun _ => ⟨rfl, ?_⟩, nofun⟩
  unfold checkReference warnings
  cases hScope : reader.scope? with
  | none => rfl
  | some scope =>
    obtain ⟨bindings, hBindings, hNames⟩ := hSees scope hScope category
    have hResolve : scope.resolve spot.node category name =
        .ok (bindings.find? fun binding => binding.name = name) := by
      rw [Scope.resolve, hBindings]
      rfl
    dsimp only
    rw [hResolve]
    by_cases hVisible : (category, name) ∈ visible
    · obtain ⟨binding, hBinding, hName⟩ := List.mem_map.mp ((hNames name).mpr hVisible)
      cases hFound : bindings.find? fun binding => binding.name = name with
      | none => exact absurd hName (by simpa using List.find?_eq_none.mp hFound binding hBinding)
      | some found => simp [missing, hVisible]; rfl
    · have hNone : (bindings.find? fun binding => binding.name = name) = none := by
        refine List.find?_eq_none.mpr fun binding hBinding hName => hVisible ?_
        exact (hNames name).mp (List.mem_map.mpr ⟨binding, hBinding, by simpa using hName⟩)
      rw [hNone]
      simp [missing, hVisible]
      rfl

theorem recovers_reference {category : Category} {name : String}
    (hField : reader.view.field? spot.node field = some name)
    (hSees : reader.Sees spot.node visible) :
    reader.Recovers (reader.reference spot field category) (some name) [name]
      (missing visible [(category, name)]) := by
  have hCheck : reader.Recovers
      (reader.checkReference spot category name >>= fun _ => pure (some name)) (some name) []
      (missing visible [(category, name)]) := (recovers_checkReference hSees).map _
  exact (recovers_requiredField hField).andThen hCheck

end Reader

end RuleBlocks
