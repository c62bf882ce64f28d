import RuleBlocks.Proofs.Reading.Sockets
import RuleBlocks.Proofs.Reading.Ways

/-!
# Diagnostics tell the truth

What a diagnostic says of its block is so in the graph (`ReadError.HoldsAt`). A reader that stands
on a forest reports only such faults, and it reports about each part of a block at most once: what
is asked of the block as such, each of its fields and inputs, and the name that it refers to are the
slots of the block (`Slot`), and readings of different slots are put together (`Reports.and`).

This is shown here for values: what is reported for a value is true, stands below the value, and is
reported once (`Reader.reports_value`). The fallbacks by which the readers of a category report a
mismatch are never taken, because the block fits (`BlockKind.Fits`).
-/

namespace RuleBlocks

/-! ## Faults that are there -/

/-- A text that the field of the name does not accept. Most fields do not mind blanks around their
texts. -/
inductive Field.Rejects : String → String → Prop
  | number {text : String} : Text.Decimal.readWord? (Text.trim text) = none →
      Rejects Field.number text
  | boolean {text : String} : Reader.boolean? (Text.trim text) = none → Rejects Field.boolean text
  | comparison {text : String} : Comparison.ofCode? (Text.trim text) = none →
      Rejects Field.comparison text
  | selector {text : String} : Reader.selection? (Text.trim text) = none →
      Rejects Field.selector text
  | rank {text : String} : Rank.ofName? (Text.trim text) = none → Rejects Field.rank text
  | suit {text : String} : Suit.ofName? (Text.trim text) = none → Rejects Field.suit text
  | choiceType {text : String} : SelectionCategories.ofTag? (Text.trim text) = none →
      Rejects Field.choiceType text
  | category {text : String} : (Category.ofTag? text).filter Category.hasVariables = none →
      Rejects Field.category text
  | cards {text : String} : text ≠ Setting.allAllowed → Rejects Field.cards text

/-- A place for the expected category takes the block of a kind whose value has the found category,
and there are variables of that category if the block stands for one. -/
def BlockKind.Fits (kind : BlockKind) (expected found : Category) : Prop :=
  kind.Suits expected found ∧ (kind.role = .typedValue → found.hasVariables = true)

instance (kind : BlockKind) (expected found : Category) : Decidable (kind.Fits expected found) :=
  inferInstanceAs (Decidable (_ ∧ _))

theorem BlockKind.Fits.elim {kind : BlockKind} {expected found : Category} {P : Prop}
    (hFits : kind.Fits expected found)
    (hNone : ∀ category ∈ Category.all, ¬ kind.Fits expected category) : P :=
  absurd hFits (hNone found found.mem_all)

/-- A block of a kind with a fixed category gives a value of just that category. -/
theorem BlockKind.Fits.eq_of_role {kind : BlockKind} {expected found category : Category}
    (hFits : kind.Fits expected found) (hRole : kind.role = .value category) :
    found = category := by
  rcases hFits.1.1 with hFound | hTyped
  · rw [hRole] at hFound
    cases hFound
    rfl
  · rw [hRole] at hTyped
    cases hTyped

/-- The blocks of the role give a value. -/
def BlockRole.GivesValue : BlockRole → Prop
  | .value _ | .typedValue => True
  | .hat | .statement | .offerCase | .offerChoice => False

/-- The role that blocks have to have in the chain in which a spot stands. -/
def Spot.chainRole (spot : Spot) : BlockRole :=
  if spot.currentInput = Input.cases then .offerCase
  else if spot.currentInput = Input.offers then .offerChoice
  else .statement

/-- The fault is there, at the block of a spot, in a graph in which names are resolved. -/
def ReadError.HoldsAt (scope : Scope) (spot : Spot) : ReadError → Prop
  | typeMismatch input expected found =>
    input = spot.currentInput ∧
      scope.view.outputCategory? scope.vocabulary spot.node = some found ∧
      expected.accepts found = false
  | notAValue input kind =>
    input = spot.currentInput ∧ scope.view.kind? scope.vocabulary spot.node = some kind ∧
      ¬ kind.role.GivesValue
  | notAStatement kind =>
    scope.view.kind? scope.vocabulary spot.node = some kind ∧ kind.role.GivesValue
  | misplacedBlock kind expected =>
    scope.view.kind? scope.vocabulary spot.node = some kind ∧ kind.role ≠ expected ∧
      expected = spot.chainRole
  | missingInput input => scope.view.input? spot.node input = none
  | missingField field =>
    scope.view.field? spot.node field = none ∨ scope.view.field? spot.node field = some ""
  | invalidField field text =>
    scope.view.field? spot.node field = some text ∧ text ≠ "" ∧ Field.Rejects field text
  | unknownBlockType tag =>
    scope.view.tag? spot.node = some tag ∧ scope.vocabulary.kind? tag = none
  | unresolvedVariable name category => scope.resolve spot.node category name = .ok none
  | duplicatePhase _ | ReadError.scope _ => False

/-- What the diagnostic says of its block is so. -/
def Diagnostic.Holds (scope : Scope) (diagnostic : Diagnostic) : Prop :=
  diagnostic.error.HoldsAt scope ⟨diagnostic.node, diagnostic.path⟩

/-! ## Slots -/

/-- What a fault of a block is about: the block as such, one of its fields or inputs, or the name
that it refers to. -/
inductive Slot where
  | block
  | field (name : String)
  | input (name : String)
  | reference
deriving DecidableEq, Repr

def ReadError.slot : ReadError → Slot
  | missingField field | invalidField field _ => .field field
  | missingInput input => .input input
  | unresolvedVariable .. | scope _ => .reference
  | typeMismatch .. | notAValue .. | notAStatement _ | misplacedBlock .. | unknownBlockType _
  | duplicatePhase _ => .block

/-- What is asked of a value before its parts are read. -/
def Slot.head : List Slot := [.block, .field Field.category]

namespace Diagnostic

variable {diagnostic other : Diagnostic} {spot : Spot} {slot otherSlot : Slot} {slots : List Slot}

/-- Two diagnostics are about the same slot of the same block, and came to it in the same way. -/
structure SameSlot (diagnostic other : Diagnostic) : Prop where
  node : diagnostic.node = other.node
  path : diagnostic.path = other.path
  slot : diagnostic.error.slot = other.error.slot

/-- The diagnostic is about a slot of the block at a spot, or about what stands in it. -/
def About (diagnostic : Diagnostic) (spot : Spot) (slot : Slot) : Prop :=
  (diagnostic.StandsAt spot ∧ diagnostic.error.slot = slot) ∨
    ∃ input, slot = .input input ∧ diagnostic.Inside spot input

/-- No diagnostic is about two slots of a block. -/
theorem About.unique (h : diagnostic.About spot slot) (hOther : diagnostic.About spot otherSlot) :
    slot = otherSlot := by
  rcases h with ⟨hAt, rfl⟩ | ⟨input, rfl, hInside⟩
  · rcases hOther with ⟨-, rfl⟩ | ⟨input, rfl, hInside⟩
    · rfl
    · exact absurd hAt hInside.not_standsAt
  · rcases hOther with ⟨hAt, -⟩ | ⟨other, rfl, hOther⟩
    · exact absurd hAt hInside.not_standsAt
    · rw [hInside.unique hOther]

theorem About.below (h : diagnostic.About spot slot) : diagnostic.Below spot := by
  rcases h with ⟨hAt, -⟩ | ⟨input, -, hInside⟩
  · exact Or.inl hAt
  · exact Or.inr ⟨input, hInside⟩

theorem SameSlot.below (h : diagnostic.SameSlot other) (hOther : other.Below spot) :
    diagnostic.Below spot := by
  unfold Below StandsAt Inside at *
  rwa [h.node, h.path]

theorem SameSlot.about (h : diagnostic.SameSlot other) (hOther : other.About spot slot) :
    diagnostic.About spot slot := by
  unfold About StandsAt Inside at *
  rwa [h.node, h.path, h.slot]

/-- The diagnostic is about one of some slots of the block at a spot. -/
def AboutAny (slots : List Slot) (spot : Spot) (diagnostic : Diagnostic) : Prop :=
  ∃ slot ∈ slots, diagnostic.About spot slot

theorem AboutAny.below (h : diagnostic.AboutAny slots spot) : diagnostic.Below spot := by
  obtain ⟨slot, -, hAbout⟩ := h
  exact hAbout.below

end Diagnostic

/-! ## Readings that report the truth once -/

namespace Reading

variable {α β : Type} {scope : Scope} {spot : Spot} {slots more : List Slot}
variable {S T : Diagnostic → Prop}

/-- All that a reading reports is true and of a sort, and about every slot it reports at most
once. -/
structure Reports (scope : Scope) (S : Diagnostic → Prop) (reading : Reading α) : Prop where
  holds : ∀ diagnostic ∈ reading.diagnostics, diagnostic.Holds scope
  sort : ∀ diagnostic ∈ reading.diagnostics, S diagnostic
  once : reading.diagnostics.Pairwise fun diagnostic other => ¬ diagnostic.SameSlot other

theorem reports_pure (value : α) : (pure value : Reading α).Reports scope S where
  holds _ hMem := absurd hMem List.not_mem_nil
  sort _ hMem := absurd hMem List.not_mem_nil
  once := List.Pairwise.nil

theorem Reports.congr {reading : Reading α} {other : Reading β} (h : reading.Reports scope S)
    (hSame : other.diagnostics = reading.diagnostics) : other.Reports scope S := by
  obtain ⟨hHolds, hSort, hOnce⟩ := h
  rw [← hSame] at hHolds hSort hOnce
  exact ⟨hHolds, hSort, hOnce⟩

theorem reports_endless (value : α) : (endless value).Reports scope S :=
  (reports_pure value).congr rfl

theorem Reports.mono {reading : Reading α} (h : reading.Reports scope S)
    (hSort : ∀ diagnostic, S diagnostic → T diagnostic) : reading.Reports scope T :=
  ⟨h.holds, fun diagnostic hMem => hSort diagnostic (h.sort diagnostic hMem), h.once⟩

theorem Reports.below {reading : Reading α}
    (h : reading.Reports scope (Diagnostic.AboutAny slots spot)) :
    reading.Reports scope (Diagnostic.Below · spot) := h.mono fun _ => Diagnostic.AboutAny.below

theorem Reports.subset {reading : Reading α}
    (h : reading.Reports scope (Diagnostic.AboutAny slots spot)) (hSlots : slots ⊆ more) :
    reading.Reports scope (Diagnostic.AboutAny more spot) :=
  h.mono fun _ ⟨slot, hSlot, hAbout⟩ => ⟨slot, hSlots hSlot, hAbout⟩

theorem Reports.mapSome {reading : Reading (Option α)} (f : α → β) (h : reading.Reports scope S) :
    (reading.mapSome f).Reports scope S := h.congr (diagnostics_mapSome f reading)

theorem Reports.always {reading : Reading α} (h : reading.Reports scope S) :
    reading.always.Reports scope S := h.congr (diagnostics_always reading)

/-- Reports about different slots of a block may follow each other. -/
theorem Reports.bind {first : Reading α} {next : α → Reading β}
    (hFirst : first.Reports scope (Diagnostic.AboutAny slots spot))
    (hNext : (next first.value).Reports scope (Diagnostic.AboutAny more spot))
    (hSlots : ∀ slot ∈ slots, slot ∉ more) :
    (first >>= next).Reports scope (Diagnostic.AboutAny (slots ++ more) spot) := by
  refine ⟨fun diagnostic hMem => ?_, fun diagnostic hMem => ?_, ?_⟩
  · rw [diagnostics_bind, List.mem_append] at hMem
    exact hMem.elim (hFirst.holds diagnostic) (hNext.holds diagnostic)
  · rw [diagnostics_bind, List.mem_append] at hMem
    rcases hMem with hMem | hMem
    · obtain ⟨slot, hSlot, hAbout⟩ := hFirst.sort diagnostic hMem
      exact ⟨slot, List.mem_append_left more hSlot, hAbout⟩
    · obtain ⟨slot, hSlot, hAbout⟩ := hNext.sort diagnostic hMem
      exact ⟨slot, List.mem_append_right slots hSlot, hAbout⟩
  · rw [diagnostics_bind]
    refine List.pairwise_append.mpr
      ⟨hFirst.once, hNext.once, fun diagnostic hMem other hOther => ?_⟩
    obtain ⟨slot, hSlot, hAbout⟩ := hFirst.sort diagnostic hMem
    obtain ⟨otherSlot, hOtherSlot, hOtherAbout⟩ := hNext.sort other hOther
    intro hSame
    obtain rfl := hAbout.unique (hSame.about hOtherAbout)
    exact hSlots slot hSlot hOtherSlot

theorem reports_parts (f : α) : (parts f).Reports scope (Diagnostic.AboutAny [] spot) :=
  reports_pure (some f)

theorem Reports.and {f : Reading (Option (α → β))} {reading : Reading (Option α)}
    (hFunction : f.Reports scope (Diagnostic.AboutAny slots spot))
    (hReading : reading.Reports scope (Diagnostic.AboutAny more spot))
    (hSlots : ∀ slot ∈ slots, slot ∉ more) :
    (f.and reading).Reports scope (Diagnostic.AboutAny (slots ++ more) spot) := by
  refine hFunction.bind (hReading.congr ?_) hSlots
  rw [diagnostics_bind, diagnostics_pure, List.append_nil]

theorem Reports.andThen {reading : Reading (Option α)} {next : α → Reading (Option β)}
    (hReading : reading.Reports scope (Diagnostic.AboutAny slots spot))
    (hNext : ∀ value, reading.value = some value →
      (next value).Reports scope (Diagnostic.AboutAny more spot))
    (hSlots : ∀ slot ∈ slots, slot ∉ more) :
    (reading.andThen next).Reports scope (Diagnostic.AboutAny (slots ++ more) spot) := by
  refine hReading.bind ?_ hSlots
  split
  · rename_i hValue
    exact hNext _ hValue
  · exact reports_pure none

/-- What a reading reports is about other slots of the block than those of the head. -/
def ReportsParts (scope : Scope) (spot : Spot) (reading : Reading α) : Prop :=
  ∃ slots, (∀ slot ∈ Slot.head, slot ∉ slots) ∧
    reading.Reports scope (Diagnostic.AboutAny slots spot)

theorem Reports.toParts {reading : Reading α}
    (h : reading.Reports scope (Diagnostic.AboutAny slots spot))
    (hSlots : ∀ slot ∈ Slot.head, slot ∉ slots) : reading.ReportsParts scope spot :=
  ⟨slots, hSlots, h⟩

theorem ReportsParts.mapSome {reading : Reading (Option α)} (f : α → β)
    (h : reading.ReportsParts scope spot) : (reading.mapSome f).ReportsParts scope spot := by
  obtain ⟨slots, hSlots, hReports⟩ := h
  exact (hReports.mapSome f).toParts hSlots

/-- Members of a chain are different blocks, so what is reported below them is different. -/
theorem reports_collect {read : NodeId → Reading (Option α)} {path : List PathSegment}
    {nodes : List NodeId} (hNodes : nodes.Nodup)
    (hRead : ∀ node ∈ nodes, (read node).Reports scope (Diagnostic.Below · ⟨node, path⟩)) :
    (collect read nodes).Reports scope
      fun diagnostic => ∃ node ∈ nodes, diagnostic.Below ⟨node, path⟩ := by
  refine ⟨fun diagnostic hMem => ?_, fun diagnostic hMem => ?_, ?_⟩
  · rw [diagnostics_collect, List.mem_flatMap] at hMem
    obtain ⟨node, hNode, hMem⟩ := hMem
    exact (hRead node hNode).holds diagnostic hMem
  · rw [diagnostics_collect, List.mem_flatMap] at hMem
    obtain ⟨node, hNode, hMem⟩ := hMem
    exact ⟨node, hNode, (hRead node hNode).sort diagnostic hMem⟩
  · rw [diagnostics_collect, List.pairwise_flatMap]
    refine ⟨fun node hNode => (hRead node hNode).once, ?_⟩
    refine hNodes.imp_of_mem fun {node other} hNode hOther hNe => ?_
    intro diagnostic hMem another hAnother hSame
    have hBelow := (hRead node hNode).sort diagnostic hMem
    exact hNe (hBelow.unique (hSame.below ((hRead other hOther).sort another hAnother)))

end Reading

/-! ## What a view answers -/

namespace View

variable {view : View} {vocabulary : Vocabulary} {node : NodeId} {field text tag : String}
variable {kind : BlockKind} {found : Category}

theorem filledField?_eq_none_iff :
    view.filledField? node field = none ↔
      view.field? node field = none ∨ view.field? node field = some "" := by
  unfold filledField?
  cases view.field? node field <;> simp

theorem filledField?_eq_some_iff :
    view.filledField? node field = some text ↔ view.field? node field = some text ∧ text ≠ "" := by
  unfold filledField?
  rw [Option.filter_eq_some_iff]
  simp

theorem outputCategory?_of_role (hKind : view.kind? vocabulary node = some kind)
    (hRole : kind.role = .value found) : view.outputCategory? vocabulary node = some found := by
  rw [outputCategory?, hKind, Option.map_some, hRole]

theorem outputCategory?_of_field (hKind : view.kind? vocabulary node = some kind)
    (hRole : kind.role = .typedValue) (hTag : view.field? node Field.category = some tag) :
    view.outputCategory? vocabulary node = Category.ofTag? tag := by
  rw [outputCategory?, hKind, Option.map_some, hRole]
  dsimp only
  rw [hTag, Option.bind_some]

end View

/-! ## Fields and references -/

namespace Reader

open Reading Diagnostic

/-- A reader stands on a forest, and checks references, if it does, in its scope. -/
structure StandsOn (reader : Reader) (scope : Scope) (workspace : Workspace) : Prop where
  forest : workspace.Forest
  view : reader.view = workspace.view
  scopeView : scope.view = workspace.view
  vocabulary : scope.vocabulary = reader.vocabulary
  checked : ∀ other, reader.scope? = some other → other = scope

variable {reader : Reader} {scope : Scope} {workspace : Workspace} {spot : Spot}
variable {kind : BlockKind} {found : Category} {input : String} {α : Type}

theorem reports_report (severity : Severity) (error : ReadError)
    (hHolds : error.HoldsAt scope spot) :
    (reader.report spot severity error).Reports scope (AboutAny [error.slot] spot) where
  holds diagnostic hMem := by
    obtain rfl := List.mem_singleton.mp hMem
    exact hHolds
  sort diagnostic hMem := by
    obtain rfl := List.mem_singleton.mp hMem
    exact ⟨_, List.mem_singleton_self _, Or.inl ⟨⟨rfl, rfl⟩, rfl⟩⟩
  once := List.pairwise_singleton _ _

theorem reports_fail (error : ReadError) (hHolds : error.HoldsAt scope spot) :
    (reader.fail spot error : Reading (Option α)).Reports scope (AboutAny [error.slot] spot) :=
  (reports_report .error error hHolds).congr rfl

variable (hStands : reader.StandsOn scope workspace)

include hStands

theorem reports_missingField {field : String}
    (hNone : reader.view.filledField? spot.node field = none) :
    (reader.fail spot (.missingField field) : Reading (Option α)).Reports scope
      (AboutAny [.field field] spot) := by
  rw [hStands.view, ← hStands.scopeView] at hNone
  exact reports_fail (.missingField field) (View.filledField?_eq_none_iff.mp hNone)

theorem reports_invalidField {field text : String}
    (hText : reader.view.filledField? spot.node field = some text)
    (hRejects : Field.Rejects field text) :
    (reader.fail spot (.invalidField field text) : Reading (Option α)).Reports scope
      (AboutAny [.field field] spot) := by
  rw [hStands.view, ← hStands.scopeView] at hText
  obtain ⟨hField, hNe⟩ := View.filledField?_eq_some_iff.mp hText
  exact reports_fail (.invalidField field text) ⟨hField, hNe, hRejects⟩

theorem reports_requiredField (field : String) :
    (reader.requiredField spot field).Reports scope (AboutAny [.field field] spot) := by
  unfold requiredField
  split
  · exact reports_pure _
  · rename_i hNone
    exact reports_missingField hStands hNone

theorem reports_parsedField {field : String} {parse : String → Option α}
    (hRejects : ∀ text, parse (Text.trim text) = none → Field.Rejects field text) :
    (reader.parsedField spot field parse).Reports scope (AboutAny [.field field] spot) := by
  unfold parsedField requiredField
  cases hText : reader.view.filledField? spot.node field with
  | none =>
    rw [fail_andThen]
    exact reports_missingField hStands hText
  | some text =>
    rw [pure_andThen]
    split
    · exact reports_pure _
    · rename_i hParse
      exact reports_invalidField hStands hText (hRejects text hParse)

theorem reports_cardSet :
    (reader.cardSet spot).Reports scope (AboutAny [.field Field.cards] spot) := by
  unfold cardSet
  split
  · exact reports_pure _
  · rename_i text hText
    split
    · exact reports_pure _
    · rename_i hNe
      exact reports_invalidField hStands hText (.cards hNe)

/-- In a forest names can always be resolved. -/
theorem exists_resolve_eq_ok (hNode : spot.node < workspace.size) (category : Category)
    (name : String) : ∃ binding?, scope.resolve spot.node category name = .ok binding? := by
  obtain ⟨around, hAround⟩ := Scope.exists_enclosures hStands.forest hStands.scopeView hNode
  rw [Scope.resolve, Scope.names_of_enclosures hStands.scopeView hAround]
  exact ⟨_, rfl⟩

theorem reports_checkReference (hNode : spot.node < workspace.size) (category : Category)
    (name : String) :
    (reader.checkReference spot category name).Reports scope (AboutAny [.reference] spot) := by
  unfold checkReference
  split
  · exact reports_pure _
  · rename_i other hScope
    obtain rfl := hStands.checked other hScope
    obtain ⟨binding?, hResolve⟩ := exists_resolve_eq_ok hStands hNode category name
    rw [hResolve]
    cases binding? with
    | some _ => exact reports_pure _
    | none => exact reports_report .warning (.unresolvedVariable name category) hResolve

theorem reports_reference (hNode : spot.node < workspace.size) (field : String)
    (category : Category) :
    (reader.reference spot field category).Reports scope
      (AboutAny [.field field, .reference] spot) := by
  refine (reports_requiredField hStands field).andThen (fun name _ => ?_) (by simp)
  refine (reports_checkReference hStands hNode category name).congr ?_
  rw [diagnostics_bind, diagnostics_pure, List.append_nil]

/-! ## The kind and the category of a value -/

theorem reports_unknown (hNode : spot.node < workspace.size)
    (hNone : reader.view.kind? reader.vocabulary spot.node = none) :
    (reader.fail spot (.unknownBlockType (reader.view.shownTag spot.node)) :
      Reading (Option α)).Reports scope (AboutAny [.block] spot) := by
  obtain ⟨block, hBlock⟩ := Workspace.exists_block?_iff.mpr hNode
  have hTag : scope.view.tag? spot.node = some block.tag := by
    rw [hStands.scopeView]
    exact congrArg (Option.map Block.tag) hBlock
  have hView : reader.view = scope.view := hStands.view.trans hStands.scopeView.symm
  rw [View.kind?, hView, hTag, Option.bind_some, ← hStands.vocabulary] at hNone
  refine reports_fail (.unknownBlockType _) ⟨?_, ?_⟩
  · rw [View.shownTag, hView, hTag, Option.getD_some]
  · rwa [View.shownTag, hView, hTag, Option.getD_some]

theorem reports_typeMismatch {expected : Category}
    (hOutput : reader.view.outputCategory? reader.vocabulary spot.node = some found)
    (hAccepts : ¬ expected.accepts found = true) :
    (reader.typeMismatch spot expected found : Reading (Option α)).Reports scope
      (AboutAny [.block] spot) := by
  rw [hStands.view, ← hStands.scopeView, ← hStands.vocabulary] at hOutput
  exact reports_fail (.typeMismatch spot.currentInput expected found)
    ⟨rfl, hOutput, by simpa using hAccepts⟩

theorem reports_accepted {expected : Category}
    (hOutput : reader.view.outputCategory? reader.vocabulary spot.node = some found) :
    (if expected.accepts found then pure (some (kind, found))
      else reader.typeMismatch spot expected found :
        Reading (Option (BlockKind × Category))).Reports scope (AboutAny Slot.head spot) := by
  split
  · exact reports_pure _
  · rename_i hAccepts
    exact (reports_typeMismatch hStands hOutput hAccepts).subset (by simp [Slot.head])

/-- The kind of a value, its category, and whether the place takes it. -/
theorem reports_checkValue (hNode : spot.node < workspace.size) (expected : Category) :
    (reader.checkValue spot expected).Reports scope (AboutAny Slot.head spot) := by
  have hBlock : [Slot.block] ⊆ Slot.head := by simp [Slot.head]
  have hCategory : [Slot.field Field.category] ⊆ Slot.head := by simp [Slot.head]
  unfold checkValue
  cases hKind : reader.view.kind? reader.vocabulary spot.node with
  | none =>
    rw [kind_eq_fail hKind, fail_andThen]
    exact (reports_unknown hStands hNode hKind).subset hBlock
  | some kind =>
    rw [kind_eq_pure hKind, pure_andThen]
    have hNoValue (hRole : ¬ kind.role.GivesValue) :
        (reader.fail spot (.notAValue spot.currentInput kind) :
          Reading (Option (BlockKind × Category))).Reports scope (AboutAny Slot.head spot) := by
      rw [hStands.view, ← hStands.scopeView, ← hStands.vocabulary] at hKind
      exact (reports_fail (.notAValue spot.currentInput kind) ⟨rfl, hKind, hRole⟩).subset hBlock
    cases hRole : kind.role with
    | value category =>
      rw [pure_andThen]
      exact reports_accepted hStands (View.outputCategory?_of_role hKind hRole)
    | typedValue =>
      cases hText : reader.view.filledField? spot.node Field.category with
      | none =>
        rw [variableCategory, requiredField, hText, fail_andThen, fail_andThen]
        exact (reports_missingField hStands hText).subset hCategory
      | some tag =>
        rw [variableCategory, requiredField, hText, pure_andThen]
        have hTag := (View.filledField?_eq_some_iff.mp hText).1
        cases hFilter : (Category.ofTag? tag).filter Category.hasVariables with
        | none =>
          rw [fail_andThen]
          exact (reports_invalidField hStands hText (.category hFilter)).subset hCategory
        | some category =>
          rw [pure_andThen]
          refine reports_accepted hStands ?_
          rw [View.outputCategory?_of_field hKind hRole hTag]
          exact (Option.filter_eq_some_iff.mp hFilter).1
    | hat | statement | offerCase | offerChoice =>
      rw [fail_andThen]
      exact hNoValue (by rw [hRole]; exact id)

omit hStands in
/-- Only a value that fits is taken. -/
theorem fits_of_checkValue {expected : Category}
    (h : (reader.checkValue spot expected).value = some (kind, found)) :
    kind.Fits expected found := by
  refine ⟨suits_of_checkValue h, fun hRole => ?_⟩
  unfold checkValue at h
  rw [value_andThen] at h
  obtain ⟨other, -, h⟩ := Option.bind_eq_some_iff.mp h
  rw [value_andThen] at h
  obtain ⟨category, hCategory, h⟩ := Option.bind_eq_some_iff.mp h
  split at h
  · obtain ⟨rfl, rfl⟩ := Prod.mk.inj (Option.some.inj h)
    rw [hRole] at hCategory
    dsimp only at hCategory
    rw [variableCategory, value_andThen] at hCategory
    obtain ⟨tag, -, hTag⟩ := Option.bind_eq_some_iff.mp hCategory
    split at hTag
    · rename_i hFilter
      obtain rfl := Option.some.inj hTag
      exact (Option.filter_eq_some_iff.mp hFilter).2
    · cases hTag
  · cases h

/-- What is reported for a value is true, and nothing is reported twice. -/
theorem reports_value (hNode : spot.node < workspace.size) {expected : Category}
    {read : BlockKind × Category → Reading (Option α)}
    (hRead : ∀ kind found, kind.Fits expected found →
      (read (kind, found)).ReportsParts scope spot) :
    ((reader.checkValue spot expected).andThen read).Reports scope (Below · spot) := by
  cases hChecked : (reader.checkValue spot expected).value with
  | none =>
    have hNone : ∀ checked, (reader.checkValue spot expected).value = some checked →
        (read checked).Reports scope (AboutAny [] spot) := by
      rw [hChecked]
      nofun
    exact ((reports_checkValue hStands hNode expected).andThen hNone nofun).below
  | some checked =>
    obtain ⟨slots, hSlots, hReports⟩ := hRead _ _ (fits_of_checkValue hChecked)
    refine ((reports_checkValue hStands hNode expected).andThen ?_ hSlots).below
    rw [hChecked]
    rintro _ ⟨⟩
    exact hReports

theorem reports_socket {expected : Category}
    {read : Spot → BlockKind → Category → Reading (Option α)}
    (hRead : ∀ inner kind found, inner.node < workspace.size → kind.Fits expected found →
      (read inner kind found).ReportsParts scope inner) :
    (reader.socket spot input expected read).Reports scope (AboutAny [.input input] spot) := by
  unfold socket
  split
  · rename_i hNone
    rw [hStands.view, ← hStands.scopeView] at hNone
    exact reports_fail (.missingInput input) hNone
  · rename_i child hChild
    rw [hStands.view] at hChild
    obtain ⟨link, hParent, -⟩ := hStands.forest.isParent_of_input? hChild
    have hInner : child < workspace.size := Workspace.lt_size_of_parent? hParent
    refine (reports_value hStands ?_ fun kind found => hRead _ kind found hInner).mono ?_
    · exact hInner
    · exact fun diagnostic hBelow =>
        ⟨_, List.mem_singleton_self _, Or.inr ⟨input, rfl, hBelow.inside⟩⟩

/-! ## Values -/

theorem reports_playerAt (hNode : spot.node < workspace.size) (hFits : kind.Fits .player found) :
    (reader.playerAt spot kind found).ReportsParts scope spot := by
  cases kind
  case currentPlayer => exact (reports_parts _).toParts (by decide)
  case getTyped => exact ((reports_reference hStands hNode _ _).mapSome _).toParts (by decide)
  all_goals exact hFits.elim (by decide)

theorem reports_player :
    (reader.player spot input).Reports scope (AboutAny [.input input] spot) :=
  reports_socket hStands fun _ _ _ => reports_playerAt hStands

theorem reports_playerCollectionAt (hNode : spot.node < workspace.size)
    (hFits : kind.Fits .playerCollection found) :
    (reader.playerCollectionAt spot kind found).ReportsParts scope spot := by
  unfold playerCollectionAt
  split
  · rename_i hFound
    subst hFound
    exact (reports_playerAt hStands hNode ⟨⟨hFits.1.1, rfl⟩, hFits.2⟩).mapSome _
  · rename_i hFound
    cases kind
    case allPlayers => exact (reports_parts _).toParts (by decide)
    case getTyped => exact ((reports_reference hStands hNode _ _).mapSome _).toParts (by decide)
    case currentPlayer => exact absurd (hFits.eq_of_role rfl) hFound
    all_goals exact hFits.elim (by decide)

theorem reports_playerCollection :
    (reader.playerCollection spot input).Reports scope (AboutAny [.input input] spot) :=
  reports_socket hStands fun _ _ _ => reports_playerCollectionAt hStands

theorem reports_zoneAt (hNode : spot.node < workspace.size) (hFits : kind.Fits .zone found) :
    (reader.zoneAt spot kind found).ReportsParts scope spot := by
  cases kind
  case zoneForPlayer =>
    exact (((reports_parts _).and (reports_requiredField hStands _) (by decide)).and
      (reports_player hStands) (by decide)).toParts (by decide)
  case getTyped => exact ((reports_reference hStands hNode _ _).mapSome _).toParts (by decide)
  all_goals exact hFits.elim (by decide)

theorem reports_zone : (reader.zone spot input).Reports scope (AboutAny [.input input] spot) :=
  reports_socket hStands fun _ _ _ => reports_zoneAt hStands

theorem reports_zoneCollectionAt (hNode : spot.node < workspace.size)
    (hFits : kind.Fits .zoneCollection found) :
    (reader.zoneCollectionAt spot kind found).ReportsParts scope spot := by
  unfold zoneCollectionAt
  split
  · rename_i hFound
    subst hFound
    exact (reports_zoneAt hStands hNode ⟨⟨hFits.1.1, rfl⟩, hFits.2⟩).mapSome _
  · rename_i hFound
    cases kind
    case zonesOfType => exact ((reports_requiredField hStands _).mapSome _).toParts (by decide)
    case getTyped => exact ((reports_reference hStands hNode _ _).mapSome _).toParts (by decide)
    case zoneForPlayer => exact absurd (hFits.eq_of_role rfl) hFound
    all_goals exact hFits.elim (by decide)

theorem reports_zoneCollection :
    (reader.zoneCollection spot input).Reports scope (AboutAny [.input input] spot) :=
  reports_socket hStands fun _ _ _ => reports_zoneCollectionAt hStands

theorem reports_cardAt (hNode : spot.node < workspace.size) (hFits : kind.Fits .card found) :
    (reader.cardAt spot kind found).ReportsParts scope spot := by
  cases kind
  case getTyped => exact ((reports_reference hStands hNode _ _).mapSome _).toParts (by decide)
  all_goals exact hFits.elim (by decide)

theorem reports_card : (reader.card spot input).Reports scope (AboutAny [.input input] spot) :=
  reports_socket hStands fun _ _ _ => reports_cardAt hStands

theorem reports_rankAt (hFits : kind.Fits .rank found) :
    (reader.rankAt spot kind found).ReportsParts scope spot := by
  cases kind
  case rankLiteral =>
    exact ((reports_parsedField hStands fun _ => .rank).mapSome _).toParts (by decide)
  case rankFromCard => exact ((reports_card hStands).mapSome _).toParts (by decide)
  all_goals exact hFits.elim (by decide)

theorem reports_rank : (reader.rank spot input).Reports scope (AboutAny [.input input] spot) :=
  reports_socket hStands fun _ _ _ _ => reports_rankAt hStands

theorem reports_suitAt (hFits : kind.Fits .suit found) :
    (reader.suitAt spot kind found).ReportsParts scope spot := by
  cases kind
  case suitLiteral =>
    exact ((reports_parsedField hStands fun _ => .suit).mapSome _).toParts (by decide)
  case suitFromCard => exact ((reports_card hStands).mapSome _).toParts (by decide)
  all_goals exact hFits.elim (by decide)

theorem reports_suit : (reader.suit spot input).Reports scope (AboutAny [.input input] spot) :=
  reports_socket hStands fun _ _ _ _ => reports_suitAt hStands

theorem reports_cardCollectionAt (hNode : spot.node < workspace.size)
    (hFits : kind.Fits .cardCollection found) :
    (reader.cardCollectionAt spot kind found).ReportsParts scope spot := by
  unfold cardCollectionAt
  split
  · rename_i hFound
    subst hFound
    exact (reports_cardAt hStands hNode ⟨⟨hFits.1.1, rfl⟩, hFits.2⟩).mapSome _
  · cases kind
    case getTyped => exact ((reports_reference hStands hNode _ _).mapSome _).toParts (by decide)
    case cardSelector =>
      exact ((reports_parsedField hStands fun _ => .selector).and (reports_zone hStands)
        (by decide)).toParts (by decide)
    case cardsMatchingSuit =>
      exact (((reports_parts _).and (reports_zone hStands) (by decide)).and (reports_suit hStands)
        (by decide)).toParts (by decide)
    case cardsMatchingRank =>
      exact (((reports_parts _).and (reports_zone hStands) (by decide)).and (reports_rank hStands)
        (by decide)).toParts (by decide)
    all_goals exact hFits.elim (by decide)

theorem reports_cardCollection :
    (reader.cardCollection spot input).Reports scope (AboutAny [.input input] spot) :=
  reports_socket hStands fun _ _ _ => reports_cardCollectionAt hStands

theorem reports_numberAt (hNode : spot.node < workspace.size) (hFits : kind.Fits .number found) :
    (reader.numberAt spot kind found).ReportsParts scope spot := by
  cases kind
  case numberLiteral =>
    exact ((reports_parsedField hStands fun _ => .number).mapSome _).toParts (by decide)
  case getNumber | getTyped =>
    exact ((reports_reference hStands hNode _ _).mapSome _).toParts (by decide)
  case cardCount => exact ((reports_cardCollection hStands).mapSome _).toParts (by decide)
  all_goals exact hFits.elim (by decide)

theorem reports_number : (reader.number spot input).Reports scope (AboutAny [.input input] spot) :=
  reports_socket hStands fun _ _ _ => reports_numberAt hStands

theorem reports_booleanAt (hFits : kind.Fits .boolean found) :
    (reader.booleanAt spot kind found).ReportsParts scope spot := by
  cases kind
  case booleanLiteral =>
    exact ((reports_parsedField hStands fun _ => .boolean).mapSome _).toParts (by decide)
  case compare =>
    exact ((((reports_parts _).and (reports_parsedField hStands fun _ => .comparison)
      (by decide)).and (reports_number hStands) (by decide)).and (reports_number hStands)
      (by decide)).toParts (by decide)
  case playerOfType =>
    exact (((reports_parts _).and (reports_requiredField hStands _) (by decide)).and
      (reports_player hStands) (by decide)).toParts (by decide)
  all_goals exact hFits.elim (by decide)

theorem reports_boolean :
    (reader.boolean spot input).Reports scope (AboutAny [.input input] spot) :=
  reports_socket hStands fun _ _ _ _ => reports_booleanAt hStands

/-- **What is reported for an expression is true, and nothing is reported twice.** -/
theorem reports_expression (hNode : spot.node < workspace.size) (category : Category) :
    (reader.expression spot category).Reports scope (Below · spot) := by
  refine reports_value hStands hNode fun kind found hFits => ?_
  cases category
  case number => exact (reports_numberAt hStands hNode hFits).mapSome _
  case boolean => exact (reports_booleanAt hStands hFits).mapSome _
  case player => exact (reports_playerAt hStands hNode hFits).mapSome _
  case playerCollection => exact (reports_playerCollectionAt hStands hNode hFits).mapSome _
  case zone => exact (reports_zoneAt hStands hNode hFits).mapSome _
  case zoneCollection => exact (reports_zoneCollectionAt hStands hNode hFits).mapSome _
  case card => exact (reports_cardAt hStands hNode hFits).mapSome _
  case cardCollection => exact (reports_cardCollectionAt hStands hNode hFits).mapSome _
  case rank => exact (reports_rankAt hStands hFits).mapSome _
  case suit => exact (reports_suitAt hStands hFits).mapSome _

end Reader

end RuleBlocks
