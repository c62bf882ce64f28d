import RuleBlocks.Proofs.Reading.Defects

/-!
# The category of a block, asked and found

Whoever connects blocks asks the graph for the category of the value that a block gives
(`View.outputCategory?`). Whoever reads the block checks it and finds a category
(`Reader.checkValue`). Both look at the kind of the block and, at a getter, at the category that it
names; but only the reader asks whether there are variables of that category. So the two agree
everywhere but at a getter that names a category without variables (`View.NamesWithoutVariables`).
There the graph answers with that category, and the reader finds none, whatever is expected
(`Reader.outputCategory?_agrees`).
-/

namespace RuleBlocks

/-- A getter names a category of which there are no variables. -/
def View.NamesWithoutVariables (view : View) (vocabulary : Vocabulary) (node : NodeId)
    (category : Category) : Prop :=
  (view.kind? vocabulary node).map BlockKind.role = some .typedValue ∧
    view.field? node Field.category = some category.tag ∧ category.hasVariables = false

namespace View

variable {view : View} {vocabulary : Vocabulary} {node : NodeId} {kind : BlockKind}
variable {category : Category}

/-- The graph answers with that category all the same. -/
theorem NamesWithoutVariables.outputCategory?_eq
    (h : view.NamesWithoutVariables vocabulary node category) :
    view.outputCategory? vocabulary node = some category := by
  obtain ⟨hRole, hField, -⟩ := h
  obtain ⟨kind, hKind, hRole⟩ := Option.map_eq_some_iff.mp hRole
  rw [outputCategory?_of_field hKind hRole hField, Category.ofTag?_tag]

/-- A getter that names no category gives none. -/
theorem outputCategory?_of_unset (hKind : view.kind? vocabulary node = some kind)
    (hRole : kind.role = .typedValue) (hField : view.filledField? node Field.category = none) :
    view.outputCategory? vocabulary node = none := by
  rcases filledField?_eq_none_iff.mp hField with hNone | hEmpty
  · rw [outputCategory?, hKind, Option.map_some, hRole]
    dsimp only
    rw [hNone, Option.bind_none]
  · rw [outputCategory?_of_field hKind hRole hEmpty]
    decide

theorem not_namesWithoutVariables_of_role (hKind : view.kind? vocabulary node = some kind)
    (hRole : kind.role ≠ .typedValue) : ¬ view.NamesWithoutVariables vocabulary node category := by
  rintro ⟨hTyped, -, -⟩
  rw [hKind, Option.map_some] at hTyped
  exact hRole (Option.some.inj hTyped)

end View

namespace Reader

open Reading

/-- The check of a block finds a kind and a category, and takes the block wherever a value of that
category fits. -/
def Finds (reader : Reader) (spot : Spot) (kind : BlockKind) (found : Category) : Prop :=
  ∀ expected, reader.checkValue spot expected =
    if expected.accepts found then pure (some (kind, found))
    else reader.typeMismatch spot expected found

/-- The check of a block fails in the same way, whatever is expected. -/
def Refuses (reader : Reader) (spot : Spot) (error : ReadError) : Prop :=
  ∀ expected, reader.checkValue spot expected = reader.fail spot error

variable {reader : Reader} {spot : Spot} {kind : BlockKind} {found category : Category}
variable {error : ReadError}

theorem Finds.eq_of_value_eq (hFinds : reader.Finds spot kind found) {expected : Category}
    {checked : BlockKind × Category} (h : (reader.checkValue spot expected).value = some checked) :
    checked = (kind, found) := by
  rw [hFinds] at h
  split at h
  · exact (Option.some.inj h).symm
  · cases h

theorem Finds.value_eq_some (hFinds : reader.Finds spot kind found) :
    (reader.checkValue spot found).value = some (kind, found) := by
  rw [hFinds, if_pos found.accepts_self]
  rfl

theorem Refuses.value_eq_none (hRefuses : reader.Refuses spot error) (expected : Category) :
    (reader.checkValue spot expected).value = none := by
  rw [hRefuses]
  rfl

/-! ## Blocks by their role -/

theorem refuses_of_unknown (hKind : reader.view.kind? reader.vocabulary spot.node = none) :
    reader.Refuses spot (.unknownBlockType (reader.view.shownTag spot.node)) := by
  intro expected
  rw [checkValue, kind_eq_fail hKind, fail_andThen]

section

variable (hKind : reader.view.kind? reader.vocabulary spot.node = some kind)

include hKind

theorem finds_of_value (hRole : kind.role = .value found) : reader.Finds spot kind found := by
  intro expected
  rw [checkValue, kind_eq_pure hKind, pure_andThen]
  dsimp only
  rw [hRole, pure_andThen]

theorem refuses_of_role (hRole : ¬ kind.role.GivesValue) :
    reader.Refuses spot (.notAValue spot.currentInput kind) := by
  intro expected
  rw [checkValue, kind_eq_pure hKind, pure_andThen]
  dsimp only
  cases hCase : kind.role with
  | value category =>
    exact absurd trivial (show ¬ (BlockRole.value category).GivesValue from hCase ▸ hRole)
  | typedValue => exact absurd trivial (show ¬ BlockRole.typedValue.GivesValue from hCase ▸ hRole)
  | hat | statement | offerCase | offerChoice => rfl

variable (hRole : kind.role = .typedValue)

include hRole

/-- What the check of a getter finds, or how it fails, depends on its field alone. -/
theorem checkValue_of_getter (expected : Category) :
    reader.checkValue spot expected = (reader.variableCategory spot).andThen fun found =>
      if expected.accepts found then pure (some (kind, found))
      else reader.typeMismatch spot expected found := by
  rw [checkValue, kind_eq_pure hKind, pure_andThen]
  dsimp only
  rw [hRole]

theorem refuses_of_unset (hField : reader.view.filledField? spot.node Field.category = none) :
    reader.Refuses spot (.missingField Field.category) := by
  intro expected
  rw [checkValue_of_getter hKind hRole, variableCategory, requiredField, hField, fail_andThen,
    fail_andThen]

section

variable {tag : String} (hField : reader.view.filledField? spot.node Field.category = some tag)

include hField

theorem finds_of_getter
    (hTag : (Category.ofTag? tag).filter Category.hasVariables = some found) :
    reader.Finds spot kind found := by
  intro expected
  rw [checkValue_of_getter hKind hRole, variableCategory, requiredField, hField, pure_andThen,
    hTag, pure_andThen]

theorem refuses_of_getter (hTag : (Category.ofTag? tag).filter Category.hasVariables = none) :
    reader.Refuses spot (.invalidField Field.category tag) := by
  intro expected
  rw [checkValue_of_getter hKind hRole, variableCategory, requiredField, hField, pure_andThen,
    hTag, fail_andThen]

end

end

/-! ## What is asked and what is found -/

theorem refuses_of_namesWithoutVariables
    (h : reader.view.NamesWithoutVariables reader.vocabulary spot.node category) :
    reader.Refuses spot (.invalidField Field.category category.tag) := by
  obtain ⟨hRole, hField, hVariables⟩ := h
  obtain ⟨kind, hKind, hRole⟩ := Option.map_eq_some_iff.mp hRole
  have hFilled : reader.view.filledField? spot.node Field.category = some category.tag :=
    View.filledField?_eq_some_iff.mpr ⟨hField, by cases category <;> decide⟩
  exact refuses_of_getter hKind hRole hFilled (by simp [hVariables])

/-- Either the check of a block finds the category with which the graph answers, or it fails
wherever the block stands; then the graph has no answer unless a getter names a category without
variables. -/
theorem finds_or_refuses (reader : Reader) (spot : Spot) :
    (∃ kind found, reader.Finds spot kind found ∧
      reader.view.outputCategory? reader.vocabulary spot.node = some found ∧
      ∀ category, ¬ reader.view.NamesWithoutVariables reader.vocabulary spot.node category) ∨
    ∃ error, reader.Refuses spot error ∧
      ∀ category, reader.view.outputCategory? reader.vocabulary spot.node = some category →
        reader.view.NamesWithoutVariables reader.vocabulary spot.node category := by
  cases hKind : reader.view.kind? reader.vocabulary spot.node with
  | none =>
    refine Or.inr ⟨_, refuses_of_unknown hKind, ?_⟩
    simp [View.outputCategory?, hKind]
  | some kind =>
    cases hRole : kind.role with
    | value found =>
      refine Or.inl ⟨kind, found, finds_of_value hKind hRole,
        View.outputCategory?_of_role hKind hRole, fun category => ?_⟩
      exact View.not_namesWithoutVariables_of_role hKind (by simp [hRole])
    | typedValue =>
      cases hFilled : reader.view.filledField? spot.node Field.category with
      | none =>
        refine Or.inr ⟨_, refuses_of_unset hKind hRole hFilled, ?_⟩
        rw [View.outputCategory?_of_unset hKind hRole hFilled]
        intro category hAnswer
        cases hAnswer
      | some tag =>
        have hField := (View.filledField?_eq_some_iff.mp hFilled).1
        have hOutput := View.outputCategory?_of_field hKind hRole hField
        cases hFilter : (Category.ofTag? tag).filter Category.hasVariables with
        | none =>
          refine Or.inr ⟨_, refuses_of_getter hKind hRole hFilled hFilter, fun category => ?_⟩
          intro hAnswer
          have hTag : Category.ofTag? tag = some category := hOutput.symm.trans hAnswer
          refine ⟨by rw [hKind, Option.map_some, hRole], ?_, ?_⟩
          · rw [hField, Category.ofTag?_eq_some_iff.mp hTag]
          · simpa [hTag] using hFilter
        | some found =>
          obtain ⟨hTag, hVariables⟩ := Option.filter_eq_some_iff.mp hFilter
          have hFound := hOutput.trans hTag
          refine Or.inl ⟨kind, found, finds_of_getter hKind hRole hFilled hFilter, hFound, ?_⟩
          intro category hNames
          cases hNames.outputCategory?_eq.symm.trans hFound
          cases hVariables.symm.trans hNames.2.2
    | hat | statement | offerCase | offerChoice =>
      refine Or.inr ⟨_, refuses_of_role hKind (by rw [hRole]; exact id), ?_⟩
      simp [View.outputCategory?, hKind, hRole]

/-- **The category that is asked is the category that is found**, unless a getter names a category
without variables. Whatever the graph, the vocabulary and the place: the graph answers with a
category just if the check of the block for that category finds it, or if the block is such a
getter; and it answers with none just if the check fails whatever is expected, and the block is no
such getter. At such a getter the check fails whatever is expected, and says that the field is not
valid. -/
theorem outputCategory?_agrees (reader : Reader) (spot : Spot) :
    let output? := reader.view.outputCategory? reader.vocabulary spot.node
    let NoVariables := reader.view.NamesWithoutVariables reader.vocabulary spot.node
    (∀ category, output? = some category ↔
        (∃ kind, (reader.checkValue spot category).value = some (kind, category)) ∨
          NoVariables category) ∧
      (output? = none ↔
        (∀ expected, (reader.checkValue spot expected).value = none) ∧
          ∀ category, ¬ NoVariables category) ∧
      ∀ category, NoVariables category → ∀ expected,
        reader.checkValue spot expected =
          reader.fail spot (.invalidField Field.category category.tag) := by
  intro output? NoVariables
  have hAnswered : ∀ category, NoVariables category → output? = some category := fun _ hNames =>
    hNames.outputCategory?_eq
  refine ⟨fun category => ?_, ?_, fun category => refuses_of_namesWithoutVariables⟩
  · rcases reader.finds_or_refuses spot with
      ⟨kind, found, hFinds, hOutput, -⟩ | ⟨error, hRefuses, hOnly⟩
    · constructor
      · intro hCategory
        obtain rfl := Option.some.inj (hCategory.symm.trans hOutput)
        exact Or.inl ⟨kind, hFinds.value_eq_some⟩
      · rintro (⟨other, hChecked⟩ | hNames)
        · cases hFinds.eq_of_value_eq hChecked
          exact hOutput
        · exact hAnswered _ hNames
    · refine ⟨fun hCategory => Or.inr (hOnly _ hCategory), ?_⟩
      rintro (⟨other, hChecked⟩ | hNames)
      · cases (hRefuses.value_eq_none category).symm.trans hChecked
      · exact hAnswered _ hNames
  · rcases reader.finds_or_refuses spot with
      ⟨kind, found, hFinds, hOutput, -⟩ | ⟨error, hRefuses, hOnly⟩
    · refine iff_of_false (by rw [show output? = some found from hOutput]; nofun) fun hFails => ?_
      cases hFinds.value_eq_some.symm.trans (hFails.1 found)
    · constructor
      · intro hNone
        refine ⟨hRefuses.value_eq_none, fun category hNames => ?_⟩
        cases (hAnswered _ hNames).symm.trans hNone
      · rintro ⟨-, hNever⟩
        exact Option.eq_none_iff_forall_ne_some.mpr fun category hCategory =>
          hNever _ (hOnly _ hCategory)

end Reader

namespace Workspace

/-- A getter of a rank, under a tag of its own. -/
def rankGetter : List Command :=
  [.edit (.create "get_rank"), .edit (.setField 0 Field.category Category.rank.tag)]

theorem rankGetter_agrees :
    let vocabulary := Vocabulary.ofAliases [("get_rank", BlockKind.getTyped.tag)]
    let reader := Reader.ofView (run rankGetter).view vocabulary .unchecked
    reader.view.NamesWithoutVariables reader.vocabulary 0 .rank ∧
      reader.view.outputCategory? reader.vocabulary 0 = some .rank ∧
      ∀ expected, reader.checkValue ⟨0, []⟩ expected =
        reader.fail ⟨0, []⟩ (.invalidField Field.category "socs_t_rank") := by
  intro vocabulary reader
  have hNames : reader.view.NamesWithoutVariables reader.vocabulary 0 .rank := by
    refine ⟨?_, ?_, rfl⟩ <;> decide
  obtain ⟨hCategories, -, hFails⟩ := reader.outputCategory?_agrees ⟨0, []⟩
  exact ⟨hNames, (hCategories .rank).mpr (Or.inr hNames), hFails .rank hNames⟩

/-- A getter of a truth value. -/
def truthGetter : List Command :=
  [.edit (.create BlockKind.getTyped.tag), .edit (.setField 0 Field.category Category.boolean.tag),
    .edit (.setField 0 Field.variableName "done")]

/-- There are no variables for truth values, but the graph says that the getter gives one. -/
theorem truthGetter_disagrees :
    let reader := Reader.ofView (run truthGetter).view .canonical .unchecked
    reader.view.outputCategory? reader.vocabulary 0 = some .boolean ∧
      ∀ expected, (reader.checkValue ⟨0, []⟩ expected).value = none := by
  intro reader
  have hNames : reader.view.NamesWithoutVariables reader.vocabulary 0 .boolean := by
    refine ⟨?_, ?_, rfl⟩ <;> decide
  exact ⟨hNames.outputCategory?_eq,
    (Reader.refuses_of_namesWithoutVariables hNames).value_eq_none⟩

end Workspace

end RuleBlocks
