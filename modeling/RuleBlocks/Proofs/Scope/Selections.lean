import RuleBlocks.Proofs.Reading.Forest
import RuleBlocks.Proofs.Scope.Forest
import RuleBlocks.Proofs.Text

/-!
# What selections bind

The reader of a selection and the resolver of names both read the name and the choice type of the
selection. The reader does not mind blanks around the choice type (`selection_of_value_member`), the
resolver does: it takes a choice type only as it is (`selectionBinding?_eq_some_iff`).

So the statements of a case can refer to a selection that was read if its choice type has no blanks
around it, and if it has, nothing refers to the selection (`Workspace.run_selection_bound`).
-/

namespace RuleBlocks

open Relation

/-! ## Choice types -/

namespace SelectionCategories

theorem tag_bound_of_ofTag? {tag : String} {categories : SelectionCategories}
    (h : ofTag? tag = some categories) : categories.bound.tag = tag := by
  unfold ofTag? at h
  split at h
  case h_5 => cases h
  all_goals
    rename_i hTag
    cases h
    exact Category.ofTag?_eq_some_iff.mp hTag

/-- A tag of a choice type has no blanks around it. -/
theorem trim_of_ofTag? {tag : String} {categories : SelectionCategories}
    (h : ofTag? tag = some categories) : Text.trim tag = tag := by
  rw [← tag_bound_of_ofTag? h, Category.trim_tag]

end SelectionCategories

namespace Reader

open Reading

variable {reader : Reader} {choice : NodeId} {name : String} {choiceType : ChoiceType}

/-- What is selected has the category that the choice type names. -/
theorem boundCategory_of_value_choiceType {spot : Spot} {tag : String}
    {categories : SelectionCategories} (hTag : SelectionCategories.ofTag? tag = some categories)
    (h : (reader.choiceType spot categories.bound).value = some choiceType) :
    choiceType.boundCategory = categories.bound := by
  unfold SelectionCategories.ofTag? at hTag
  split at hTag
  case h_5 => cases hTag
  all_goals
    cases hTag
    obtain ⟨source, -, rfl⟩ := Option.map_eq_some_iff.mp h
    rfl

/-- What a member of the choices of a case has in its fields if it is read as a selection. -/
theorem selection_of_value_member {path : List PathSegment}
    (h : (reader.member path .offerChoice reader.offerChoice choice).value =
      some (.selection name choiceType)) :
    reader.view.kind? reader.vocabulary choice = some .choiceSelection ∧
      reader.view.filledField? choice Field.selectedAs = some name ∧
      ∃ tag categories, reader.view.field? choice Field.choiceType = some tag ∧
        SelectionCategories.ofTag? (Text.trim tag) = some categories ∧
        choiceType.boundCategory = categories.bound := by
  unfold member at h
  cases hKind : reader.view.kind? reader.vocabulary choice with
  | none =>
    rw [kind_eq_fail hKind, fail_andThen] at h
    cases h
  | some kind =>
    rw [kind_eq_pure hKind, pure_andThen] at h
    cases kind
    case choiceMove =>
      obtain ⟨_, _, hParts, -, hMove⟩ := value_and_eq_some_iff.mp h
      obtain ⟨_, _, hPart, -, rfl⟩ := value_and_eq_some_iff.mp hParts
      cases hPart
      cases hMove
    case choiceSelection =>
      obtain ⟨_, _, hParts, hType, hSelection⟩ := value_and_eq_some_iff.mp h
      obtain ⟨_, _, hPart, hName, rfl⟩ := value_and_eq_some_iff.mp hParts
      cases hPart
      cases hSelection
      rw [value_requiredField] at hName
      rw [value_andThen, value_parsedField] at hType
      obtain ⟨categories, hCategories, hType⟩ := Option.bind_eq_some_iff.mp hType
      obtain ⟨tag, hTag, hCategories⟩ := Option.bind_eq_some_iff.mp hCategories
      exact ⟨rfl, hName, tag, categories, (Option.filter_eq_some_iff.mp hTag).1, hCategories,
        boundCategory_of_value_choiceType hCategories hType⟩
    all_goals cases h

end Reader

namespace Workspace

variable {workspace : Workspace} {holder first other member : NodeId}

/-- A block comes next after another one. -/
def Follows (workspace : Workspace) (node before : NodeId) : Prop :=
  workspace.parent? node = some ⟨before, .next⟩

/-- From a member of a chain one gets to its first block by going to the block before. -/
theorem Forest.follows_of_inChainFrom (hForest : workspace.Forest)
    (h : workspace.view.InChainFrom first member) :
    ReflTransGen workspace.Follows member first := by
  induction h with
  | refl => exact .refl
  | tail _ hNext ih => exact .head (hForest.parent?_of_next? hNext) ih

theorem Forest.reaches_first_of_mem_chain (hForest : workspace.Forest) {limit : Nat}
    (h : member ∈ workspace.view.chain limit (some first)) :
    ReflTransGen workspace.Follows member first :=
  hForest.follows_of_inChainFrom (View.inChainFrom_of_mem_chain h)

/-- A member of a chain that starts in an input of a block is in a chain of that block. -/
theorem Forest.inChainOf_of_mem_chain (hForest : workspace.Forest) {input : String} {limit : Nat}
    (hFirst : workspace.parent? first = some ⟨holder, .statement input⟩)
    (h : member ∈ workspace.view.chain limit (some first)) : workspace.InChainOf holder member := by
  have hReaches := hForest.reaches_first_of_mem_chain h
  clear h
  induction hReaches using ReflTransGen.head_induction_on with
  | refl => exact hForest.inChainOf_first hFirst
  | head hStep _ ih => exact hForest.inChainOf_next ih hStep

/-- No block is a member of two chains. -/
theorem Forest.first_unique (hForest : workspace.Forest) {limit : Nat}
    (hFirst : workspace.previous? first = none) (hOther : workspace.previous? other = none)
    (h : member ∈ workspace.view.chain limit (some first))
    (h' : member ∈ workspace.view.chain limit (some other)) : first = other := by
  have hBefore : Relator.RightUnique workspace.Follows := by
    intro node before before' hLink hLink'
    cases hLink.symm.trans hLink'
    rfl
  have hStops {start last : NodeId} (hStart : workspace.previous? start = none)
      (hReaches : ReflTransGen workspace.Follows start last) : start = last := by
    rcases hReaches.cases_head with hEq | ⟨before, hLink, -⟩
    · exact hEq
    · rw [previous?, show workspace.parent? start = _ from hLink] at hStart
      cases hStart
  rcases ReflTransGen.total_of_right_unique hBefore (hForest.reaches_first_of_mem_chain h)
    (hForest.reaches_first_of_mem_chain h') with hReaches | hReaches
  · exact hStops hFirst hReaches
  · exact (hStops hOther hReaches).symm

/-- The chain of statements of a block and the chain in another input share no member. -/
theorem Forest.ne_of_mem_chains (hForest : workspace.Forest) {input otherInput : String}
    {otherMember : NodeId} {limit : Nat} (hInput : otherInput ≠ input)
    (hFirst : workspace.parent? first = some ⟨holder, .statement input⟩)
    (h : member ∈ workspace.view.chain limit (some first))
    (hOther : otherMember ∈
      workspace.view.chain limit (workspace.view.input? holder otherInput)) :
    otherMember ≠ member := by
  rintro rfl
  cases hStart : workspace.view.input? holder otherInput with
  | none =>
    rw [hStart, View.chain_none] at hOther
    cases hOther
  | some other =>
    rw [hStart] at hOther
    have hLink := hForest.parent?_of_input? hStart
    have hFree : workspace.previous? other = none := by
      rcases hLink with hLink | hLink <;> simp [previous?, hLink]
    obtain rfl := hForest.first_unique (by simp [previous?, hFirst]) hFree h hOther
    rw [hFirst] at hLink
    rcases hLink with hLink | hLink
    · cases hLink
    · cases hLink
      exact hInput rfl

end Workspace

namespace Scope

open Workspace

variable {scope : Scope} {workspace : Workspace} {holder member choice : NodeId}
variable {category : Category} {binding : Binding}

/-- A selection binds its name just if its choice type is the tag of the category, as it is. -/
theorem selectionBinding?_eq_some_iff :
    scope.selectionBinding? category choice = some binding ↔
      scope.view.kind? scope.vocabulary choice = some .choiceSelection ∧
        ∃ name tag categories, scope.view.filledField? choice Field.selectedAs = some name ∧
          scope.view.field? choice Field.choiceType = some tag ∧
          SelectionCategories.ofTag? tag = some categories ∧ categories.bound = category ∧
          binding = ⟨name, category, some choice⟩ := by
  unfold selectionBinding?
  by_cases hKind : scope.view.kind? scope.vocabulary choice = some .choiceSelection
  · simp only [Option.bind_eq_bind, Option.bind_eq_some_iff,
      Option.ite_none_right_eq_some, Option.some.injEq, hKind, true_and]
    constructor
    · rintro ⟨name, hName, tag, hTag, categories, hCategories, hBound, rfl⟩
      exact ⟨name, tag, categories, hName, hTag, hCategories, hBound, rfl⟩
    · rintro ⟨name, tag, categories, hName, hTag, hCategories, hBound, rfl⟩
      exact ⟨name, hName, tag, hTag, categories, hCategories, hBound, rfl⟩
  · simp [hKind]

/-- A selection binds its name to itself. -/
theorem binder?_of_selection (h : scope.selectionBinding? category choice = some binding) :
    binding.binder? = some choice := by
  obtain ⟨-, _, _, _, -, -, -, -, rfl⟩ := selectionBinding?_eq_some_iff.mp h
  rfl

theorem exists_kind_of_case {view : View} {vocabulary : Vocabulary}
    (h : view.kind? vocabulary holder = some .offerCase ∨
      view.kind? vocabulary holder = some .openOfferCase) :
    ∃ kind, view.kind? vocabulary holder = some kind ∧ kind.role = .offerCase :=
  h.elim (⟨_, ·, rfl⟩) (⟨_, ·, rfl⟩)

/-- What a case binds is what its choices bind, other than the one from which it is looked at. -/
theorem mem_bindings_iff {kind : BlockKind} {member? : Option NodeId}
    (hKind : scope.view.kind? scope.vocabulary holder = some kind)
    (hCase : kind.role = .offerCase) :
    binding ∈ scope.bindings category holder member? ↔
      ∃ choice ∈ scope.view.chain scope.view.size (scope.view.input? holder Input.offers),
        member? ≠ some choice ∧ scope.selectionBinding? category choice = some binding := by
  rw [bindings_of_case hKind hCase, List.mem_filterMap]
  simp only [List.mem_filter, decide_eq_true_eq, and_assoc]

/-- What a block binds is the player of an offer, or what a choice of a case binds. -/
theorem eq_or_selection_of_mem_bindings {member? : Option NodeId}
    (h : binding ∈ scope.bindings category holder member?) :
    (scope.view.kind? scope.vocabulary holder = some .offer ∧ binding.binder? = some holder) ∨
      ∃ choice ∈ scope.view.chain scope.view.size (scope.view.input? holder Input.offers),
        member? ≠ some choice ∧ scope.selectionBinding? category choice = some binding := by
  cases hKind : scope.view.kind? scope.vocabulary holder with
  | none =>
    unfold bindings at h
    rw [hKind] at h
    cases h
  | some kind =>
    by_cases hCase : kind.role = .offerCase
    · exact Or.inr ((mem_bindings_iff hKind hCase).mp h)
    · by_cases hOffer : kind = .offer
      · subst hOffer
        rw [bindings_of_offer hKind] at h
        split at h
        · obtain ⟨name, -, rfl⟩ := Option.map_eq_some_iff.mp (Option.mem_toList.mp h)
          exact Or.inl ⟨rfl, rfl⟩
        · cases h
      · rw [bindings_eq_nil hKind ⟨hOffer, hCase⟩] at h
        cases h

/-- The names known everywhere are those of numbers that are set, and of no other blocks. -/
theorem setNumber_of_mem_globals {view : View} {vocabulary : Vocabulary}
    {registered : List (Category × String)}
    (h : binding ∈ (Scope.ofView view vocabulary registered).globals)
    (hBinder : binding.binder? = some choice) : view.kind? vocabulary choice = some .setNumber := by
  rcases List.mem_append.mp h with h | h
  · obtain ⟨node, -, hBinding⟩ := List.mem_filterMap.mp h
    obtain ⟨hKind, hBinding⟩ := Option.ite_none_right_eq_some.mp hBinding
    obtain ⟨name, -, rfl⟩ := Option.map_eq_some_iff.mp hBinding
    cases hBinder
    exact hKind
  · obtain ⟨⟨category, name⟩, -, rfl⟩ := List.mem_map.mp h
    cases hBinder

/-- **A selection gives a block no name but the one that it binds.** -/
theorem selectionBinding?_of_mem_names {view : View} {vocabulary : Vocabulary}
    {registered : List (Category × String)} {bindings : List Binding}
    (hNames : (Scope.ofView view vocabulary registered).names member category = .ok bindings)
    (hBinding : binding ∈ bindings) (hBinder : binding.binder? = some choice)
    (hKind : view.kind? vocabulary choice = some .choiceSelection) :
    (Scope.ofView view vocabulary registered).selectionBinding? category choice = some binding := by
  unfold names at hNames
  dsimp only at hNames
  split at hNames
  · cases hNames
  · cases hNames
    rcases List.mem_append.mp ((sublist_firstOfEachName _ _).subset hBinding) with hInner | hOuter
    · obtain ⟨step, -, hStep⟩ := List.mem_flatMap.mp hInner
      rcases eq_or_selection_of_mem_bindings hStep with
        ⟨hOffer, hOther⟩ | ⟨other, -, -, hSelection⟩
      · cases hBinder.symm.trans hOther
        cases hKind.symm.trans hOffer
      · cases hBinder.symm.trans (binder?_of_selection hSelection)
        exact hSelection
    · cases hKind.symm.trans (setNumber_of_mem_globals (List.mem_filter.mp hOuter).1 hBinder)

/-- The names at a member of a chain contain those that the holder of the chain binds for it. -/
theorem exists_names_of_inChainOf (hForest : workspace.Forest) (hView : scope.view = workspace.view)
    (hMember : workspace.InChainOf holder member) :
    ∃ bindings, scope.names member category = .ok bindings ∧
      ∀ binding ∈ scope.bindings category holder (some member),
        binding.name ∈ bindings.map Binding.name := by
  obtain ⟨around, hAround⟩ :=
    exists_enclosures hForest hView (hForest.depth_enclosing_lt hMember.1).2
  have hStep := enclosures_of_enclosing hForest hView hMember.lt_size hMember.1
  rw [hAround, Option.map_some] at hStep
  refine ⟨_, names_of_enclosures hView hStep category, fun binding hBinding => ?_⟩
  refine mem_names_firstOfEachName.mpr ⟨List.not_mem_nil, List.mem_map.mpr ⟨binding, ?_, rfl⟩⟩
  rw [List.flatMap_cons, chainMember?_of_inChainOf hView hMember]
  exact List.mem_append_left _ (List.mem_append_left _ hBinding)

end Scope

namespace Workspace

/-- **A selection is bound if its choice type has no blanks around it.** After any run of commands,
let a choice of a case be read as a selection, and let a block stand in the chain of statements of
that case. If the choice type is the tag of a category as it is, the block can refer to the name of
the selection; if there are blanks around the tag, nothing that the block can refer to is bound by
the selection. -/
theorem run_selection_bound (commands : List Command) (vocabulary : Vocabulary)
    (options : ReadOptions) (offerCase choice first node : NodeId) (path : List PathSegment)
    {name : String} {choiceType : ChoiceType} :
    let workspace := run commands
    let reader := Reader.ofView workspace.view vocabulary options
    let scope := Scope.ofView workspace.view vocabulary options.globals
    reader.view.kind? vocabulary offerCase = some .offerCase ∨
      reader.view.kind? vocabulary offerCase = some .openOfferCase →
    choice ∈ reader.chain (reader.view.input? offerCase Input.offers) →
    (reader.member path .offerChoice reader.offerChoice choice).value =
      some (.selection name choiceType) →
    workspace.parent? first = some ⟨offerCase, .statement Input.actions⟩ →
    node ∈ reader.chain (some first) →
    ∃ tag bindings, reader.view.field? choice Field.choiceType = some tag ∧
      scope.names node choiceType.boundCategory = .ok bindings ∧
      (Text.trim tag = tag → ∃ binding ∈ bindings, binding.name = name) ∧
      (Text.trim tag ≠ tag → ∀ binding ∈ bindings, binding.binder? ≠ some choice) := by
  intro workspace reader scope hCase hChoice hRead hFirst hNode
  have hForest : workspace.Forest := Forest.run commands
  have hView : scope.view = workspace.view := rfl
  obtain ⟨hKind, hName, tag, categories, hTag, hCategories, hBound⟩ :=
    Reader.selection_of_value_member hRead
  have hMember : workspace.InChainOf offerCase node := hForest.inChainOf_of_mem_chain hFirst hNode
  obtain ⟨bindings, hNames, hBindings⟩ := Scope.exists_names_of_inChainOf hForest hView hMember
  refine ⟨tag, bindings, hTag, hNames, fun hTrim => ?_, fun hBlank binding hBinding hBinder => ?_⟩
  · rw [hTrim] at hCategories
    have hSelection : scope.selectionBinding? choiceType.boundCategory choice = some _ :=
      Scope.selectionBinding?_eq_some_iff.mpr
        ⟨hKind, name, tag, categories, hName, hTag, hCategories, hBound.symm, rfl⟩
    have hNe : choice ≠ node := hForest.ne_of_mem_chains (by decide) hFirst hNode hChoice
    have hOther : some node ≠ some choice := fun hEq => hNe (Option.some.inj hEq).symm
    obtain ⟨kind, hKind, hRole⟩ := Scope.exists_kind_of_case hCase
    have hBinding : _ ∈ scope.bindings choiceType.boundCategory offerCase (some node) :=
      (Scope.mem_bindings_iff hKind hRole).mpr ⟨choice, hChoice, hOther, hSelection⟩
    exact List.mem_map.mp (hBindings _ hBinding)
  · have hSelection := Scope.selectionBinding?_of_mem_names hNames hBinding hBinder hKind
    obtain ⟨-, -, tag', _, -, hTag', hCategories', -⟩ :=
      Scope.selectionBinding?_eq_some_iff.mp hSelection
    cases hTag.symm.trans hTag'
    exact hBlank (SelectionCategories.trim_of_ofTag? hCategories')

/-- A case with one selection, of all players, and one statement. The choice type of the selection
is the given text. -/
def caseWithSelection (choiceType : String) : List Command :=
  [.edit (.create BlockKind.openOfferCase.tag), .edit (.create BlockKind.choiceSelection.tag),
    .edit (.setField 1 Field.selectedAs "target"), .edit (.setField 1 Field.choiceType choiceType),
    .edit (.create BlockKind.allPlayers.tag), .edit (.attach ⟨1, .value Input.source⟩ 2),
    .edit (.create BlockKind.enterPhase.tag), .edit (.attach ⟨0, .statement Input.offers⟩ 1),
    .edit (.attach ⟨0, .statement Input.actions⟩ 3)]

theorem caseWithSelection_bound :
    let workspace := run (caseWithSelection "socs_t_player")
    let scope := Scope.ofView workspace.view .canonical []
    ∃ bindings, scope.names 3 .player = .ok bindings ∧
      ∃ binding ∈ bindings, binding.name = "target" := by
  intro workspace scope
  let reader := Reader.ofView workspace.view .canonical .unchecked
  have hRead : (reader.member [] .offerChoice reader.offerChoice 1).value =
      some (.selection "target" (.player .allPlayers)) := by rfl
  have hField : reader.view.field? 1 Field.choiceType = some "socs_t_player" := by decide
  obtain ⟨tag, bindings, hTag, hNames, hBound, -⟩ :=
    run_selection_bound (caseWithSelection "socs_t_player") .canonical .unchecked 0 1 3 3 []
      (Or.inr (by decide)) (by decide) hRead (by decide) (by decide)
  cases hField.symm.trans hTag
  exact ⟨bindings, hNames, hBound (by decide)⟩

/-- Blanks around the choice type: the selection is read, and its name is not known in the case. -/
theorem caseWithBlankSelection_unbound :
    let workspace := run (caseWithSelection " socs_t_player")
    let reader := Reader.ofView workspace.view .canonical .unchecked
    let scope := Scope.ofView workspace.view .canonical []
    1 ∈ reader.chain (reader.view.input? 0 Input.offers) ∧
      3 ∈ reader.chain (reader.view.input? 0 Input.actions) ∧
      (reader.member [] .offerChoice reader.offerChoice 1).value =
        some (.selection "target" (.player .allPlayers)) ∧
      scope.names 3 .player = .ok [] := by
  refine ⟨by decide, by decide, by rfl, by rfl⟩

end Workspace

end RuleBlocks
