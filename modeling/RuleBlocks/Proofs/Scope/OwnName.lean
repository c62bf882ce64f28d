import RuleBlocks.Proofs.Scope.Innermost

/-!
# A choice and its own name

The name of a choice is meant for the rest of its case, not for the choice. The resolver leaves out
the choice that it comes from, but it takes the first block for it that comes next after another
one. So a choice hides its name from its values and from all that stands in chains below these, but
not from what comes next after one of its values (`run_own_name`).
-/

namespace RuleBlocks

open Relation

namespace Scope

open Workspace

variable {scope : Scope} {workspace : Workspace} {node holder choice : NodeId}
variable {category : Category} {binding : Binding}

/-- The only binding of its name among the first ones is kept. -/
theorem mem_firstOfEachName {bindings : List Binding} (hBinding : binding ∈ bindings)
    (hOnly : ∀ other ∈ bindings, other.name = binding.name → other = binding)
    (more : List Binding) :
    binding ∈ firstOfEachName [] (bindings ++ more) := by
  have hFound : bindings.find? (fun other => other.name = binding.name) = some binding := by
    cases hFirst : bindings.find? fun other => other.name = binding.name with
    | none => simpa using List.find?_eq_none.mp hFirst binding hBinding
    | some first =>
      have hName : first.name = binding.name := by simpa using List.find?_some hFirst
      rw [hOnly first (List.mem_of_find?_eq_some hFirst) hName]
  have hKept : (firstOfEachName [] (bindings ++ more)).find?
      (fun other => other.name = binding.name) = some binding := by
    rw [find?_firstOfEachName List.not_mem_nil, List.find?_append, hFound, Option.some_or]
  exact List.mem_of_find?_eq_some hKept

/-- What a block binds for a choice is what that choice binds in the choices of the block. -/
theorem selection_of_mem_boundIn (hBinding : binding ∈ scope.boundIn category holder)
    (hBinder : binding.binder? = some choice)
    (hRole : (scope.view.kind? scope.vocabulary choice).map BlockKind.role = some .offerChoice) :
    choice ∈ scope.view.chain scope.view.size (scope.view.input? holder Input.offers) ∧
      scope.selectionBinding? category choice = some binding := by
  rw [boundIn_eq] at hBinding
  rcases eq_or_selection_of_mem_bindings hBinding with
    ⟨hOffer, hHolder⟩ | ⟨other, hOther, -, hSelection⟩
  · cases hBinder.symm.trans hHolder
    rw [hOffer] at hRole
    cases hRole
  · cases hBinder.symm.trans (binder?_of_selection hSelection)
    exact ⟨hOther, hSelection⟩

/-- A binding of a choice comes from a block around that binds it, and it is not hidden. -/
theorem exists_holder_of_mem_names (hForest : workspace.Forest) {vocabulary : Vocabulary}
    {registered : List (Category × String)} {bindings : List Binding}
    (hNames : (ofView workspace.view vocabulary registered).names node category = .ok bindings)
    (hBinding : binding ∈ bindings) (hBinder : binding.binder? = some choice)
    (hRole : (workspace.view.kind? vocabulary choice).map BlockKind.role = some .offerChoice) :
    ∃ holder ∈ workspace.holders node,
      binding ∈ (ofView workspace.view vocabulary registered).boundIn category holder ∧
        ¬ (ofView workspace.view vocabulary registered).Hidden workspace node binding := by
  have hView : (ofView workspace.view vocabulary registered).view = workspace.view := rfl
  cases hNames.symm.trans (names_of_forest hForest hView node category)
  rcases List.mem_append.mp ((sublist_firstOfEachName _ _).subset hBinding) with hInner | hOuter
  · simp only [List.mem_filter, List.mem_flatMap, decide_eq_true_eq] at hInner
    obtain ⟨⟨holder, hHolder, hBound⟩, hNotHidden⟩ := hInner
    exact ⟨holder, hHolder, hBound, hNotHidden⟩
  · rw [setNumber_of_mem_globals (List.mem_filter.mp hOuter).1 hBinder] at hRole
    cases hRole

/-- What a block around binds is among the names unless it is hidden, or another block around binds
the name, too. -/
theorem mem_names_of_shown (hForest : workspace.Forest) (hView : scope.view = workspace.view)
    {bindings : List Binding} (hNames : scope.names node category = .ok bindings)
    (hHolder : holder ∈ workspace.holders node) (hBinding : binding ∈ scope.boundIn category holder)
    (hShown : ¬ scope.Hidden workspace node binding)
    (hOnly : ∀ other ∈ (workspace.holders node).flatMap (scope.boundIn category),
      other.name = binding.name → other = binding) : binding ∈ bindings := by
  cases hNames.symm.trans (names_of_forest hForest hView node category)
  refine mem_firstOfEachName ?_ (fun other hOther => hOnly other (List.mem_filter.mp hOther).1) _
  simp only [List.mem_filter, decide_eq_true_eq]
  exact ⟨List.mem_flatMap.mpr ⟨holder, hHolder, hBinding⟩, hShown⟩

end Scope

namespace Workspace

/-- **From where a choice is seen below its own inputs.** After any run of commands, take a choice
of a case and a block below one of the inputs of the choice. In every category, the names at the
block contain a binding of the choice only if the choice does not hide its name from the block and
is held by the case in a chain. Then they do contain it, unless another block around binds the name,
too. -/
theorem run_own_name (commands : List Command) (vocabulary : Vocabulary)
    (registered : List (Category × String)) (offerCase choice node : NodeId) (category : Category) :
    let workspace := run commands
    let scope := Scope.ofView workspace.view vocabulary registered
    scope.view.kind? vocabulary offerCase = some .offerCase ∨
      scope.view.kind? vocabulary offerCase = some .openOfferCase →
    choice ∈ scope.view.chain scope.view.size (scope.view.input? offerCase Input.offers) →
    (scope.view.kind? vocabulary choice).map BlockKind.role = some .offerChoice →
    workspace.InInputOf choice node →
    ∃ bindings, scope.names node category = .ok bindings ∧
      (∀ binding ∈ bindings, binding.binder? = some choice →
        ¬ workspace.HidesFrom choice node ∧ workspace.enclosing? choice = some offerCase ∧
          scope.selectionBinding? category choice = some binding) ∧
      (¬ workspace.HidesFrom choice node → workspace.enclosing? choice = some offerCase →
        ∀ binding, scope.selectionBinding? category choice = some binding →
          (∀ other ∈ (workspace.holders node).flatMap (scope.boundIn category),
            other.name = binding.name → other = binding) →
          binding ∈ bindings) := by
  intro workspace scope hCase hChoice hRole hInside
  have hForest : workspace.Forest := Forest.run commands
  have hView : scope.view = workspace.view := rfl
  have hNames := Scope.names_of_forest hForest hView node category
  refine ⟨_, hNames, fun binding hBinding hBinder => ?_,
    fun hShown hHeld binding hSelection hOnly => ?_⟩
  · obtain ⟨holder, hHolder, hBound, hNotHidden⟩ :=
      Scope.exists_holder_of_mem_names hForest hNames hBinding hBinder hRole
    obtain ⟨hMember, hSelection⟩ := Scope.selection_of_mem_boundIn hBound hBinder hRole
    obtain ⟨rfl, -⟩ := hForest.inputChain_injective hMember hChoice
    have hKind := (Scope.selectionBinding?_eq_some_iff.mp hSelection).1
    refine ⟨fun hHides => ?_, ?_, hSelection⟩
    · exact hNotHidden ⟨choice, hBinder, hKind, hHides⟩
    · exact (hForest.inChainOf_of_above hInside.above hHolder hMember).1
  · obtain ⟨kind, hKind, hOfferCase⟩ := Scope.exists_kind_of_case hCase
    have hBinder := Scope.binder?_of_selection hSelection
    have hBound : binding ∈ scope.boundIn category offerCase := by
      rw [Scope.boundIn_of_case hKind hOfferCase]
      exact List.mem_filterMap.mpr ⟨choice, hChoice, hSelection⟩
    refine Scope.mem_names_of_shown hForest hView hNames
      (hForest.mem_holders_of_above hInside.above hHeld) hBound ?_ hOnly
    rintro ⟨hidden, hHidden, -, hHides⟩
    cases hBinder.symm.trans hHidden
    exact hShown hHides

/-- A value of a selection sees no name of the selection. -/
theorem caseWithSelection_ownName :
    let workspace := run (caseWithSelection Category.player.tag)
    let scope := Scope.ofView workspace.view .canonical []
    scope.view.kind? .canonical 0 = some .openOfferCase ∧
      1 ∈ scope.view.chain scope.view.size (scope.view.input? 0 Input.offers) ∧
      (scope.view.kind? .canonical 1).map BlockKind.role = some .offerChoice ∧
      workspace.InInputOf 1 2 ∧ workspace.HidesFrom 1 2 ∧
      ∃ bindings, scope.names 2 .player = .ok bindings ∧
        ∀ binding ∈ bindings, binding.binder? ≠ some 1 := by
  intro workspace scope
  have hCase : scope.view.kind? .canonical 0 = some .openOfferCase := by decide
  have hChoice : 1 ∈ scope.view.chain scope.view.size (scope.view.input? 0 Input.offers) := by
    decide
  have hRole : (scope.view.kind? .canonical 1).map BlockKind.role = some .offerChoice := by decide
  have hInside : workspace.InInputOf 1 2 := by decide
  have hSource : workspace.parent? 2 = some ⟨1, .value Input.source⟩ := by decide
  have hHides : workspace.HidesFrom 1 2 := ⟨2, .refl, .single ⟨Input.source, hSource⟩⟩
  obtain ⟨bindings, hNames, hOwn, -⟩ := run_own_name (caseWithSelection Category.player.tag)
    .canonical [] 0 1 2 .player (Or.inr hCase) hChoice hRole hInside
  exact ⟨hCase, hChoice, hRole, hInside, hHides, bindings, hNames,
    fun binding hBinding hBinder => (hOwn binding hBinding hBinder).1 hHides⟩

/-- A case with a selection of a card. Its source is a variable, and after this block comes another
one that reads a variable. -/
def cardFromVariables : List Command :=
  [.edit (.create BlockKind.openOfferCase.tag), .edit (.create BlockKind.choiceSelection.tag),
    .edit (.setField 1 Field.selectedAs "c"),
    .edit (.setField 1 Field.choiceType Category.card.tag),
    .edit (.create BlockKind.getTyped.tag), .edit (.create BlockKind.getTyped.tag),
    .edit (.attach ⟨0, .statement Input.offers⟩ 1), .edit (.attach ⟨1, .value Input.source⟩ 2),
    .edit (.attach ⟨2, .next⟩ 3)]

/-- What comes next after the source of a selection sees the name of the selection. -/
theorem cardFromVariables_ownName :
    let workspace := run cardFromVariables
    let scope := Scope.ofView workspace.view .canonical []
    scope.view.kind? .canonical 0 = some .openOfferCase ∧
      1 ∈ scope.view.chain scope.view.size (scope.view.input? 0 Input.offers) ∧
      scope.view.kind? .canonical 1 = some .choiceSelection ∧ workspace.InInputOf 1 3 ∧
      scope.names 3 .card = .ok [⟨"c", .card, some 1⟩] := by
  decide

end Workspace

end RuleBlocks
