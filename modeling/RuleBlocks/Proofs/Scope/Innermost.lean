import RuleBlocks.Proofs.Scope.Around
import Mathlib.Data.List.Find

/-!
# The innermost binding counts

What a block can refer to, without the walk of the resolver. Each block around it binds some names
(`boundIn`), some bindings are known everywhere (`knownEverywhere`), and a choice may hide its name
from the block (`Hidden`). What is left are the names at the block, the innermost first, and of
several bindings of a name the first one (`names_of_forest`). So a name that no choice hides refers
to what binds it in the innermost block around (`run_resolve_innermost`).
-/

namespace RuleBlocks

open Relation

/-- Whether values of a category can be selected. -/
def Category.isSelectable : Category → Bool
  | player | playerCollection | card | cardCollection => true
  | number | boolean | zone | zoneCollection | rank | suit => false

/-- The tags of the categories that can be selected are just the types of selections. -/
theorem SelectionCategories.exists_bound_iff {tag : String} {category : Category} :
    (∃ categories, ofTag? tag = some categories ∧ categories.bound = category) ↔
      category.isSelectable = true ∧ tag = category.tag := by
  constructor
  · rintro ⟨categories, hCategories, rfl⟩
    refine ⟨?_, (tag_bound_of_ofTag? hCategories).symm⟩
    unfold ofTag? at hCategories
    split at hCategories
    case h_5 => cases hCategories
    all_goals
      cases hCategories
      rfl
  · rintro ⟨hSelectable, rfl⟩
    unfold ofTag?
    rw [Category.ofTag?_tag]
    cases category <;> first | exact ⟨_, rfl, rfl⟩ | cases hSelectable

namespace Scope

open Workspace

variable {scope : Scope} {workspace : Workspace} {node holder choice : NodeId}
variable {category : Category} {binding : Binding} {member? : Option NodeId}

/-! ## What is bound where -/

/-- The binding of a selection whose type is the tag of a category. -/
def selected? (scope : Scope) (category : Category) (choice : NodeId) : Option Binding :=
  if scope.view.kind? scope.vocabulary choice = some .choiceSelection ∧
      scope.view.field? choice Field.choiceType = some category.tag then
    (scope.view.filledField? choice Field.selectedAs).map fun name => ⟨name, category, some choice⟩
  else none

/-- The bindings that a block gives to what it holds, whoever looks: the player of an offer, or the
selections of a case in the order of its choices. -/
def boundIn (scope : Scope) (category : Category) (holder : NodeId) : List Binding :=
  match scope.view.kind? scope.vocabulary holder with
  | some .offer => if category = .player then scope.playerBindings holder else []
  | some .offerCase | some .openOfferCase =>
    if category.isSelectable then
      (scope.view.chain scope.view.size (scope.view.input? holder Input.offers)).filterMap
        (scope.selected? category)
    else []
  | _ => []

/-- The bindings that are known everywhere: the numbers that are set, in the order in which their
blocks were made, and the registered globals. -/
def knownEverywhere (view : View) (vocabulary : Vocabulary)
    (registered : List (Category × String)) (category : Category) : List Binding :=
  (if category = .number then view.nodes.filterMap (numberBinding? view vocabulary) else []) ++
    (registered.filter fun known => known.1 = category).map fun (category, name) =>
      ⟨name, category, none⟩

/-- The binding of a choice that hides its name from a block. -/
def Hidden (scope : Scope) (workspace : Workspace) (node : NodeId) (binding : Binding) : Prop :=
  ∃ choice, binding.binder? = some choice ∧
    scope.view.kind? scope.vocabulary choice = some .choiceSelection ∧
    workspace.HidesFrom choice node

theorem selectionBinding?_eq_ite (scope : Scope) (category : Category) (choice : NodeId) :
    scope.selectionBinding? category choice =
      if category.isSelectable then scope.selected? category choice else none := by
  refine Option.ext fun binding => ?_
  rw [selectionBinding?_eq_some_iff, selected?]
  constructor
  · rintro ⟨hKind, name, tag, categories, hName, hTag, hCategories, hBound, rfl⟩
    obtain ⟨hSelectable, rfl⟩ :=
      SelectionCategories.exists_bound_iff.mp ⟨categories, hCategories, hBound⟩
    rw [if_pos hSelectable, if_pos ⟨hKind, hTag⟩, hName]
    rfl
  · intro hBinding
    obtain ⟨hSelectable, hSelected⟩ := Option.ite_none_right_eq_some.mp hBinding
    obtain ⟨⟨hKind, hTag⟩, hNamed⟩ := Option.ite_none_right_eq_some.mp hSelected
    obtain ⟨name, hName, rfl⟩ := Option.map_eq_some_iff.mp hNamed
    obtain ⟨categories, hCategories, hBound⟩ :=
      SelectionCategories.exists_bound_iff.mpr ⟨hSelectable, rfl⟩
    exact ⟨hKind, name, category.tag, categories, hName, hTag, hCategories, hBound, rfl⟩

theorem boundIn_of_case {kind : BlockKind}
    (hKind : scope.view.kind? scope.vocabulary holder = some kind)
    (hCase : kind.role = .offerCase) :
    scope.boundIn category holder =
      (scope.view.chain scope.view.size (scope.view.input? holder Input.offers)).filterMap
        (scope.selectionBinding? category) := by
  have hSelections : scope.selectionBinding? category = fun choice =>
      if category.isSelectable then scope.selected? category choice else none :=
    funext (scope.selectionBinding?_eq_ite category)
  have hBound : scope.boundIn category holder = if category.isSelectable then
      (scope.view.chain scope.view.size (scope.view.input? holder Input.offers)).filterMap
        (scope.selected? category) else [] := by
    unfold boundIn
    rw [hKind]
    cases kind <;> first | rfl | cases hCase
  rw [hBound, hSelections]
  cases category.isSelectable
  · exact (List.filterMap_eq_nil_iff.mpr fun _ _ => rfl).symm
  · rfl

theorem boundIn_eq (scope : Scope) (category : Category) (holder : NodeId) :
    scope.boundIn category holder = scope.bindings category holder none := by
  cases hKind : scope.view.kind? scope.vocabulary holder with
  | none => simp [bindings, boundIn, hKind]
  | some kind =>
    by_cases hCase : kind.role = .offerCase
    · rw [boundIn_of_case hKind hCase, bindings_of_case hKind hCase]
      simp
    · unfold boundIn bindings
      rw [hKind]
      cases kind <;> first | rfl | exact absurd rfl hCase

/-- What a block binds for a member of one of its chains is all that it binds, without the binding
of that member. -/
theorem bindings_eq_filter (hMember : member? ≠ some holder) :
    scope.bindings category holder member? =
      (scope.boundIn category holder).filter fun binding => binding.binder? ≠ member? := by
  cases hKind : scope.view.kind? scope.vocabulary holder with
  | none => simp [bindings, boundIn, hKind]
  | some kind =>
    by_cases hCase : kind.role = .offerCase
    · rw [bindings_of_case hKind hCase, boundIn_of_case hKind hCase, List.filterMap_filter,
        List.filter_filterMap]
      refine List.filterMap_congr fun choice _ => ?_
      cases hSelection : scope.selectionBinding? category choice with
      | none => simp
      | some binding =>
        have hBinder := binder?_of_selection hSelection
        by_cases hEq : member? = some choice <;> simp [Option.filter_some, hBinder, hEq, eq_comm]
    · by_cases hOffer : kind = .offer
      · subst hOffer
        rw [boundIn_eq, bindings_of_offer hKind, bindings_of_offer hKind]
        split
        · refine (List.filter_eq_self.mpr fun binding hBinding => decide_eq_true ?_).symm
          obtain ⟨name, -, rfl⟩ := Option.map_eq_some_iff.mp (Option.mem_toList.mp hBinding)
          exact Ne.symm hMember
        · rfl
      · have hNot : kind ≠ .offer ∧ kind.role ≠ .offerCase := ⟨hOffer, hCase⟩
        rw [boundIn_eq, bindings_eq_nil hKind hNot, bindings_eq_nil hKind hNot]
        rfl

theorem filter_globals (view : View) (vocabulary : Vocabulary)
    (registered : List (Category × String)) (category : Category) :
    ((ofView view vocabulary registered).globals.filter fun binding =>
        binding.category = category) = knownEverywhere view vocabulary registered category := by
  have hNumber : ∀ binding ∈ view.nodes.filterMap (numberBinding? view vocabulary),
      binding.category = .number := by
    intro binding hBinding
    obtain ⟨node, -, hSet⟩ := List.mem_filterMap.mp hBinding
    obtain ⟨name, -, rfl⟩ := Option.map_eq_some_iff.mp (Option.ite_none_right_eq_some.mp hSet).2
    rfl
  rw [ofView, List.filter_append, knownEverywhere, List.filter_map]
  refine congrArg₂ (· ++ ·) ?_ rfl
  by_cases hCategory : category = .number
  · rw [if_pos hCategory, hCategory]
    exact List.filter_eq_self.mpr fun binding hBinding => decide_eq_true (hNumber binding hBinding)
  · rw [if_neg hCategory]
    refine List.filter_eq_nil_iff.mpr fun binding hBinding => ?_
    rw [hNumber binding hBinding, decide_eq_true_eq]
    exact Ne.symm hCategory

/-! ## What a block can refer to -/

section

variable (hForest : workspace.Forest) (hView : scope.view = workspace.view)

include hForest hView

/-- Around a block the resolver leaves out just the bindings that are hidden from the block. -/
theorem ne_chainMember?_iff_not_hidden {inside : NodeId}
    (hNode : ReflTransGen workspace.EnclosedBy node inside)
    (hHolder : workspace.EnclosedBy inside holder)
    (hBinding : binding ∈ scope.boundIn category holder) :
    binding.binder? ≠ scope.chainMember? holder workspace.size inside ↔
      ¬ scope.Hidden workspace node binding := by
  rw [not_iff_not]
  rw [boundIn_eq] at hBinding
  rcases eq_or_selection_of_mem_bindings hBinding with
    ⟨hOffer, hBinder⟩ | ⟨choice, hChoice, -, hSelection⟩
  · -- the player of an offer is neither the member of a chain of the offer nor a choice
    refine iff_of_false (fun hMember => ?_) fun ⟨choice, hChoice, hKind, _⟩ => ?_
    · have hInChain := ((chainMember?_eq_some_iff hForest hView hHolder).mp
        (hMember.symm.trans hBinder)).2
      exact hForest.acyclic holder (EnclosedBy.above hInChain.1)
    · cases hBinder.symm.trans hChoice
      cases hOffer.symm.trans hKind
  · have hKind := (selectionBinding?_eq_some_iff.mp hSelection).1
    have hBinder := binder?_of_selection hSelection
    have hHidden : scope.Hidden workspace node binding ↔ workspace.HidesFrom choice node := by
      simp [Hidden, hBinder, hKind]
    rw [hHidden, hBinder, eq_comm, chainMember?_eq_some_iff hForest hView hHolder]
    constructor
    · rintro ⟨hValues, -⟩
      exact ⟨inside, hNode, hValues⟩
    · intro hHides
      rw [hView] at hChoice
      exact hForest.values_of_hidesFrom hHides hNode hHolder hChoice

open Classical in
/-- **The names at a block** are what the blocks around it bind, from the innermost outwards,
without what is hidden from the block, and then what is known everywhere; each name with its first
binding. -/
theorem names_of_forest (node : NodeId) (category : Category) :
    scope.names node category = .ok (firstOfEachName []
      (((workspace.holders node).flatMap (scope.boundIn category)).filter
          (fun binding => ¬ scope.Hidden workspace node binding) ++
        scope.globals.filter fun binding => binding.category = category)) := by
  obtain ⟨around, hAround, hHolders, hSteps⟩ := exists_around hForest hView node
  rw [names_of_enclosures hView hAround, ← hHolders, List.flatMap_map, List.filter_flatMap]
  congr 3
  refine List.flatMap_congr fun step hStep => ?_
  obtain ⟨hNode, hHolder⟩ := hSteps step hStep
  have hOther : scope.chainMember? step.2 workspace.size step.1 ≠ some step.2 := by
    intro hMember
    have hInChain := ((chainMember?_eq_some_iff hForest hView hHolder).mp hMember).2
    exact hForest.acyclic step.2 (EnclosedBy.above hInChain.1)
  rw [bindings_eq_filter hOther]
  refine List.filter_congr fun binding hBinding => ?_
  exact decide_eq_decide.mpr (ne_chainMember?_iff_not_hidden hForest hView hNode hHolder hBinding)

end

/-- A hidden binding is that of a choice of its name that hides it. -/
theorem exists_choice_of_hidden (hBinding : binding ∈ scope.boundIn category holder)
    (hHidden : scope.Hidden workspace node binding) :
    ∃ choice, scope.view.kind? scope.vocabulary choice = some .choiceSelection ∧
      scope.view.field? choice Field.selectedAs = some binding.name ∧
      workspace.HidesFrom choice node := by
  obtain ⟨choice, hBinder, hKind, hHides⟩ := hHidden
  rw [boundIn_eq] at hBinding
  rcases eq_or_selection_of_mem_bindings hBinding with ⟨hOffer, hHolder⟩ | ⟨other, -, -, hSelection⟩
  · cases hBinder.symm.trans hHolder
    cases hKind.symm.trans hOffer
  · obtain ⟨-, name, _, _, hName, -, -, -, rfl⟩ := selectionBinding?_eq_some_iff.mp hSelection
    cases hBinder
    exact ⟨choice, hKind, (Option.filter_eq_some_iff.mp hName).1, hHides⟩

end Scope

namespace Workspace

/-- **The innermost binding counts, and nothing leaks.** After any run of commands, let a name be
resolved in a category at a block. If no choice of that name is the block, or has the block below
its inputs, then the name refers to what it is bound to in the innermost block around that binds it:
the player of an offer, or the first selection of the name and category in a case. If no block
around binds it, the name refers to the first block that sets a number of that name, or else to a
registered global, if there is one. All names at the block are listed in that order, each once. -/
theorem run_resolve_innermost (commands : List Command) (vocabulary : Vocabulary)
    (registered : List (Category × String)) (node : NodeId) (category : Category) :
    let workspace := run commands
    let scope := Scope.ofView workspace.view vocabulary registered
    let around := workspace.holders node
    let everywhere := Scope.knownEverywhere workspace.view vocabulary registered category
    ∃ bindings, scope.names node category = .ok bindings ∧ (bindings.map Binding.name).Nodup ∧
      bindings.Sublist (around.flatMap (scope.boundIn category) ++ everywhere) ∧
      ∀ name,
        (∀ choice ∈ workspace.nodes, scope.view.kind? vocabulary choice = some .choiceSelection →
          scope.view.field? choice Field.selectedAs = some name →
            choice ≠ node ∧ ¬ workspace.InInputOf choice node) →
        scope.resolve node category name = .ok
          ((around.findSome? fun holder =>
              (scope.boundIn category holder).find? fun binding => binding.name = name).or
            (everywhere.find? fun binding => binding.name = name)) := by
  intro workspace scope around everywhere
  have hForest : workspace.Forest := Forest.run commands
  have hView : scope.view = workspace.view := rfl
  have hNames := Scope.names_of_forest hForest hView node category
  rw [Scope.filter_globals] at hNames
  refine ⟨_, hNames, Scope.nodup_names_firstOfEachName _ _, ?_, fun name hName => ?_⟩
  · exact (Scope.sublist_firstOfEachName _ _).trans (List.filter_sublist.append_right _)
  · have hShown : ∀ binding ∈ around.flatMap (scope.boundIn category), binding.name = name →
        ¬ scope.Hidden workspace node binding := by
      rintro binding hBinding rfl hHidden
      obtain ⟨holder, -, hBound⟩ := List.mem_flatMap.mp hBinding
      obtain ⟨choice, hKind, hField, hHides⟩ := Scope.exists_choice_of_hidden hBound hHidden
      obtain ⟨tag, hTag, -⟩ := Option.bind_eq_some_iff.mp hKind
      have hChoice := hForest.complete_view (Option.isSome_of_eq_some hTag)
      obtain ⟨hNe, hOutside⟩ := hName choice hChoice hKind hField
      exact (hForest.eq_or_inInputOf_of_hidesFrom hHides).elim hNe hOutside
    rw [Scope.resolve, hNames]
    refine congrArg Except.ok ?_
    dsimp only
    rw [Scope.find?_firstOfEachName List.not_mem_nil, List.find?_append, List.find?_filter,
      ← List.find?_flatMap]
    refine congrArg (Option.or · _) (List.find?_congr fun binding hBinding => ?_)
    by_cases hEq : binding.name = name
    · simp [hEq, hShown binding hBinding hEq]
    · simp [hEq]

/-- An offer whose player is called `target`. Its only case has a selection of the same name, and
one statement. -/
def offerOfTargets : List Command :=
  [.edit (.create BlockKind.offer.tag), .edit (.setField 0 Field.playerName "target"),
    .edit (.create BlockKind.openOfferCase.tag), .edit (.attach ⟨0, .statement Input.cases⟩ 1),
    .edit (.create BlockKind.choiceSelection.tag), .edit (.setField 2 Field.selectedAs "target"),
    .edit (.setField 2 Field.choiceType Category.player.tag),
    .edit (.attach ⟨1, .statement Input.offers⟩ 2), .edit (.create BlockKind.enterPhase.tag),
    .edit (.attach ⟨1, .statement Input.actions⟩ 3)]

/-- The statement of the case refers to the selection, not to the player of the offer. -/
theorem offerOfTargets_innermost :
    let workspace := run offerOfTargets
    let scope := Scope.ofView workspace.view .canonical [(.player, "target")]
    workspace.holders 3 = [1, 0] ∧
      (∀ choice ∈ workspace.nodes, scope.view.kind? .canonical choice = some .choiceSelection →
        scope.view.field? choice Field.selectedAs = some "target" →
          choice ≠ 3 ∧ ¬ workspace.InInputOf choice 3) ∧
      scope.resolve 3 .player "target" = .ok (some ⟨"target", .player, some 2⟩) := by
  intro workspace scope
  have hShown : ∀ choice ∈ workspace.nodes,
      scope.view.kind? .canonical choice = some .choiceSelection →
        scope.view.field? choice Field.selectedAs = some "target" →
          choice ≠ 3 ∧ ¬ workspace.InInputOf choice 3 := by decide
  obtain ⟨_, -, -, -, hResolve⟩ :=
    run_resolve_innermost offerOfTargets .canonical [(.player, "target")] 3 .player
  exact ⟨by decide, hShown, (hResolve "target" hShown).trans (by decide)⟩

/-- No zone can be selected: a selection whose type is the tag of zones binds nothing in its
case. -/
theorem caseWithZoneSelection_unbound :
    let workspace := run (caseWithSelection Category.zone.tag)
    let scope := Scope.ofView workspace.view .canonical []
    workspace.holders 3 = [0] ∧ scope.view.kind? .canonical 0 = some .openOfferCase ∧
      1 ∈ scope.view.chain scope.view.size (scope.view.input? 0 Input.offers) ∧
      scope.selected? .zone 1 = some ⟨"target", .zone, some 1⟩ ∧
      (∀ choice ∈ workspace.nodes, scope.view.kind? .canonical choice = some .choiceSelection →
        scope.view.field? choice Field.selectedAs = some "target" →
          choice ≠ 3 ∧ ¬ workspace.InInputOf choice 3) ∧
      scope.resolve 3 .zone "target" = .ok none := by
  decide

end Workspace

end RuleBlocks
