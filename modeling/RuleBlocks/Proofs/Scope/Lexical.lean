import RuleBlocks.Blueprint.Plan
import RuleBlocks.Blueprint.Statement
import RuleBlocks.Proofs.Reading.Blame
import RuleBlocks.Proofs.Reading.Resolved

/-!
# From the scopes of a graph to the scopes of a program

Names are resolved on the graph, but what is read is a program with scopes of its own. If nothing at
all is reported, the two agree as far as is needed: every name that the graph resolves is bound in
the program that was read, by an offer or a selection around the reference, or it is known
everywhere (`Workspace.run_clean_resolved`).

The graph and the program name the same binders because a reading without diagnostics leaves nothing
out: an offer keeps the name of its player, and each choice that binds a name on the graph is read
as a selection that binds this name in the same category (`mem_bound_of_selectionBinding?`).
-/

namespace RuleBlocks

/-! ## Programs without unresolved references -/

variable {visible : List (Category × String)}

@[simp] theorem missing_eq_nil_iff {references : List (Category × String)} :
    missing visible references = [] ↔ references ⊆ visible := by
  simp [missing, List.filter_eq_nil_iff, List.subset_def]

namespace OfferChoice

/-- Choices of a case refer to what is visible if each refers to what the others bind or to what is
visible around the case. -/
theorem unresolved_eq_nil {before after : List OfferChoice}
    (h : ∀ front choice back, after = front ++ choice :: back →
      choice.references ⊆ (before ++ front ++ back).flatMap bound ++ visible) :
    unresolved visible before after = [] := by
  induction after generalizing before with
  | nil => rfl
  | cons choice rest ih =>
    rw [unresolved, List.append_eq_nil_iff, missing_eq_nil_iff]
    constructor
    · simpa using h [] choice rest rfl
    · refine ih fun front other back hRest => ?_
      simpa using h (choice :: front) other back (by rw [hRest, List.cons_append])

end OfferChoice

namespace Statement

theorem unresolvedInAll_eq_nil_iff {statements : List Statement} :
    unresolvedInAll visible statements = [] ↔
      ∀ statement ∈ statements, statement.unresolved visible = [] := by
  induction statements with
  | nil => simp [unresolvedInAll]
  | cons first rest ih => simp [unresolvedInAll, ih]

theorem unresolvedInCases_eq_nil_iff {cases : List OfferCase} :
    unresolvedInCases visible cases = [] ↔
      ∀ offerCase ∈ cases, unresolvedInCase visible offerCase = [] := by
  induction cases with
  | nil => simp [unresolvedInCases]
  | cons first rest ih => simp [unresolvedInCases, ih]

theorem unresolved_ofChain (statements : List Statement) :
    (ofChain statements).unresolved visible = unresolvedInAll visible statements := by
  refine apply_ofChain ?_ (fun statement => ?_) (fun statements => ?_) statements
  · rw [unresolved, unresolvedInAll]
  · rw [unresolvedInAll, unresolvedInAll, List.append_nil]
  · rw [unresolved]

end Statement

namespace Reader

open Reading Statement

variable {reader : Reader} {scope : Scope} {workspace : Workspace} {spot : Spot}
variable {kind : BlockKind} {node member choice : NodeId} {input : String} {path : List PathSegment}
variable {bound : List (Category × String)} {α : Type}

/-! ## Choices -/

/-- The reading of one member of the choices of a case. -/
abbrev choiceAt (reader : Reader) (path : List PathSegment) (node : NodeId) :
    Reading (Option OfferChoice) := reader.member path .offerChoice reader.offerChoice node

/-- A choice about which nothing is reported is not left out. -/
theorem exists_choice_of_clean
    (hClean : (reader.choiceAt path choice).diagnostics = []) :
    ∃ read, (reader.choiceAt path choice).value = some read := by
  have hExplained : (reader.choiceAt path choice).Explained ⟨choice, path⟩ :=
    (explained_closed reader).toClosed.member fun _ =>
      (explained_closed reader).toClosed.offerChoice
  have hFinished : (reader.choiceAt path choice).finished = true :=
    (finished_closed reader).member fun _ => (finished_closed reader).offerChoice
  refine Option.ne_none_iff_exists'.mp fun hNone => ?_
  obtain ⟨diagnostic, hMem, -⟩ := (hExplained.eq_none_iff hFinished).mp hNone
  rw [hClean] at hMem
  cases hMem

/-- A selection block is read as a selection. -/
theorem exists_selection_of_kind
    (hKind : reader.view.kind? reader.vocabulary choice = some .choiceSelection)
    {read : OfferChoice}
    (hRead : (reader.choiceAt path choice).value = some read) :
    ∃ name choiceType, read = .selection name choiceType := by
  have hSelection := hRead
  have hRole : BlockKind.choiceSelection.role = .offerChoice := rfl
  rw [choiceAt, Reader.member, kind_eq_pure hKind, pure_andThen, if_pos hRole] at hSelection
  obtain ⟨_, choiceType, hParts, -, rfl⟩ := value_and_eq_some_iff.mp hSelection
  obtain ⟨_, name, hPart, -, rfl⟩ := value_and_eq_some_iff.mp hParts
  cases hPart
  exact ⟨name, choiceType, rfl⟩

variable (hChecks : reader.Checks scope workspace)

include hChecks

theorem Checks.kind? (hKind : reader.view.kind? reader.vocabulary node = some kind) :
    scope.view.kind? scope.vocabulary node = some kind := by
  rw [hChecks.scopeView, hChecks.vocabulary, ← hChecks.view]
  exact hKind

theorem Checks.scope_view : scope.view = reader.view := hChecks.scopeView.trans hChecks.view.symm

/-- **What a choice binds on the graph is bound in the program** if nothing is reported for the
choice. -/
theorem mem_bound_of_selectionBinding? {category : Category} {binding : Binding}
    (hBinding : scope.selectionBinding? category choice = some binding) {read : OfferChoice}
    (hRead : (reader.choiceAt path choice).value = some read) :
    (category, binding.name) ∈ read.bound := by
  obtain ⟨hKind, name, tag, categories, hName, hTag, hCategories, hBound, rfl⟩ :=
    Scope.selectionBinding?_eq_some_iff.mp hBinding
  rw [hChecks.scope_view] at hKind hName hTag
  rw [hChecks.vocabulary] at hKind
  obtain ⟨_, choiceType, rfl⟩ := exists_selection_of_kind hKind hRead
  obtain ⟨-, hReadName, readTag, readCategories, hReadTag, hReadCategories, hReadBound⟩ :=
    selection_of_value_member hRead
  cases hName.symm.trans hReadName
  cases hTag.symm.trans hReadTag
  -- the resolver takes the tag as it is, so there are no blanks that the reader would overlook
  rw [SelectionCategories.trim_of_ofTag? hCategories] at hReadCategories
  cases hCategories.symm.trans hReadCategories
  rw [OfferChoice.bound, if_neg (filledField?_ne_empty hName), hReadBound, hBound]
  exact List.mem_singleton_self _

/-! ## Members of chains -/

/-- The members of a chain in an input for chains see no more than the block that holds the chain,
and what it binds for them. -/
theorem seesAtMost_of_mem_chain {visible : List (Category × String)} (hInput : input ∈ Input.chains)
    (hMember : member ∈ reader.chain (reader.view.input? node input))
    (hBound : ∀ category, ∀ binding ∈ scope.bindings category node (some member),
      (category, binding.name) ∈ bound)
    (hSees : scope.SeesAtMost node visible) : scope.SeesAtMost member (bound ++ visible) := by
  rw [Reader.chain, hChecks.view] at hMember
  cases hFirst : workspace.view.input? node input with
  | none =>
    rw [hFirst, View.chain_none] at hMember
    cases hMember
  | some first =>
    rw [hFirst] at hMember
    have hParent := hChecks.forest.parent?_of_tidy hChecks.tidy hFirst
    rw [if_pos hInput] at hParent
    have hInChain := hChecks.forest.inChainOf_of_mem_chain hParent hMember
    exact Scope.seesAtMost_member hChecks.forest hChecks.scopeView hInChain hBound hSees

omit hChecks in
/-- A member that is not left out has the role of the chain, and is read in the way of the chain. -/
theorem member_eq_of_value {role : BlockRole} {read : Spot → BlockKind → Reading (Option α)}
    {value : α} (hValue : (reader.member path role read member).value = some value) :
    ∃ kind, reader.view.kind? reader.vocabulary member = some kind ∧ kind.role = role ∧
      reader.member path role read member = read ⟨member, path⟩ kind := by
  cases hKind : reader.view.kind? reader.vocabulary member with
  | none =>
    rw [Reader.member, kind_eq_fail hKind, fail_andThen] at hValue
    cases hValue
  | some kind =>
    rw [Reader.member, kind_eq_pure hKind, pure_andThen] at hValue ⊢
    by_cases hRole : kind.role = role
    · exact ⟨kind, rfl, hRole, if_pos hRole⟩
    · rw [if_neg hRole] at hValue
      cases hValue

omit hChecks in
theorem cleanYields_members {P : α → Prop} {first : Option NodeId} {role : BlockRole}
    {read : Spot → BlockKind → Reading (Option α)}
    (hRead : ∀ member ∈ reader.chain first, ∀ kind,
      reader.view.kind? reader.vocabulary member = some kind → kind.role = role →
        (read ⟨member, path⟩ kind).CleanYields P) :
    (reader.members path first role read).always.CleanYields fun values =>
      ∀ value ∈ values, P value := by
  intro hClean
  rw [diagnostics_always, members_eq, diagnostics_collect, List.flatMap_eq_nil_iff] at hClean
  refine Yields.always fun value hMem => ?_
  rw [members_eq, value_collect] at hMem
  obtain ⟨member, hMember, hValue⟩ := List.mem_filterMap.mp hMem
  obtain ⟨kind, hKind, hRole, hEq⟩ := member_eq_of_value hValue
  have hMemberClean := hClean member hMember
  rw [hEq] at hValue hMemberClean
  exact hRead member hMember kind hKind hRole hMemberClean value hValue

/-! ## Cases -/

variable {visible : List (Category × String)}

theorem cleanYields_choiceType (hSees : scope.SeesAtMost spot.node visible) {bound : Category} :
    (reader.choiceType spot bound).CleanYields fun choiceType =>
      choiceType.references ⊆ visible := by
  have hInput : Input.source ∉ Input.chains := by decide
  unfold choiceType
  split
  case h_1 | h_2 =>
    exact (cleanYields_playerCollection hChecks hSees hInput).mapSome fun _ hSource => hSource
  case h_3 | h_4 =>
    exact (cleanYields_cardCollection hChecks hSees hInput).mapSome fun _ hSource => hSource

theorem cleanYields_offerChoice (hSees : scope.SeesAtMost spot.node visible) :
    (reader.offerChoice spot kind).CleanYields fun choice => choice.references ⊆ visible := by
  unfold offerChoice
  split
  · refine CleanYields.and (CleanYields.and (CleanYields.parts ?_)
      (cleanYields_zone hChecks hSees (by decide))) (cleanYields_zone hChecks hSees (by decide))
    exact fun source hSource dest hDest => List.append_subset.mpr ⟨hSource, hDest⟩
  · refine CleanYields.and (CleanYields.and (CleanYields.parts ?_) .any)
      (CleanYields.any.andThen fun _ _ => cleanYields_choiceType hChecks hSees)
    exact fun _ _ _ hChoice => hChoice

theorem cleanYields_caseCondition (hSees : scope.SeesAtMost spot.node visible) :
    (reader.caseCondition spot kind).CleanYields fun condition =>
      condition.toList.flatMap BooleanExpression.references ⊆ visible := by
  unfold caseCondition
  split
  · refine (cleanYields_boolean hChecks hSees (by decide)).mapSome fun condition hCondition => ?_
    simpa using hCondition
  · exact CleanYields.pure (List.nil_subset _)

variable (hSees : scope.SeesAtMost spot.node visible)
variable (hKind : reader.view.kind? reader.vocabulary spot.node = some kind)

include hSees hKind

omit hSees in
/-- What a case binds for a member of its chains is bound in the program by another choice. -/
theorem exists_choice_of_mem_bindings {category : Category} {binding : Binding}
    (hCase : kind.role = .offerCase)
    (hClean : ∀ choice ∈ reader.chain (reader.view.input? spot.node Input.offers),
      (reader.choiceAt path choice).diagnostics = [])
    (hBinding : binding ∈ scope.bindings category spot.node (some member)) :
    ∃ choice ∈ reader.chain (reader.view.input? spot.node Input.offers), choice ≠ member ∧
      ∃ read, (reader.choiceAt path choice).value = some read ∧
        (category, binding.name) ∈ read.bound := by
  obtain ⟨choice, hChoice, hOther, hSelection⟩ :=
    (Scope.mem_bindings_iff (hChecks.kind? hKind) hCase).mp hBinding
  rw [hChecks.scope_view] at hChoice
  obtain ⟨read, hRead⟩ := exists_choice_of_clean (hClean choice hChoice)
  exact ⟨choice, hChoice, fun hEq => hOther (congrArg some hEq.symm), read, hRead,
    mem_bound_of_selectionBinding? hChecks hSelection hRead⟩

/-- **Each choice of a case refers to what the other choices bind** or to what is visible around the
case, if nothing is reported for the choices. -/
theorem unresolved_choices (hCase : kind.role = .offerCase)
    (hClean : ∀ choice ∈ reader.chain (reader.view.input? spot.node Input.offers),
      (reader.choiceAt path choice).diagnostics = []) :
    OfferChoice.unresolved visible []
      ((reader.chain (reader.view.input? spot.node Input.offers)).filterMap fun choice =>
        (reader.choiceAt path choice).value) = [] := by
  refine OfferChoice.unresolved_eq_nil fun front choice back hSplit => ?_
  -- the choices before and after come from the members before and after
  obtain ⟨before, after, hChain, hFront, hAfter⟩ := List.filterMap_eq_append_iff.mp hSplit
  obtain ⟨skipped, member, rest, rfl, hSkipped, hChoice, hBack⟩ :=
    List.filterMap_eq_cons_iff.mp hAfter
  have hMember : member ∈ reader.chain (reader.view.input? spot.node Input.offers) := by
    simp [hChain]
  have hBound : ∀ category, ∀ binding ∈ scope.bindings category spot.node (some member),
      (category, binding.name) ∈ (([] ++ front) ++ back).flatMap OfferChoice.bound := by
    intro category binding hBinding
    obtain ⟨other, hOther, hNe, read, hRead, hReadBound⟩ :=
      exists_choice_of_mem_bindings hChecks hKind hCase hClean hBinding
    refine List.mem_flatMap.mpr ⟨read, ?_, hReadBound⟩
    rw [hChain] at hOther
    simp only [List.nil_append, List.mem_append, List.mem_cons] at hOther ⊢
    rcases hOther with hOther | hOther | hOther | hOther
    · exact Or.inl (hFront ▸ List.mem_filterMap.mpr ⟨other, hOther, hRead⟩)
    · cases (hSkipped other hOther).symm.trans hRead
    · exact absurd hOther hNe
    · exact Or.inr (hBack ▸ List.mem_filterMap.mpr ⟨other, hOther, hRead⟩)
  have hMemberSees := seesAtMost_of_mem_chain hChecks (by decide) hMember hBound hSees
  obtain ⟨_, -, -, hEq⟩ := member_eq_of_value hChoice
  have hMemberClean := hClean member hMember
  rw [choiceAt, hEq] at hChoice hMemberClean
  exact cleanYields_offerChoice hChecks hMemberSees hMemberClean _ hChoice

/-! ## Statements -/

variable {read : Spot → Reading (Option Statement)}
variable (hRead : ∀ inner visible, scope.SeesAtMost inner.node visible →
  (read inner).CleanYields fun statement => statement.unresolved visible = [])

include hRead

omit hChecks hSees hKind in
/-- A chain whose members refer to what is visible. -/
theorem unresolved_chainStatement {first : Option NodeId}
    (hMembers : ∀ member ∈ reader.chain first, scope.SeesAtMost member visible)
    (hClean : (reader.chainStatement read path first).diagnostics = []) :
    (reader.chainStatement read path first).value.unresolved visible = [] := by
  rw [diagnostics_chainStatement, List.flatMap_eq_nil_iff] at hClean
  rw [value_chainStatement, unresolved_ofChain, unresolvedInAll_eq_nil_iff]
  intro statement hStatement
  obtain ⟨member, hMember, hValue⟩ := List.mem_filterMap.mp hStatement
  exact hRead ⟨member, path⟩ visible (hMembers member hMember) (hClean member hMember) _ hValue

omit hKind in
/-- The body of a block refers to what the block binds for it and to what is visible around the
block. -/
theorem unresolved_body (hInput : input ∈ Input.chains)
    (hBound : ∀ member ∈ reader.chain (reader.view.input? spot.node input), ∀ category,
      ∀ binding ∈ scope.bindings category spot.node (some member),
        (category, binding.name) ∈ bound)
    (hClean : (reader.body read spot input).diagnostics = []) :
    (reader.body read spot input).value.unresolved (bound ++ visible) = [] :=
  unresolved_chainStatement hRead (fun member hMember =>
    seesAtMost_of_mem_chain hChecks hInput hMember (hBound member hMember) hSees) hClean

/-- Cases refer to what is visible around them and to the selections that they bind. -/
theorem cleanYields_offerCase (hCase : kind.role = .offerCase) :
    (reader.offerCase read spot kind).CleanYields fun offerCase =>
      unresolvedInCase visible offerCase = [] := by
  intro hClean
  simp only [offerCase, diagnostics_and, diagnostics_parts, diagnostics_always, List.nil_append,
    List.append_eq_nil_iff] at hClean
  obtain ⟨⟨hCondition, hChoices⟩, hBody⟩ := hClean
  rw [members_eq, diagnostics_collect, List.flatMap_eq_nil_iff] at hChoices
  have hResolved := unresolved_choices hChecks hSees hKind hCase hChoices
  generalize hList : (reader.chain (reader.view.input? spot.node Input.offers)).filterMap
    (fun choice => (reader.choiceAt (spot.within Input.offers) choice).value) = choices at hResolved
  have hBound : ∀ member, ∀ category, ∀ binding ∈ scope.bindings category spot.node (some member),
      (category, binding.name) ∈ choices.flatMap OfferChoice.bound := by
    intro member category binding hBinding
    obtain ⟨choice, hChoice, -, read, hRead, hReadBound⟩ :=
      exists_choice_of_mem_bindings hChecks hKind hCase hChoices hBinding
    refine List.mem_flatMap.mpr ⟨read, ?_, hReadBound⟩
    exact hList ▸ List.mem_filterMap.mpr ⟨choice, hChoice, hRead⟩
  have hBodyResolved := unresolved_body hChecks hSees hRead (by decide)
    (fun member _ => hBound member) hBody
  have hChoicesRead : (reader.members (spot.within Input.offers)
      (reader.view.input? spot.node Input.offers) .offerChoice reader.offerChoice).value =
        choices := by
    rw [members_eq, value_collect, ← hList]
  refine Yields.and (Yields.and (Yields.and (Yields.parts ?_)
    (cleanYields_caseCondition hChecks hSees hCondition))
    (Yields.always (P := (· = choices)) hChoicesRead))
    (Yields.always
      (P := fun body => body.unresolved (choices.flatMap OfferChoice.bound ++ visible) = [])
      hBodyResolved)
  rintro condition hConditionRefs _ rfl body hBodyRefs
  rw [unresolvedInCase, missing_eq_nil_iff.mpr hConditionRefs, hResolved, hBodyRefs]
  rfl

omit hSees hRead in
/-- What an offer binds for its cases is the player that it names in the program. -/
theorem mem_boundPlayer_of_mem_bindings {playerName : Option String} {category : Category}
    {binding : Binding} (hOffer : kind = .offer ∨ kind = .unnamedOffer)
    (hPlayer : (reader.offerPlayer spot kind).value = some playerName)
    (hBinding : binding ∈ scope.bindings category spot.node (some member)) :
    (category, binding.name) ∈ boundPlayer playerName := by
  rcases hOffer with rfl | rfl
  · rw [Scope.bindings_of_offer (hChecks.kind? hKind)] at hBinding
    split at hBinding
    · rename_i hCategory
      obtain ⟨name, hName, rfl⟩ := Option.map_eq_some_iff.mp (Option.mem_toList.mp hBinding)
      rw [hChecks.scope_view] at hName
      rw [offerPlayer, value_mapSome, value_requiredField, hName] at hPlayer
      obtain rfl : some name = playerName := Option.some.inj hPlayer
      have hFilled : name ≠ "" := filledField?_ne_empty hName
      rw [boundPlayer, Option.filter_some_pos (by simpa using hFilled), hCategory]
      exact List.mem_singleton_self _
    · cases hBinding
  · rw [Scope.bindings_eq_nil (hChecks.kind? hKind) (by decide)] at hBinding
    cases hBinding

/-- Offers refer to what is visible around them, and their cases to the player too. -/
theorem cleanYields_offer (hOffer : kind = .offer ∨ kind = .unnamedOffer) :
    (reader.offer read spot kind).CleanYields fun statement =>
      statement.unresolved visible = [] := by
  intro hClean statement hValue
  simp only [offer, diagnostics_and, diagnostics_parts, List.nil_append,
    List.append_eq_nil_iff] at hClean
  obtain ⟨⟨-, hOfferToClean⟩, hCasesClean⟩ := hClean
  obtain ⟨_, cases, hParts, hCasesValue, rfl⟩ := value_and_eq_some_iff.mp hValue
  obtain ⟨_, offerTo, hPart, hOfferToValue, rfl⟩ := value_and_eq_some_iff.mp hParts
  obtain ⟨_, playerName, hFirst, hPlayer, rfl⟩ := value_and_eq_some_iff.mp hPart
  cases hFirst
  have hOfferTo := cleanYields_playerCollection hChecks hSees (by decide) hOfferToClean offerTo
    hOfferToValue
  have hCases : ∀ offerCase ∈ cases,
      unresolvedInCase (boundPlayer playerName ++ visible) offerCase = [] := by
    refine cleanYields_members (fun member hMember caseKind hCaseKind hCase => ?_) hCasesClean cases
      hCasesValue
    have hMemberSees := seesAtMost_of_mem_chain hChecks (by decide) hMember
      (fun category binding hBinding =>
        mem_boundPlayer_of_mem_bindings hChecks hKind hOffer hPlayer hBinding) hSees
    exact cleanYields_offerCase hChecks hMemberSees hCaseKind hRead hCase
  rw [unresolved, missing_eq_nil_iff.mpr hOfferTo, unresolvedInCases_eq_nil_iff.mpr hCases]
  rfl

/-- The bodies of branches and loops refer to what is visible around them. -/
theorem cleanYields_body (hNot : kind ≠ .offer ∧ kind.role ≠ .offerCase)
    (hInput : input ∈ Input.chains) :
    (reader.body read spot input).always.CleanYields fun body =>
      body.unresolved visible = [] := by
  intro hClean
  rw [diagnostics_always] at hClean
  have hUnbound : ∀ member ∈ reader.chain (reader.view.input? spot.node input), ∀ category,
      ∀ binding ∈ scope.bindings category spot.node (some member),
        (category, binding.name) ∈ ([] : List (Category × String)) := by
    intro member _ category binding hBinding
    rw [Scope.bindings_eq_nil (hChecks.kind? hKind) hNot] at hBinding
    cases hBinding
  exact Yields.always (unresolved_body hChecks hSees hRead hInput hUnbound hClean)

theorem cleanYields_statementOf :
    (reader.statementOf read spot kind).CleanYields fun statement =>
      statement.unresolved visible = [] := by
  unfold statementOf
  cases kind
  case enterPhase => exact CleanYields.any.mapSome fun name _ => by rw [unresolved]
  case setNumber =>
    refine CleanYields.and (CleanYields.and (CleanYields.parts ?_) .any)
      (cleanYields_number hChecks hSees (by decide))
    intro name _ value hValue
    rw [unresolved]
    exact missing_eq_nil_iff.mpr hValue
  case ifElse =>
    refine CleanYields.and (CleanYields.and (CleanYields.and (CleanYields.parts ?_)
      (cleanYields_boolean hChecks hSees (by decide)))
      (cleanYields_body hChecks hSees hKind hRead (by decide) (by decide)))
      (cleanYields_body hChecks hSees hKind hRead (by decide) (by decide))
    intro condition hCondition goTrue hTrue goFalse hFalse
    rw [unresolved, missing_eq_nil_iff.mpr hCondition, hTrue, hFalse]
    rfl
  case repeatWhile =>
    refine CleanYields.and (CleanYields.and (CleanYields.parts ?_)
      (cleanYields_boolean hChecks hSees (by decide)))
      (cleanYields_body hChecks hSees hKind hRead (by decide) (by decide))
    intro condition hCondition body hBody
    rw [unresolved, missing_eq_nil_iff.mpr hCondition, hBody]
    rfl
  case shuffle =>
    refine (cleanYields_zoneCollection hChecks hSees (by decide)).mapSome fun zones hZones => ?_
    rw [unresolved]
    exact missing_eq_nil_iff.mpr hZones
  case generateCards =>
    refine CleanYields.and (CleanYields.and (CleanYields.parts ?_) .any)
      (cleanYields_zone hChecks hSees (by decide))
    intro cards _ dest hDest
    rw [unresolved]
    exact missing_eq_nil_iff.mpr hDest
  case dealCards =>
    refine CleanYields.and (CleanYields.and (CleanYields.and (CleanYields.parts ?_)
      (cleanYields_number hChecks hSees (by decide))) (cleanYields_zone hChecks hSees (by decide)))
      (cleanYields_zoneCollection hChecks hSees (by decide))
    intro count hCount source hSource dest hDest
    rw [unresolved, missing_eq_nil_iff.mpr hCount, missing_eq_nil_iff.mpr hSource,
      missing_eq_nil_iff.mpr hDest]
    rfl
  case moveCards =>
    refine CleanYields.and (CleanYields.and (CleanYields.parts ?_)
      (cleanYields_cardCollection hChecks hSees (by decide)))
      (cleanYields_zone hChecks hSees (by decide))
    intro source hSource dest hDest
    rw [unresolved, missing_eq_nil_iff.mpr hSource, missing_eq_nil_iff.mpr hDest]
    rfl
  case declareWinner =>
    refine (cleanYields_playerCollection hChecks hSees (by decide)).mapSome
      fun players hPlayers => ?_
    rw [unresolved]
    exact missing_eq_nil_iff.mpr hPlayers
  case advancePlayer =>
    refine (cleanYields_number hChecks hSees (by decide)).mapSome fun amount hAmount => ?_
    rw [unresolved]
    exact missing_eq_nil_iff.mpr hAmount
  case offer => exact cleanYields_offer hChecks hSees hKind hRead (Or.inl rfl)
  case unnamedOffer => exact cleanYields_offer hChecks hSees hKind hRead (Or.inr rfl)
  all_goals exact cleanYields_fail _

omit hSees hKind hRead in
/-- **A statement about which nothing is reported** refers to what its block can refer to at most,
or to what is bound around the reference in the statement. -/
theorem cleanYields_statement (depth : Nat) (spot : Spot) (visible : List (Category × String))
    (hSees : scope.SeesAtMost spot.node visible) :
    (reader.statement depth spot).CleanYields fun statement =>
      statement.unresolved visible = [] := by
  induction depth generalizing spot visible with
  | zero => exact fun _ => nofun
  | succ depth ih =>
    rw [statement]
    cases hKind : reader.view.kind? reader.vocabulary spot.node with
    | none =>
      rw [kind_eq_fail hKind, fail_andThen]
      exact cleanYields_fail _
    | some kind =>
      rw [kind_eq_pure hKind, pure_andThen]
      exact cleanYields_statementOf hChecks hSees hKind ih

end Reader

namespace Workspace

/-- The names of the numbers that the blocks of a workspace set. -/
def numbersSet (workspace : Workspace) (vocabulary : Vocabulary) : List String :=
  workspace.nodes.filterMap fun node =>
    if workspace.view.kind? vocabulary node = some .setNumber then
      workspace.view.filledField? node Field.name
    else none

theorem mem_of_mem_globals {workspace : Workspace} {vocabulary : Vocabulary}
    {globals : List (Category × String)} {binding : Binding}
    (hBinding : binding ∈ (Scope.ofView workspace.view vocabulary globals).globals) :
    (binding.category, binding.name) ∈
      (workspace.numbersSet vocabulary).map (Category.number, ·) ++ globals := by
  rcases List.mem_append.mp hBinding with hNumber | hRegistered
  · obtain ⟨node, hNode, hSet⟩ := List.mem_filterMap.mp hNumber
    obtain ⟨hKind, hName⟩ := Option.ite_none_right_eq_some.mp hSet
    obtain ⟨name, hFilled, rfl⟩ := Option.map_eq_some_iff.mp hName
    refine List.mem_append_left _ (List.mem_map.mpr ⟨name, ?_, rfl⟩)
    exact List.mem_filterMap.mpr ⟨node, hNode, by rw [if_pos hKind, hFilled]⟩
  · obtain ⟨⟨category, name⟩, hMem, rfl⟩ := List.mem_map.mp hRegistered
    exact List.mem_append_right _ hMem

/-- **What is read without any diagnostic is closed.** After any run of commands that leaves the
workspace tidy, let the chain of a root be read with references checked. If nothing at all is
reported, then every reference in the statement that was read is bound around it in the statement,
is a registered global, or is a number that a block of the workspace sets. -/
theorem run_clean_resolved (commands : List Command) (vocabulary : Vocabulary)
    (globals : List (Category × String)) (first : NodeId) :
    let workspace := run commands
    let reader := Reader.ofView workspace.view vocabulary ⟨true, globals⟩
    workspace.Tidy → first ∈ workspace.roots →
    (reader.readChain (some first)).diagnostics = [] →
    (reader.readChain (some first)).finished = true ∧
      (reader.readChain (some first)).value.unresolved
        ((workspace.numbersSet vocabulary).map (Category.number, ·) ++ globals) = [] := by
  intro workspace reader hTidy hFirst hClean
  have hForest : workspace.Forest := Forest.run commands
  have hChecks : reader.Checks (.ofView workspace.view vocabulary globals) workspace :=
    ⟨hForest, hTidy, rfl, rfl, rfl, rfl⟩
  refine ⟨Reader.finished_readChain hForest rfl _, ?_⟩
  refine Reader.unresolved_chainStatement (Reader.cleanYields_statement hChecks _) ?_ hClean
  intro member hMember
  have hRoot : workspace.enclosing? first = none :=
    enclosing?_of_root (hForest.mem_roots_iff.mp hFirst).2
  have hOutside : workspace.enclosing? member = none :=
    (hForest.enclosing?_of_mem_chain hMember).trans hRoot
  exact Scope.seesAtMost_root rfl hOutside fun binding hBinding => mem_of_mem_globals hBinding

/-- An offer to all players, named `who`, to select a `target` and to pass a card on to it, after
the cards on a `table` were counted. -/
def scopedProgram : Statement :=
  .block [
    .setNumber "count" (.cardsIn (.allInZone (.var "table"))),
    .offer .allPlayers (some "who") [
      ⟨some (.playerIsType (.var "who") "host"), "",
        [.selection "target" (.player .allPlayers),
          .action (.moveCards (.var "table") (.ownedByPlayer (.var "target") "hand"))],
        .block [.advancePlayer (.var "count"), .declareWinner (.single (.var "target"))]⟩]]

/-- The commands that draw the offer. -/
def drawScopedProgram : List Command :=
  (Blueprint.chainSteps none 0 scopedProgram.blueprints).map fun step => .edit step.edit

theorem scopedProgram_resolved :
    let workspace := run drawScopedProgram
    let reader := Reader.ofView workspace.view .canonical ⟨true, [(.zone, "table")]⟩
    workspace.Tidy ∧ 0 ∈ workspace.roots ∧ (reader.readChain (some 0)).diagnostics = [] ∧
      (reader.readChain (some 0)).value = scopedProgram ∧
      scopedProgram.unresolved ((workspace.numbersSet .canonical).map (Category.number, ·) ++
        [(.zone, "table")]) = [] := by
  have hTidy : (run drawScopedProgram).Tidy := by decide +kernel
  have hRoot : 0 ∈ (run drawScopedProgram).roots := by decide +kernel
  have hClean : ((Reader.ofView (run drawScopedProgram).view .canonical
      ⟨true, [(.zone, "table")]⟩).readChain (some 0)).diagnostics = [] := by decide +kernel
  have hValue : ((Reader.ofView (run drawScopedProgram).view .canonical
      ⟨true, [(.zone, "table")]⟩).readChain (some 0)).value = scopedProgram := by decide +kernel
  have hResolved := (run_clean_resolved drawScopedProgram .canonical [(.zone, "table")] 0 hTidy
    hRoot hClean).2
  rw [hValue] at hResolved
  exact ⟨hTidy, hRoot, hClean, hValue, hResolved⟩

end Workspace

end RuleBlocks
