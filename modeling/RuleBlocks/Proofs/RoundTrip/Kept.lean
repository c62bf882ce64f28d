import RuleBlocks.Proofs.Reading.Checking
import RuleBlocks.Proofs.Reading.Whole
import RuleBlocks.Proofs.RoundTrip.Lossless

/-!
# What comes back from a drawn program

Reading a program where it was drawn gives the program without its unnamed parts, in normal form,
whatever names are empty in it (`value_keptItems`, `Phases.value_drawn`). A statement without chains
in it is read as a whole or not at all, so what is known of its reading without empty names decides
the rest; the statements with chains are put together from their parts.
-/

namespace RuleBlocks

namespace Reader

open Reading Blueprint

variable {reader : Reader} {workspace : Workspace} {node : NodeId} {kind : BlockKind}
variable {fields : List (String × String)} {sockets : List (SocketOf Blueprint)} {free : Nat}
variable {path : List PathSegment} {input : String}

theorem value_collect_singleton {α : Type} (read : NodeId → Reading (Option α)) (node : NodeId) :
    (collect read [node]).value = (read node).value.toList := by
  rw [value_collect, List.filterMap_cons, List.filterMap_nil]
  cases (read node).value <;> rfl

/-- What is recovered from a chain of one block is recovered from the block. -/
theorem Recovers.of_collect {α : Type} {read : NodeId → Reading (Option α)} {value : α}
    {names : List String} {unresolved : List (Category × String)}
    (h : reader.Recovers (collect read [node]) [value] names unresolved) :
    reader.Recovers (read node) (some value) names unresolved := by
  have hDiagnostics : (collect read [node]).diagnostics = (read node).diagnostics := by
    rw [diagnostics_collect, List.flatMap_cons, List.flatMap_nil, List.append_nil]
  refine ⟨fun hNames => ?_, fun hNames => ?_⟩
  · obtain ⟨hRead, hFaults⟩ := h.clean hNames
    rw [value_collect_singleton] at hRead
    unfold faults at hFaults
    rw [hDiagnostics] at hFaults
    exact ⟨Option.toList_eq_singleton_iff.mp hRead, hFaults⟩
  · have hErrors := h.faulty hNames
    unfold hasErrors at hErrors
    rwa [hDiagnostics] at hErrors

section

variable (hOver : reader.Over workspace) (hScope : reader.scope? = none)

include hOver

/-! ## Chains of one block -/

/-- A chain of one block is read as the statement of the block, if there is one. -/
theorem value_single {depth : Nat} (path : List PathSegment)
    (hDrawn : workspace.ChainDrawn free [.block kind fields sockets])
    (hDepth : chainSize [.block kind fields sockets] ≤ depth) :
    ∃ inner, depth = inner + 1 ∧ socketsSize sockets ≤ inner ∧
      (collect (fun inner => reader.statement depth ⟨inner, path⟩)
        (chainNodes free [.block kind fields sockets])).value =
          (reader.statementOf (reader.statement inner) ⟨free, path⟩ kind).value.toList := by
  obtain ⟨inner, rfl, hInner, hOf⟩ := statement_eq_statementOf hOver hDrawn hDepth path
  refine ⟨inner, rfl, hInner, ?_⟩
  rw [chainNodes, chainNodes, value_collect_singleton, hOf]

/-- The chain in an input is read as the statement of what is read one after the other. -/
theorem value_body {read : Spot → Reading (Option Statement)} {chain : List Blueprint}
    {items : List Statement} (path : List PathSegment)
    (hSocket : workspace.SocketDrawn node free (.body input chain))
    (hItems : (collect (fun inner => read ⟨inner, Spot.within ⟨node, path⟩ input⟩)
      (chainNodes free chain)).value = items) :
    (reader.body read ⟨node, path⟩ input).value = .ofChain items := by
  rw [body_eq_collect hOver hSocket, value_bind, value_pure, hItems]

include hScope

/-- A statement without chains in it is read as a whole or not at all. -/
theorem value_simple {statement : Statement} {depth : Nat}
    (hBlueprints : statement.blueprints = [.block kind fields sockets])
    (hItems : statement.items = [statement]) (hSimple : kind.isSimple = true)
    (hDrawn : workspace.ChainDrawn free statement.blueprints)
    (hDepth : chainSize statement.blueprints ≤ depth) :
    (collect (fun inner => reader.statement depth ⟨inner, path⟩)
      (chainNodes free statement.blueprints)).value =
        (ifNamed statement.requiredNames statement).toList := by
  have hRecovers := recovers_items hOver statement free depth path [] hDrawn
    (fun member _ => sees_of_unchecked hScope member []) hDepth
  rw [hItems] at hRecovers
  rw [hBlueprints] at hDrawn hDepth hRecovers ⊢
  obtain ⟨inner, rfl, -, hOf⟩ := statement_eq_statementOf hOver hDrawn hDepth path
  have hWhole : (reader.statementOf (reader.statement inner) ⟨free, path⟩ kind).AllOrNothing :=
    (allOrNothing_closed reader).statementOf hSimple
  rw [← hOf] at hWhole
  rw [chainNodes, chainNodes, value_collect_singleton]
  exact congrArg Option.toList (hRecovers.of_collect.gives hWhole)

/-! ## Choices and conditions -/

theorem gives_boolean {condition : BooleanExpression} (hInput : input ∉ Input.chains)
    (hSocket : workspace.SocketDrawn node free (.value input condition.blueprint)) :
    (reader.boolean ⟨node, path⟩ input).Gives condition.requiredNames condition :=
  (recovers_boolean hOver hSocket (sees_of_unchecked hScope node []) path).gives
    ((allOrNothing_closed reader).boolean hInput)

theorem gives_playerCollection {players : PlayerCollectionExpression}
    (hInput : input ∉ Input.chains)
    (hSocket : workspace.SocketDrawn node free (.value input players.blueprint)) :
    (reader.playerCollection ⟨node, path⟩ input).Gives players.requiredNames players :=
  (recovers_playerCollection hOver hSocket (sees_of_unchecked hScope node []) path).gives
    ((allOrNothing_closed reader).playerCollection hInput)

theorem value_choices {choices : List OfferChoice}
    (hDrawn : workspace.ChainDrawn free (choices.map OfferChoice.blueprint)) :
    (collect (reader.member path .offerChoice reader.offerChoice)
      (chainNodes free (choices.map OfferChoice.blueprint))).value = OfferChoice.kept choices := by
  induction choices generalizing free with
  | nil => rfl
  | cons choice rest ih =>
    obtain ⟨hFirst, hRest⟩ := hDrawn
    have hChoice : (reader.member path .offerChoice reader.offerChoice free).Gives
        choice.requiredNames choice :=
      (recovers_choice hOver hFirst (sees_of_unchecked hScope free [])).gives
        ((allOrNothing_closed reader).member fun _ => (allOrNothing_closed reader).offerChoice)
    have hChoices := ih hRest
    unfold Reading.Gives at hChoice
    unfold OfferChoice.kept at hChoices ⊢
    rw [value_collect] at hChoices ⊢
    rw [List.map_cons, chainNodes, List.filterMap_cons, List.filterMap_cons, hChoices, hChoice]

variable {read : Spot → Reading (Option Statement)}

/-- What is read for an offer, given what is read for its player and its cases. -/
theorem gives_offer {offerTo : PlayerCollectionExpression} {playerName : Option String}
    {chain : List Blueprint} {caseFree : Nat} {cases : List OfferCase}
    (hPlayer : (reader.offerPlayer ⟨node, path⟩ kind).Gives [] playerName)
    (hOfferTo : workspace.SocketDrawn node free (.value Input.offerTo offerTo.blueprint))
    (hHolds : workspace.SocketDrawn node caseFree (.parts Input.cases chain))
    (hCases : (collect (reader.member (Spot.within ⟨node, path⟩ Input.cases) .offerCase
      (reader.offerCase read)) (chainNodes caseFree chain)).value = cases) :
    (reader.offer read ⟨node, path⟩ kind).Gives offerTo.requiredNames
      (.offer offerTo playerName cases) := by
  have hMembers : (reader.members (Spot.within ⟨node, path⟩ Input.cases)
      (reader.view.input? node Input.cases) .offerCase (reader.offerCase read)).value = cases := by
    rw [members_eq_collect hOver hHolds, hCases]
  exact (((gives_parts _).and hPlayer).and
    (gives_playerCollection hOver hScope (by decide) hOfferTo)).andAlways hMembers

/-- What is read for a case, given what is read for its condition and its body. -/
theorem gives_case {condition : Option BooleanExpression} {message : String}
    {choices : List OfferChoice} {chain : List Blueprint} {bodyFree : Nat} {items : List Statement}
    (hDrawn : workspace.Drawn node (.block kind [(Field.prompt, message)] sockets))
    (hRole : kind.role = .offerCase)
    (hCondition : (reader.caseCondition ⟨node, path⟩ kind).Gives
      (condition.toList.flatMap BooleanExpression.requiredNames) condition)
    (hOffers : workspace.SocketDrawn node free
      (.parts Input.offers (choices.map OfferChoice.blueprint)))
    (hActions : workspace.SocketDrawn node bodyFree (.body Input.actions chain))
    (hItems : (collect (fun inner => read ⟨inner, Spot.within ⟨node, path⟩ Input.actions⟩)
      (chainNodes bodyFree chain)).value = items) :
    (reader.member path .offerCase (reader.offerCase read) node).Gives
      (condition.toList.flatMap BooleanExpression.requiredNames)
      ⟨condition, message, OfferChoice.kept choices, .ofChain items⟩ := by
  have hKind : reader.kind ⟨node, path⟩ = pure (some kind) := kind_eq_pure (hOver.kind? hDrawn)
  have hMessage : (reader.view.field? node Field.prompt).getD "" = message := by
    rw [field?_of_leaf hOver hDrawn]
    rfl
  have hChoices : (reader.members (Spot.within ⟨node, path⟩ Input.offers)
      (reader.view.input? node Input.offers) .offerChoice reader.offerChoice).value =
        OfferChoice.kept choices := by
    rw [members_eq_collect hOver hOffers]
    exact value_choices hOver hScope hOffers.2.chainDrawn
  rw [member, hKind, pure_andThen, if_pos hRole, Reader.offerCase, hMessage]
  exact (((gives_parts _).and hCondition).andAlways hChoices).andAlways
    (value_body hOver path hActions hItems)

end

/-! ## Statements -/

open Statement in
mutual

/-- **The chain of a statement is read as its items without unnamed parts.** -/
theorem value_keptItems (hOver : reader.Over workspace) (hScope : reader.scope? = none) :
    ∀ (statement : Statement) (free depth : Nat) (path : List PathSegment),
    workspace.ChainDrawn free statement.blueprints → chainSize statement.blueprints ≤ depth →
      (collect (fun inner => reader.statement depth ⟨inner, path⟩)
        (chainNodes free statement.blueprints)).value = statement.keptItems
  | .empty, free, depth, path, _, _ => by
    rw [blueprints, keptItems]
    rfl
  | .block items, free, depth, path, hDrawn, hDepth => by
    rw [blueprints] at hDrawn hDepth ⊢
    rw [keptItems]
    exact value_keptItemsOfAll hOver hScope items free depth path hDrawn hDepth
  | .enterPhase name, free, depth, path, hDrawn, hDepth => by
    have hBlueprints : (enterPhase name).blueprints =
        [.block .enterPhase [(Field.phaseName, name)] []] := by
      rw [blueprints]
      rfl
    rw [value_simple hOver hScope hBlueprints (by rw [Statement.items]) rfl hDrawn hDepth,
      keptItems, requiredNames]
  | .setNumber _ _, free, depth, path, hDrawn, hDepth
  | .shuffle _, free, depth, path, hDrawn, hDepth
  | .generateCards .allAllowed _, free, depth, path, hDrawn, hDepth
  | .deal _ _ _, free, depth, path, hDrawn, hDepth
  | .moveCards _ _, free, depth, path, hDrawn, hDepth
  | .declareWinner _, free, depth, path, hDrawn, hDepth
  | .advancePlayer _, free, depth, path, hDrawn, hDepth => by
    rw [value_simple hOver hScope (by rw [blueprints]) (by rw [Statement.items]) rfl hDrawn hDepth,
      keptItems, requiredNames]
  | .conditional condition goTrue goFalse, free, depth, path, hDrawn, hDepth => by
    rw [blueprints] at hDrawn hDepth ⊢
    rw [keptItems]
    obtain ⟨inner, rfl, hInner, hValue⟩ := value_single hOver path hDrawn hDepth
    obtain ⟨hCondition, hTrue, hFalse, -⟩ := hDrawn.1.sockets
    simp only [socketsSize, socketSize] at hInner
    have hTrueItems := value_body hOver path hTrue
      (value_keptItems hOver hScope goTrue _ inner _ hTrue.2.chainDrawn (by omega))
    have hFalseItems := value_body hOver path hFalse
      (value_keptItems hOver hScope goFalse _ inner _ hFalse.2.chainDrawn (by omega))
    rw [hValue]
    exact congrArg Option.toList ((((gives_parts _).and
      (gives_boolean hOver hScope (by decide) hCondition)).andAlways hTrueItems).andAlways
        hFalseItems)
  | .repeatWhile condition body, free, depth, path, hDrawn, hDepth => by
    rw [blueprints] at hDrawn hDepth ⊢
    rw [keptItems]
    obtain ⟨inner, rfl, hInner, hValue⟩ := value_single hOver path hDrawn hDepth
    obtain ⟨hCondition, hBody, -⟩ := hDrawn.1.sockets
    simp only [socketsSize, socketSize] at hInner
    have hBodyItems := value_body hOver path hBody
      (value_keptItems hOver hScope body _ inner _ hBody.2.chainDrawn (by omega))
    rw [hValue]
    exact congrArg Option.toList (((gives_parts _).and
      (gives_boolean hOver hScope (by decide) hCondition)).andAlways hBodyItems)
  | .offer offerTo playerName cases, free, depth, path, hDrawn, hDepth => by
    rw [blueprints] at hDrawn hDepth ⊢
    rw [keptItems]
    cases hName : playerName.filter (· ≠ "") with
    | some name =>
      simp only [hName] at hDrawn hDepth ⊢
      have hFilled : name ≠ "" := by simpa using (Option.filter_eq_some_iff.mp hName).2
      obtain ⟨inner, rfl, hInner, hValue⟩ := value_single hOver path hDrawn hDepth
      obtain ⟨hOfferTo, hCases, -⟩ := hDrawn.1.sockets
      simp only [socketsSize, socketSize] at hInner
      have hPlayer : (reader.offerPlayer ⟨free, path⟩ .offer).Gives [] (some name) := by
        rw [offerPlayer, requiredField_of_ne_empty (field?_of_leaf hOver hDrawn.1) hFilled]
        exact (ifNamed_nil _).symm
      rw [hValue]
      exact congrArg Option.toList (gives_offer hOver hScope hPlayer hOfferTo hCases
        (value_keptCases hOver hScope cases _ inner _ hCases.2.chainDrawn (by omega)))
    | none =>
      simp only [hName] at hDrawn hDepth ⊢
      obtain ⟨inner, rfl, hInner, hValue⟩ := value_single hOver path hDrawn hDepth
      obtain ⟨hOfferTo, hCases, -⟩ := hDrawn.1.sockets
      simp only [socketsSize, socketSize] at hInner
      rw [hValue]
      exact congrArg Option.toList (gives_offer hOver hScope (ifNamed_nil _).symm hOfferTo hCases
        (value_keptCases hOver hScope cases _ inner _ hCases.2.chainDrawn (by omega)))

theorem value_keptItemsOfAll (hOver : reader.Over workspace) (hScope : reader.scope? = none) :
    ∀ (statements : List Statement) (free depth : Nat) (path : List PathSegment),
    workspace.ChainDrawn free (blueprintsOfAll statements) →
    chainSize (blueprintsOfAll statements) ≤ depth →
      (collect (fun inner => reader.statement depth ⟨inner, path⟩)
        (chainNodes free (blueprintsOfAll statements))).value = keptItemsOfAll statements
  | [], free, depth, path, _, _ => by
    rw [blueprintsOfAll, keptItemsOfAll]
    rfl
  | first :: rest, free, depth, path, hDrawn, hDepth => by
    rw [blueprintsOfAll] at hDrawn hDepth ⊢
    rw [Workspace.chainDrawn_append] at hDrawn
    rw [chainSize_append] at hDepth
    have hFirst := value_keptItems hOver hScope first free depth path hDrawn.1 (by omega)
    have hRest := value_keptItemsOfAll hOver hScope rest _ depth path hDrawn.2 (by omega)
    rw [value_collect] at hFirst hRest ⊢
    rw [keptItemsOfAll, chainNodes_append, List.filterMap_append, hFirst, hRest]

theorem value_keptCases (hOver : reader.Over workspace) (hScope : reader.scope? = none) :
    ∀ (cases : List (OfferCaseOf Statement)) (free depth : Nat) (path : List PathSegment),
    workspace.ChainDrawn free (caseBlueprints cases) →
    chainSize (caseBlueprints cases) ≤ depth →
      (collect (reader.member path .offerCase (reader.offerCase (reader.statement depth)))
        (chainNodes free (caseBlueprints cases))).value = keptCases cases
  | [], free, depth, path, _, _ => by
    rw [caseBlueprints, keptCases]
    rfl
  | offerCase :: rest, free, depth, path, hDrawn, hDepth => by
    rw [caseBlueprints] at hDrawn hDepth ⊢
    rw [chainSize] at hDepth
    have hFirst := value_keptCase? hOver hScope offerCase free depth path hDrawn.1 (by omega)
    have hRest := value_keptCases hOver hScope rest _ depth path hDrawn.2 (by omega)
    rw [value_collect] at hRest ⊢
    rw [keptCases, chainNodes, List.filterMap_cons, hRest, hFirst]
    cases keptCase? offerCase <;> rfl

theorem value_keptCase? (hOver : reader.Over workspace) (hScope : reader.scope? = none) :
    ∀ (offerCase : OfferCaseOf Statement) (node depth : Nat) (path : List PathSegment),
    workspace.Drawn node (caseBlueprint offerCase) →
    (caseBlueprint offerCase).size ≤ depth →
      (reader.member path .offerCase (reader.offerCase (reader.statement depth)) node).value =
        keptCase? offerCase
  | ⟨some condition, message, choices, body⟩, node, depth, path, hDrawn, hDepth => by
    rw [caseBlueprint] at hDrawn hDepth
    obtain ⟨hFilter, hOffers, hActions, -⟩ := hDrawn.sockets
    simp only [size, socketsSize, socketSize] at hDepth
    have hInput : (reader.view.input? node Input.filter).isSome = true := by
      rw [hOver.view, hFilter.1]
      rfl
    have hCondition : (reader.caseCondition ⟨node, path⟩ .offerCase).Gives
        ((some condition).toList.flatMap BooleanExpression.requiredNames) (some condition) := by
      rw [caseCondition, if_pos ⟨rfl, hInput⟩, Option.toList_some, List.flatMap_singleton]
      exact (gives_boolean hOver hScope (by decide) hFilter).mapSome some
    rw [keptCase?]
    exact gives_case hOver hScope hDrawn rfl hCondition hOffers hActions
      (value_keptItems hOver hScope body _ depth _ hActions.2.chainDrawn (by omega))
  | ⟨none, message, choices, body⟩, node, depth, path, hDrawn, hDepth => by
    rw [caseBlueprint] at hDrawn hDepth
    obtain ⟨hOffers, hActions, -⟩ := hDrawn.sockets
    simp only [size, socketsSize, socketSize] at hDepth
    rw [keptCase?]
    exact gives_case hOver hScope hDrawn rfl (ifNamed_nil _).symm hOffers hActions
      (value_keptItems hOver hScope body _ depth _ hActions.2.chainDrawn (by omega))

end

/-! ## Programs -/

section

variable (hOver : reader.Over workspace) (hScope : reader.scope? = none)

include hOver hScope

theorem value_chain {statement : Statement} {link? : Option ParentLink}
    (hHangs : workspace.Hangs free link? statement.blueprints) (path : List PathSegment) :
    (reader.chainStatement (reader.statement reader.depthLimit) path
      (chainNodes free statement.blueprints).head?).value = statement.kept := by
  have hDepth : chainSize statement.blueprints ≤ reader.depthLimit := by
    rw [depthLimit, hOver.view, Workspace.size_view]
    exact Nat.le_succ_of_le hHangs.size_le
  rw [chainStatement, chain_eq hOver hHangs, value_bind, value_pure,
    value_keptItems hOver hScope statement free _ path hHangs.chainDrawn hDepth]
  rfl

theorem value_keptPhase {entry : String × Statement}
    (hHangs : workspace.Hangs free none (phaseChain entry)) :
    (reader.phase free).value = (ifNamed [entry.1] entry.1, entry.2.kept) := by
  have hField : reader.view.field? (Spot.mk free []).node Field.phase = some entry.1 :=
    field?_of_leaf hOver hHangs.chainDrawn.1
  have hName : (reader.requiredField ⟨free, []⟩ Field.phase).Gives [entry.1] entry.1 :=
    (recovers_requiredField hField).gives ((allOrNothing_closed reader).requiredField _)
  obtain ⟨-, hNext, hBody⟩ := hHangs.first
  have hStatement := value_chain hOver hScope hBody []
  rw [← hNext, ← hOver.view] at hStatement
  rw [phase, value_bind, value_bind, value_pure, hName, hStatement]

/-- **The phases with names are read from the chains of their hats**, without their unnamed
parts. -/
theorem value_addPhases {entries : List (String × Statement)} {known result : Phases}
    (hHang : workspace.ChainsHang free (entries.map phaseChain))
    (hResult : result.entries = known.entries ++
      (entries.filter (·.1 ≠ "")).map fun entry => (entry.1, entry.2.kept)) :
    (reader.addPhases known (chainHeads free (entries.map phaseChain))).value = result := by
  induction entries generalizing free known with
  | nil =>
    rw [List.filter_nil, List.map_nil, List.append_nil] at hResult
    exact NameMap.eq_of_entries_eq hResult.symm
  | cons entry entries ih =>
    obtain ⟨hFirst, hRest⟩ := hHang
    have hPhase := value_keptPhase hOver hScope hFirst
    have hHats : chainHeads free ((entry :: entries).map phaseChain) =
        free :: chainHeads (free + chainSize (phaseChain entry)) (entries.map phaseChain) := rfl
    rw [hHats, addPhases, value_bind, hPhase]
    by_cases hName : entry.1 = ""
    · rw [ifNamed_of_mem (List.mem_singleton.mpr hName.symm)]
      rw [List.filter_cons_of_neg (by simpa using hName)] at hResult
      exact ih hRest hResult
    · rw [ifNamed_of_not_mem fun hEmpty => hName (List.mem_singleton.mp hEmpty).symm]
      rw [List.filter_cons_of_pos (by simpa using hName), List.map_cons] at hResult
      -- the entries come in the order of their names, so every one is new and comes last
      have hSorted := result.sorted
      rw [hResult] at hSorted
      have hLt : ∀ other ∈ known.entries, other.1 < entry.1 := by
        obtain ⟨-, -, hAcross⟩ := List.pairwise_append.mp hSorted
        exact fun other hOther =>
          hAcross other hOther (entry.1, entry.2.kept) List.mem_cons_self
      dsimp only
      rw [NameMap.contains_of_forall_lt hLt]
      refine ih hRest ?_
      rw [hResult, NameMap.entries_insert_of_forall_lt hLt, List.append_assoc]
      rfl

end

end Reader

open Blueprint

variable {vocabulary : Vocabulary}

/-- **What comes back from a drawn statement** is the statement without its unnamed parts, whatever
is looked up in the vocabulary besides the canonical tags, and whether references are checked or
not. -/
theorem Statement.value_drawn (statement : Statement)
    (hVocabulary : ∀ kind : BlockKind, vocabulary.kind? kind.tag = some kind)
    (options : ReadOptions) :
    ((Reader.ofView statement.drawn.view vocabulary options).readChain
      (chainNodes 0 statement.blueprints).head?).value = statement.kept := by
  have hOver := Reader.over_ofView statement.forest_drawn hVocabulary .unchecked
  rw [(Reader.alike_readChain _ _).value]
  exact Reader.value_chain hOver rfl statement.hangs_drawn []

/-- **What comes back from drawn phases** are the phases with names, without their unnamed parts. -/
theorem Phases.value_drawn (phases : Phases)
    (hVocabulary : ∀ kind : BlockKind, vocabulary.kind? kind.tag = some kind)
    (options : ReadOptions) :
    (Reader.ofView phases.drawn.view vocabulary options).readPhases.value = phases.kept := by
  have hOver := Reader.over_ofView phases.insertChains_blueprints.2 hVocabulary .unchecked
  have hBlocks : phases.drawn.BlocksAt 0 (chainsLayout 0 (phases.entries.map phaseChain)) :=
    Workspace.blocksAt_extend
  have hNodes : phases.drawn.view.nodes =
      (chainsLayout 0 (phases.entries.map phaseChain)).map Block.number :=
    Workspace.nodes_extend_empty _
  have hHats := Reader.filter_isTopHat hOver hBlocks
  rw [← hNodes] at hHats
  rw [(Reader.alike_readPhases _).value]
  refine (congrArg (fun hats => (Reader.addPhases _ _ hats).value) hHats).trans ?_
  exact Reader.value_addPhases hOver rfl (hBlocks.chainsHang phases.chainEvery_nodup_blueprints) rfl

/-! ## A second time -/

namespace Statement

theorem canonical_kept (statement : Statement) : statement.kept.Canonical := by
  rw [← statement.value_drawn Vocabulary.kind?_canonical_tag .unchecked]
  exact Reader.canonical_readChain _ _

theorem Canonical.kept_eq {statement : Statement} (hCanonical : statement.Canonical) :
    statement.kept = statement := by
  have hRecovers := statement.recovers_drawnReading_unchecked
  calc statement.kept
      = (statement.drawnReading .unchecked).value :=
        (statement.value_drawn Vocabulary.kind?_canonical_tag .unchecked).symm
    _ = statement.normalForm := (hRecovers.clean hCanonical.required).1
    _ = statement := hCanonical.normal

end Statement

namespace Phases

theorem canonical_kept (phases : Phases) :
    ∀ entry ∈ phases.kept.entries, entry.1 ≠ "" ∧ entry.2.Canonical := by
  rw [← phases.value_drawn Vocabulary.kind?_canonical_tag .unchecked]
  exact Reader.canonical_readPhases _

theorem kept_eq_of_canonical {phases : Phases}
    (hEntries : ∀ entry ∈ phases.entries, entry.1 ≠ "" ∧ entry.2.Canonical) :
    phases.kept = phases := by
  have hNames : phases.entries.filter (·.1 ≠ "") = phases.entries :=
    List.filter_eq_self.mpr fun entry hEntry => by simpa using (hEntries entry hEntry).1
  have hKept : phases.entries.map (fun entry => (entry.1, entry.2.kept)) = phases.entries :=
    (List.map_congr_left fun entry hEntry =>
      congrArg (entry.1, ·) (hEntries entry hEntry).2.kept_eq).trans (List.map_id _)
  refine NameMap.eq_of_entries_eq ?_
  rw [Phases.kept]
  dsimp only
  rw [hNames, hKept]

end Phases

end RuleBlocks
