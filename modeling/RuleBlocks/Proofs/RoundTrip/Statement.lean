import RuleBlocks.Blueprint.Statement
import RuleBlocks.Proofs.RoundTrip.Expression
import RuleBlocks.Reading.Statement

/-!
# Reading drawn statements

A reader recovers the items of every statement from the chain of blocks that was drawn for it, down
to any depth that is not less than the number of these blocks (`recovers_items`). Every member of
the chain is supposed to see an environment; what is reported are the references that lead nowhere
in that environment.

What the members of inner chains see follows from what their holders bind: nothing for branches and
loops, the player for the cases of an offer, and the selections for the chains of a case. A choice
does not see its own selection, so choices are read with those before and after them in view
(`recovers_choices`).
-/

namespace RuleBlocks

/-- The tag of the type of a choice says what is bound. -/
theorem ChoiceType.exists_ofTag?_tag (choiceType : ChoiceType) :
    ∃ source, SelectionCategories.ofTag? choiceType.tag =
      some ⟨choiceType.boundCategory, source⟩ := by
  cases choiceType with
  | player players | playerSelection players => exact ⟨.playerCollection, rfl⟩
  | card cards | cardSelection cards => exact ⟨.cardCollection, rfl⟩

namespace Reader

open Reading Blueprint

variable {reader : Reader} {workspace : Workspace} {node holder : NodeId} {kind : BlockKind}
variable {fields : List (String × String)} {sockets : List (SocketOf Blueprint)} {free : Nat}
variable {visible bound : List (Category × String)} {path : List PathSegment} {α : Type}
variable {names : List String} {unresolved : List (Category × String)}

/-! ## Members of chains -/

section

variable (hOver : reader.Over workspace)

include hOver

theorem chain_eq {link? : Option ParentLink} {chain : List Blueprint}
    (hHangs : workspace.Hangs free link? chain) :
    reader.chain (chainNodes free chain).head? = chainNodes free chain := by
  have hLength := length_le_chainSize chain
  rw [Reader.chain, hOver.view]
  refine hHangs.chain_eq (Nat.le_trans hLength ?_)
  rw [Workspace.size_view]
  exact hHangs.size_le

/-- The members of a drawn chain are read one after the other. -/
theorem members_eq_collect {chain : List Blueprint} {input : String} {role : BlockRole}
    (hSocket : workspace.SocketDrawn node free (.parts input chain))
    (read : Spot → BlockKind → Reading (Option α)) :
    reader.members path (reader.view.input? node input) role read =
      collect (reader.member path role read) (chainNodes free chain) := by
  obtain ⟨hInput, hHangs⟩ := hSocket
  rw [members_eq, hOver.view, hInput, chain_eq hOver hHangs]

/-- The members of a drawn body are read one after the other. -/
theorem body_eq_collect {chain : List Blueprint} {input : String}
    (hSocket : workspace.SocketDrawn node free (.body input chain))
    (read : Spot → Reading (Option Statement)) :
    reader.body read ⟨node, path⟩ input =
      collect (fun inner => read ⟨inner, Spot.within ⟨node, path⟩ input⟩)
        (chainNodes free chain) >>= fun statements => pure (.ofChain statements) := by
  obtain ⟨hInput, hHangs⟩ := hSocket
  rw [Reader.body, hOver.view, hInput, chainStatement, chain_eq hOver hHangs]

/-- The statement of a single drawn block is read one step less deep inside. -/
theorem statement_eq_statementOf {depth : Nat}
    (hDrawn : workspace.ChainDrawn free [.block kind fields sockets])
    (hDepth : chainSize [.block kind fields sockets] ≤ depth) (path : List PathSegment) :
    ∃ inner, depth = inner + 1 ∧ socketsSize sockets ≤ inner ∧
      reader.statement depth ⟨free, path⟩ =
        reader.statementOf (reader.statement inner) ⟨free, path⟩ kind := by
  rw [chainSize, chainSize, size] at hDepth
  obtain ⟨inner, rfl⟩ : ∃ inner, depth = inner + 1 := ⟨depth - 1, by omega⟩
  have hKind : reader.kind ⟨free, path⟩ = pure (some kind) := kind_eq_pure (hOver.kind? hDrawn.1)
  refine ⟨inner, rfl, by omega, ?_⟩
  rw [Reader.statement, hKind, pure_andThen]

theorem recovers_member (hDrawn : workspace.Drawn node (.block kind fields sockets))
    {role : BlockRole} (hRole : kind.role = role) {read : Spot → BlockKind → Reading (Option α)}
    {value : α}
    (hRead : reader.Recovers (read ⟨node, path⟩ kind) (some value) names unresolved) :
    reader.Recovers (reader.member path role read node) (some value) names unresolved := by
  have hKind : reader.kind ⟨node, path⟩ = pure (some kind) := kind_eq_pure (hOver.kind? hDrawn)
  rw [member, hKind, pure_andThen, if_pos hRole]
  exact hRead

/-- A member of a chain sees what the holder binds for it, and what the holder sees. -/
theorem sees_of_hangs {input : String} {chain : List Blueprint} {member : NodeId}
    (hHangs : workspace.Hangs free (some ⟨holder, .statement input⟩) chain)
    (hMember : member ∈ chainNodes free chain)
    (hBound : ∀ scope, reader.scope? = some scope → ∀ category name,
      name ∈ (scope.bindings category holder (some member)).map Binding.name ↔
        (category, name) ∈ bound)
    (hSees : reader.Sees holder visible) : reader.Sees member (bound ++ visible) := by
  have hMembers : ∀ member ∈ chainNodes free chain, workspace.InChainOf holder member :=
    hHangs.forall_mem (fun member hParent => hOver.forest.inChainOf_first hParent)
      fun previous member hPrevious hParent => hOver.forest.inChainOf_next hPrevious hParent
  intro scope hScope
  obtain ⟨hView, -⟩ := hOver.scope scope hScope
  exact Scope.sees_member hOver.forest hView (hMembers member hMember) (hBound scope hScope)
    (hSees scope hScope)

theorem scope_kind? (hDrawn : workspace.Drawn node (.block kind fields sockets)) {scope : Scope}
    (hScope : reader.scope? = some scope) :
    scope.view.kind? scope.vocabulary node = some kind := by
  obtain ⟨hView, hVocabulary⟩ := hOver.scope scope hScope
  rw [hView, hVocabulary, ← hOver.view]
  exact hOver.kind? hDrawn

/-- A holder that binds nothing is seen through. -/
theorem sees_of_no_bindings {input : String} {chain : List Blueprint}
    (hDrawn : workspace.Drawn holder (.block kind fields sockets))
    (hNot : kind ≠ .offer ∧ kind.role ≠ .offerCase)
    (hHangs : workspace.Hangs free (some ⟨holder, .statement input⟩) chain)
    (hSees : reader.Sees holder visible) :
    ∀ member ∈ chainNodes free chain, reader.Sees member visible := by
  intro member hMember
  have hMemberSees : reader.Sees member ([] ++ visible) := by
    refine sees_of_hangs hOver hHangs hMember (fun scope hScope category name => ?_) hSees
    rw [Scope.bindings_eq_nil (scope_kind? hOver hDrawn hScope) hNot]
    simp
  exact hMemberSees

/-- The cases of an offer see its player. -/
theorem sees_cases {playerName : String} {input : String} {chain : List Blueprint}
    (hDrawn : workspace.Drawn holder (.block .offer [(Field.playerName, playerName)] sockets))
    (hName : playerName ≠ "")
    (hHangs : workspace.Hangs free (some ⟨holder, .statement input⟩) chain)
    (hSees : reader.Sees holder visible) :
    ∀ member ∈ chainNodes free chain, reader.Sees member ([(.player, playerName)] ++ visible) := by
  intro member hMember
  refine sees_of_hangs hOver hHangs hMember (fun scope hScope category name => ?_) hSees
  obtain ⟨hView, -⟩ := hOver.scope scope hScope
  have hField := field?_of_leaf hOver hDrawn
  rw [hOver.view, ← hView] at hField
  have hFilled : scope.view.filledField? holder Field.playerName = some playerName := by
    rw [View.filledField?, hField, Option.filter_some_pos (by simpa using hName)]
  rw [Scope.bindings_of_offer (scope_kind? hOver hDrawn hScope)]
  by_cases hCategory : category = .player
  · simp [hCategory, Scope.playerBindings, hFilled]
  · simp [hCategory]

/-! ## Choices -/

theorem fields_of_selection {name : String} {choiceType : ChoiceType}
    (hDrawn : workspace.Drawn node (OfferChoice.selection name choiceType).blueprint) :
    reader.view.field? node Field.selectedAs = some name ∧
      reader.view.field? node Field.choiceType = some choiceType.tag := by
  have hFields : ([(Field.selectedAs, name), (Field.choiceType, choiceType.tag)].map
      Prod.fst).Nodup := by simp [Field.selectedAs, Field.choiceType]
  exact ⟨hOver.field? hDrawn hFields List.mem_cons_self,
    hOver.field? hDrawn hFields (List.mem_cons_of_mem _ List.mem_cons_self)⟩

/-- What a selection binds is what its choice binds. -/
theorem mem_selectionBinding {choice : OfferChoice} (hDrawn : workspace.Drawn node choice.blueprint)
    {scope : Scope} (hScope : reader.scope? = some scope) (category : Category) (name : String) :
    name ∈ ((scope.selectionBinding? category node).toList.map Binding.name) ↔
      (category, name) ∈ choice.bound := by
  obtain ⟨hView, -⟩ := hOver.scope scope hScope
  cases choice with
  | action done =>
    cases done with
    | moveCards source dest =>
      rw [Scope.selectionBinding?, scope_kind? hOver hDrawn hScope]
      simp [OfferChoice.bound]
  | selection selected choiceType =>
    obtain ⟨hName, hType⟩ := fields_of_selection hOver hDrawn
    rw [hOver.view, ← hView] at hName hType
    rw [Scope.selectionBinding?, scope_kind? hOver hDrawn hScope, if_pos rfl, View.filledField?,
      hName, hType]
    by_cases hEmpty : selected = ""
    · subst hEmpty
      rw [Option.filter_some_neg (by simp)]
      simp [OfferChoice.bound]
    · obtain ⟨source, hSource⟩ := choiceType.exists_ofTag?_tag
      rw [Option.filter_some_pos (by simpa using hEmpty)]
      simp only [Option.bind_eq_bind, Option.bind_some, hSource, OfferChoice.bound, if_neg hEmpty]
      by_cases hCategory : choiceType.boundCategory = category
      · simp [hCategory]
      · simp [hCategory, Ne.symm hCategory]

theorem mem_selectionBindings {choices : List OfferChoice}
    (hDrawn : workspace.ChainDrawn free (choices.map OfferChoice.blueprint)) {scope : Scope}
    (hScope : reader.scope? = some scope) (category : Category) (name : String) :
    name ∈ ((chainNodes free (choices.map OfferChoice.blueprint)).filterMap
      (scope.selectionBinding? category)).map Binding.name ↔
        (category, name) ∈ choices.flatMap OfferChoice.bound := by
  induction choices generalizing free with
  | nil => simp [chainNodes]
  | cons choice choices ih =>
    have hFirst := mem_selectionBinding hOver hDrawn.1 hScope category name
    have hRest := ih hDrawn.2
    rw [List.map_cons, chainNodes, List.flatMap_cons, List.mem_append, ← hFirst, ← hRest,
      List.filterMap_cons]
    cases scope.selectionBinding? category free <;> simp

/-- A choice is read from its block. -/
theorem recovers_choice {choice : OfferChoice} (hDrawn : workspace.Drawn node choice.blueprint)
    (hSees : reader.Sees node visible) :
    reader.Recovers (reader.member path .offerChoice reader.offerChoice node) (some choice)
      choice.requiredNames (missing visible choice.references) := by
  cases choice with
  | action done =>
    cases done with
    | moveCards source dest =>
      obtain ⟨hSource, hDest, -⟩ := hDrawn.sockets
      refine recovers_member hOver hDrawn rfl ?_
      rw [OfferChoice.references, missing_append]
      exact ((recovers_parts _).and (recovers_zone hOver hSource hSees path)).and
        (recovers_zone hOver hDest hSees path)
  | selection name choiceType =>
    obtain ⟨hName, hType⟩ := fields_of_selection hOver hDrawn
    obtain ⟨source, hSource⟩ := choiceType.exists_ofTag?_tag
    rw [ChoiceType.tag, ← Category.trim_tag] at hSource
    have hCategories : reader.Recovers (reader.parsedField ⟨node, path⟩ Field.choiceType
        SelectionCategories.ofTag?) (some ⟨choiceType.boundCategory, source⟩) [] [] :=
      recovers_parsedField hType choiceType.boundCategory.tag_ne_empty hSource
    obtain ⟨hPlayers, -⟩ := hDrawn.sockets
    refine recovers_member hOver hDrawn rfl ?_
    refine ((recovers_parts _).and (recovers_requiredField hName)).and (hCategories.andThen ?_)
    cases choiceType with
    | player players => exact (recovers_playerCollection hOver hPlayers hSees path).mapSome
    | playerSelection players => exact (recovers_playerCollection hOver hPlayers hSees path).mapSome
    | card cards => exact (recovers_cardCollection hOver hPlayers hSees path).mapSome
    | cardSelection cards => exact (recovers_cardCollection hOver hPlayers hSees path).mapSome

/-- Choices after others are read, each with what the others of its case bind in view. -/
theorem recovers_choices {before after : List OfferChoice}
    (hDrawn : workspace.ChainDrawn free (after.map OfferChoice.blueprint))
    (hSees : ∀ first choice rest, after = first ++ choice :: rest →
      reader.Sees (free + chainSize (first.map OfferChoice.blueprint))
        ((before ++ first ++ rest).flatMap OfferChoice.bound ++ visible)) :
    reader.Recovers (collect (reader.member path .offerChoice reader.offerChoice)
      (chainNodes free (after.map OfferChoice.blueprint))) after
      (after.flatMap OfferChoice.requiredNames) (OfferChoice.unresolved visible before after) := by
  induction after generalizing free before with
  | nil => exact recovers_collect_nil _
  | cons choice rest ih =>
    obtain ⟨hFirst, hRest⟩ := hDrawn
    have hFirstSees := hSees [] choice rest rfl
    rw [List.append_nil] at hFirstSees
    refine (recovers_choice hOver hFirst hFirstSees).collect_cons (ih hRest ?_)
    rintro first other rest rfl
    have hOther := hSees (choice :: first) other rest rfl
    rw [List.map_cons, chainSize, ← Nat.add_assoc] at hOther
    simpa using hOther

/-! ## Cases -/

/-- A case binds the selections among its choices, other than the one that is looked from. -/
theorem bindings_of_case {choices : List OfferChoice}
    (hDrawn : workspace.Drawn holder (.block kind fields sockets))
    (hKind : kind = .offerCase ∨ kind = .openOfferCase)
    (hOffers : workspace.SocketDrawn holder free
      (.parts Input.offers (choices.map OfferChoice.blueprint)))
    {scope : Scope} (hScope : reader.scope? = some scope) (category : Category) (member : NodeId) :
    scope.bindings category holder (some member) =
      ((chainNodes free (choices.map OfferChoice.blueprint)).filter (· ≠ member)).filterMap
        (scope.selectionBinding? category) := by
  obtain ⟨hView, -⟩ := hOver.scope scope hScope
  obtain ⟨hInput, hHangs⟩ := hOffers
  have hChain : scope.view.chain scope.view.size (scope.view.input? holder Input.offers) =
      chainNodes free (choices.map OfferChoice.blueprint) := by
    rw [hView, hInput, ← hOver.view]
    exact chain_eq hOver hHangs
  have hFilter : ∀ nodes : List NodeId,
      (nodes.filter fun choice => some member ≠ some choice) = nodes.filter (· ≠ member) := by
    intro nodes
    refine List.filter_congr fun choice _ => ?_
    simp [eq_comm]
  have hRole : kind.role = .offerCase := by rcases hKind with rfl | rfl <;> rfl
  rw [Scope.bindings_of_case (scope_kind? hOver hDrawn hScope) hRole, hChain, hFilter]

/-- The body of a case sees all its selections. -/
theorem sees_actions {choices : List OfferChoice} {chain : List Blueprint}
    (hDrawn : workspace.Drawn holder (.block kind fields sockets))
    (hKind : kind = .offerCase ∨ kind = .openOfferCase)
    (hOffers : workspace.SocketDrawn holder free
      (.parts Input.offers (choices.map OfferChoice.blueprint)))
    (hActions : workspace.Hangs (free + chainSize (choices.map OfferChoice.blueprint))
      (some ⟨holder, .statement Input.actions⟩) chain)
    (hSees : reader.Sees holder visible) :
    ∀ member ∈ chainNodes (free + chainSize (choices.map OfferChoice.blueprint)) chain,
      reader.Sees member (choices.flatMap OfferChoice.bound ++ visible) := by
  intro member hMember
  refine sees_of_hangs hOver hActions hMember (fun scope hScope category name => ?_) hSees
  rw [bindings_of_case hOver hDrawn hKind hOffers hScope,
    filter_chainNodes_of_le (mem_chainNodes_bounds hMember).1]
  exact mem_selectionBindings hOver hOffers.2.chainDrawn hScope category name

/-- A choice sees the selections of the other choices of its case. -/
theorem sees_choice {first rest : List OfferChoice} {choice : OfferChoice}
    (hDrawn : workspace.Drawn holder (.block kind fields sockets))
    (hKind : kind = .offerCase ∨ kind = .openOfferCase)
    (hOffers : workspace.SocketDrawn holder free
      (.parts Input.offers ((first ++ choice :: rest).map OfferChoice.blueprint)))
    (hSees : reader.Sees holder visible) :
    reader.Sees (free + chainSize (first.map OfferChoice.blueprint))
      ((first ++ rest).flatMap OfferChoice.bound ++ visible) := by
  have hChain := hOffers.2.chainDrawn
  have hMember : free + chainSize (first.map OfferChoice.blueprint) ∈
      chainNodes free ((first ++ choice :: rest).map OfferChoice.blueprint) := by
    rw [List.map_append, chainNodes_append, List.map_cons, chainNodes]
    exact List.mem_append_right _ List.mem_cons_self
  rw [List.map_append, Workspace.chainDrawn_append, List.map_cons] at hChain
  obtain ⟨hFirst, -, hRest⟩ := hChain
  refine sees_of_hangs hOver hOffers.2 hMember (fun scope hScope category name => ?_) hSees
  rw [bindings_of_case hOver hDrawn hKind hOffers hScope, List.map_append, List.map_cons,
    filter_chainNodes, List.filterMap_append, List.map_append, List.mem_append, List.flatMap_append,
    List.mem_append, mem_selectionBindings hOver hFirst hScope,
    mem_selectionBindings hOver hRest hScope]

variable {read : Spot → Reading (Option Statement)}

/-- The chain in an input is read as its statement if its items are read. -/
theorem recovers_body {body : Statement} {input : String}
    (hSocket : workspace.SocketDrawn node free (.body input body.blueprints))
    (hItems : reader.Recovers
      (collect (fun inner => read ⟨inner, Spot.within ⟨node, path⟩ input⟩)
        (chainNodes free body.blueprints)) body.items names unresolved) :
    reader.Recovers (reader.body read ⟨node, path⟩ input) body.normalForm names unresolved := by
  rw [body_eq_collect hOver hSocket]
  exact hItems.map Statement.ofChain

/-- A case is read if its condition and its body are. -/
theorem recovers_caseParts {condition : Option BooleanExpression} {message : String}
    {choices : List OfferChoice} {body : Statement}
    (hDrawn : workspace.Drawn node (.block kind [(Field.prompt, message)] sockets))
    (hKind : kind = .offerCase ∨ kind = .openOfferCase) (hSees : reader.Sees node visible)
    (hCondition : reader.Recovers (reader.caseCondition ⟨node, path⟩ kind) (some condition)
      (condition.toList.flatMap BooleanExpression.requiredNames)
      (missing visible (condition.toList.flatMap BooleanExpression.references)))
    (hOffers : workspace.SocketDrawn node free
      (.parts Input.offers (choices.map OfferChoice.blueprint)))
    (hActions : workspace.SocketDrawn node (free + chainSize (choices.map OfferChoice.blueprint))
      (.body Input.actions body.blueprints))
    (hBody : (∀ member ∈ chainNodes (free + chainSize (choices.map OfferChoice.blueprint))
        body.blueprints, reader.Sees member (choices.flatMap OfferChoice.bound ++ visible)) →
      reader.Recovers (collect (fun inner => read ⟨inner, Spot.within ⟨node, path⟩ Input.actions⟩)
        (chainNodes (free + chainSize (choices.map OfferChoice.blueprint)) body.blueprints))
        body.items body.requiredNames
        (body.unresolved (choices.flatMap OfferChoice.bound ++ visible))) :
    reader.Recovers (reader.member path .offerCase (reader.offerCase read) node)
      (some (Statement.normalCase ⟨condition, message, choices, body⟩))
      (Statement.requiredNamesOfCase ⟨condition, message, choices, body⟩)
      (Statement.unresolvedInCase visible ⟨condition, message, choices, body⟩) := by
  have hRole : kind.role = .offerCase := by
    rcases hKind with rfl | rfl <;> rfl
  have hMessage : (reader.view.field? node Field.prompt).getD "" = message := by
    rw [field?_of_leaf hOver hDrawn]
    rfl
  have hChoices : reader.Recovers (reader.members (Spot.within ⟨node, path⟩ Input.offers)
      (reader.view.input? node Input.offers) .offerChoice reader.offerChoice) choices
      (choices.flatMap OfferChoice.requiredNames) (OfferChoice.unresolved visible [] choices) := by
    rw [members_eq_collect hOver hOffers]
    refine recovers_choices hOver hOffers.2.chainDrawn fun first choice rest hSplit => ?_
    subst hSplit
    exact sees_choice hOver hDrawn hKind hOffers hSees
  have hStatement := recovers_body hOver hActions
    (hBody (sees_actions hOver hDrawn hKind hOffers hActions.2 hSees))
  refine recovers_member hOver hDrawn hRole ?_
  rw [Reader.offerCase, hMessage]
  exact (((recovers_parts _).and hCondition).and hChoices.always).and hStatement.always

/-! ## Statements -/

/-- A chain of a single block is read as the statement of that block, with what is inside it read
one step less deep. -/
theorem recovers_single {depth : Nat} {statement : Statement}
    (hDrawn : workspace.ChainDrawn free [.block kind fields sockets])
    (hSees : ∀ member ∈ chainNodes free [.block kind fields sockets], reader.Sees member visible)
    (hDepth : chainSize [.block kind fields sockets] ≤ depth)
    (hStatement : ∀ inner, socketsSize sockets ≤ inner →
      workspace.Drawn free (.block kind fields sockets) → reader.Sees free visible →
      reader.Recovers (reader.statementOf (reader.statement inner) ⟨free, path⟩ kind)
        (some statement) names unresolved) :
    reader.Recovers (collect (fun inner => reader.statement depth ⟨inner, path⟩)
      (chainNodes free [.block kind fields sockets])) [statement] names unresolved := by
  obtain ⟨inner, rfl, hInner, hOf⟩ := statement_eq_statementOf hOver hDrawn hDepth path
  have hRead : reader.Recovers (reader.statement (inner + 1) ⟨free, path⟩) (some statement) names
      unresolved := by
    rw [hOf]
    exact hStatement inner hInner hDrawn.1 (hSees free List.mem_cons_self)
  have hChain := hRead.collect_cons
    (recovers_collect_nil fun node => reader.statement (inner + 1) ⟨node, path⟩)
  rwa [List.append_nil, List.append_nil] at hChain

theorem recovers_cardSet
    (hDrawn : workspace.Drawn node (.block kind [(Field.cards, Setting.allAllowed)] sockets)) :
    reader.Recovers (reader.cardSet ⟨node, path⟩) (some .allAllowed) [] [] := by
  have hFilled : reader.view.filledField? node Field.cards = some Setting.allAllowed := by
    rw [View.filledField?, field?_of_leaf hOver hDrawn]
    rfl
  rw [cardSet, hFilled]
  exact recovers_pure _

/-- An offer is read if its cases are. -/
theorem recovers_offer {offerTo : PlayerCollectionExpression} {playerName : Option String}
    {cases : List OfferCase} {caseFree : Nat} {unresolvedCases : List (Category × String)}
    (hPlayer : reader.Recovers (reader.offerPlayer ⟨node, path⟩ kind) (some playerName) [] [])
    (hOfferTo : workspace.SocketDrawn node free (.value Input.offerTo offerTo.blueprint))
    (hSees : reader.Sees node visible)
    (hHolds : workspace.SocketDrawn node caseFree
      (.parts Input.cases (Statement.caseBlueprints cases)))
    (hCases : reader.Recovers
      (collect (reader.member (Spot.within ⟨node, path⟩ Input.cases) .offerCase
        (reader.offerCase read)) (chainNodes caseFree (Statement.caseBlueprints cases)))
      (Statement.normalCases cases) (Statement.requiredNamesOfCases cases) unresolvedCases) :
    reader.Recovers (reader.offer read ⟨node, path⟩ kind)
      (some (.offer offerTo playerName (Statement.normalCases cases)))
      (offerTo.requiredNames ++ Statement.requiredNamesOfCases cases)
      (missing visible offerTo.references ++ unresolvedCases) := by
  have hMembers : reader.Recovers (reader.members (Spot.within ⟨node, path⟩ Input.cases)
      (reader.view.input? node Input.cases) .offerCase (reader.offerCase read))
      (Statement.normalCases cases) (Statement.requiredNamesOfCases cases) unresolvedCases := by
    rw [members_eq_collect hOver hHolds]
    exact hCases
  exact (((recovers_parts _).and hPlayer).and
    (recovers_playerCollection hOver hOfferTo hSees path)).and hMembers.always

end

open Statement in
mutual

/-- **The items of a statement are read from its chain.** -/
theorem recovers_items (hOver : reader.Over workspace) : ∀ (statement : Statement)
    (free depth : Nat) (path : List PathSegment) (visible : List (Category × String)),
    workspace.ChainDrawn free statement.blueprints →
    (∀ member ∈ chainNodes free statement.blueprints, reader.Sees member visible) →
    chainSize statement.blueprints ≤ depth →
      reader.Recovers (collect (fun inner => reader.statement depth ⟨inner, path⟩)
        (chainNodes free statement.blueprints)) statement.items statement.requiredNames
        (statement.unresolved visible)
  | .empty, free, depth, path, visible, _, _, _ => by
    rw [blueprints, items, requiredNames, Statement.unresolved]
    exact recovers_collect_nil _
  | .block items, free, depth, path, visible, hDrawn, hSees, hDepth => by
    rw [blueprints] at hDrawn hSees hDepth ⊢
    rw [Statement.items, requiredNames, Statement.unresolved]
    exact recovers_itemsOfAll hOver items free depth path visible hDrawn hSees hDepth
  | .enterPhase name, free, depth, path, visible, hDrawn, hSees, hDepth => by
    rw [blueprints] at hDrawn hSees hDepth ⊢
    rw [items, requiredNames, Statement.unresolved]
    refine recovers_single hOver hDrawn hSees hDepth fun inner _ hBlock _ => ?_
    exact (recovers_requiredField (field?_of_leaf hOver hBlock)).mapSome
  | .setNumber name value, free, depth, path, visible, hDrawn, hSees, hDepth => by
    rw [blueprints] at hDrawn hSees hDepth ⊢
    rw [items, requiredNames, Statement.unresolved]
    refine recovers_single hOver hDrawn hSees hDepth fun inner _ hBlock hBlockSees => ?_
    obtain ⟨hValue, -⟩ := hBlock.sockets
    exact ((recovers_parts _).and (recovers_requiredField (field?_of_leaf hOver hBlock))).and
      (recovers_number hOver hValue hBlockSees path)
  | .conditional condition goTrue goFalse, free, depth, path, visible, hDrawn, hSees, hDepth => by
    rw [blueprints] at hDrawn hSees hDepth ⊢
    rw [items, requiredNames, Statement.unresolved]
    refine recovers_single hOver hDrawn hSees hDepth fun inner hInner hBlock hBlockSees => ?_
    obtain ⟨hCondition, hTrue, hFalse, -⟩ := hBlock.sockets
    simp only [socketsSize, socketSize] at hInner
    have hNot : BlockKind.ifElse ≠ .offer ∧ BlockKind.ifElse.role ≠ .offerCase := by decide
    have hTrueItems := recovers_items hOver goTrue _ inner (Spot.within ⟨free, path⟩ Input.goTrue)
      visible hTrue.2.chainDrawn
      (sees_of_no_bindings hOver hBlock hNot hTrue.2 hBlockSees) (by omega)
    have hFalseItems := recovers_items hOver goFalse _ inner
      (Spot.within ⟨free, path⟩ Input.goFalse) visible hFalse.2.chainDrawn
      (sees_of_no_bindings hOver hBlock hNot hFalse.2 hBlockSees) (by omega)
    exact (((recovers_parts _).and (recovers_boolean hOver hCondition hBlockSees path)).and
      (recovers_body hOver hTrue hTrueItems).always).and
      (recovers_body hOver hFalse hFalseItems).always
  | .repeatWhile condition body, free, depth, path, visible, hDrawn, hSees, hDepth => by
    rw [blueprints] at hDrawn hSees hDepth ⊢
    rw [items, requiredNames, Statement.unresolved]
    refine recovers_single hOver hDrawn hSees hDepth fun inner hInner hBlock hBlockSees => ?_
    obtain ⟨hCondition, hBody, -⟩ := hBlock.sockets
    simp only [socketsSize, socketSize] at hInner
    have hBodyItems := recovers_items hOver body _ inner (Spot.within ⟨free, path⟩ Input.body)
      visible hBody.2.chainDrawn
      (sees_of_no_bindings hOver hBlock (by decide) hBody.2 hBlockSees) (by omega)
    exact ((recovers_parts _).and (recovers_boolean hOver hCondition hBlockSees path)).and
      (recovers_body hOver hBody hBodyItems).always
  | .shuffle zones, free, depth, path, visible, hDrawn, hSees, hDepth => by
    rw [blueprints] at hDrawn hSees hDepth ⊢
    rw [items, requiredNames, Statement.unresolved]
    refine recovers_single hOver hDrawn hSees hDepth fun inner _ hBlock hBlockSees => ?_
    obtain ⟨hZones, -⟩ := hBlock.sockets
    exact (recovers_zoneCollection hOver hZones hBlockSees path).mapSome
  | .generateCards .allAllowed dest, free, depth, path, visible, hDrawn, hSees, hDepth => by
    rw [blueprints] at hDrawn hSees hDepth ⊢
    rw [items, requiredNames, Statement.unresolved]
    refine recovers_single hOver hDrawn hSees hDepth fun inner _ hBlock hBlockSees => ?_
    obtain ⟨hDest, -⟩ := hBlock.sockets
    exact ((recovers_parts _).and (recovers_cardSet hOver hBlock)).and
      (recovers_zone hOver hDest hBlockSees path)
  | .deal count source dest, free, depth, path, visible, hDrawn, hSees, hDepth => by
    rw [blueprints] at hDrawn hSees hDepth ⊢
    rw [items, requiredNames, Statement.unresolved]
    refine recovers_single hOver hDrawn hSees hDepth fun inner _ hBlock hBlockSees => ?_
    obtain ⟨hCount, hSource, hDest, -⟩ := hBlock.sockets
    exact (((recovers_parts _).and (recovers_number hOver hCount hBlockSees path)).and
      (recovers_zone hOver hSource hBlockSees path)).and
      (recovers_zoneCollection hOver hDest hBlockSees path)
  | .moveCards source dest, free, depth, path, visible, hDrawn, hSees, hDepth => by
    rw [blueprints] at hDrawn hSees hDepth ⊢
    rw [items, requiredNames, Statement.unresolved]
    refine recovers_single hOver hDrawn hSees hDepth fun inner _ hBlock hBlockSees => ?_
    obtain ⟨hSource, hDest, -⟩ := hBlock.sockets
    exact ((recovers_parts _).and (recovers_cardCollection hOver hSource hBlockSees path)).and
      (recovers_zone hOver hDest hBlockSees path)
  | .declareWinner players, free, depth, path, visible, hDrawn, hSees, hDepth => by
    rw [blueprints] at hDrawn hSees hDepth ⊢
    rw [items, requiredNames, Statement.unresolved]
    refine recovers_single hOver hDrawn hSees hDepth fun inner _ hBlock hBlockSees => ?_
    obtain ⟨hPlayers, -⟩ := hBlock.sockets
    exact (recovers_playerCollection hOver hPlayers hBlockSees path).mapSome
  | .advancePlayer amount, free, depth, path, visible, hDrawn, hSees, hDepth => by
    rw [blueprints] at hDrawn hSees hDepth ⊢
    rw [items, requiredNames, Statement.unresolved]
    refine recovers_single hOver hDrawn hSees hDepth fun inner _ hBlock hBlockSees => ?_
    obtain ⟨hAmount, -⟩ := hBlock.sockets
    exact (recovers_number hOver hAmount hBlockSees path).mapSome
  | .offer offerTo playerName cases, free, depth, path, visible, hDrawn, hSees, hDepth => by
    rw [blueprints] at hDrawn hSees hDepth ⊢
    rw [items, requiredNames, Statement.unresolved, boundPlayer]
    cases hName : playerName.filter (· ≠ "") with
    | some name =>
      simp only [hName] at hDrawn hSees hDepth ⊢
      have hFilled : name ≠ "" := by simpa using (Option.filter_eq_some_iff.mp hName).2
      refine recovers_single hOver hDrawn hSees hDepth fun inner hInner hBlock hBlockSees => ?_
      obtain ⟨hOfferTo, hCases, -⟩ := hBlock.sockets
      simp only [socketsSize, socketSize] at hInner
      have hPlayer : reader.Recovers (reader.offerPlayer ⟨free, path⟩ .offer) (some (some name))
          [] [] := by
        rw [offerPlayer, requiredField_of_ne_empty (field?_of_leaf hOver hBlock) hFilled]
        exact recovers_pure _
      exact recovers_offer hOver hPlayer hOfferTo hBlockSees hCases
        (recovers_normalCases hOver cases _ inner _ _ hCases.2.chainDrawn
          (sees_cases hOver hBlock hFilled hCases.2 hBlockSees) (by omega))
    | none =>
      simp only [hName] at hDrawn hSees hDepth ⊢
      refine recovers_single hOver hDrawn hSees hDepth fun inner hInner hBlock hBlockSees => ?_
      obtain ⟨hOfferTo, hCases, -⟩ := hBlock.sockets
      simp only [socketsSize, socketSize] at hInner
      exact recovers_offer hOver (recovers_pure _) hOfferTo hBlockSees hCases
        (recovers_normalCases hOver cases _ inner _ _ hCases.2.chainDrawn
          (sees_of_no_bindings hOver hBlock (by decide) hCases.2 hBlockSees) (by omega))

theorem recovers_itemsOfAll (hOver : reader.Over workspace) : ∀ (statements : List Statement)
    (free depth : Nat) (path : List PathSegment) (visible : List (Category × String)),
    workspace.ChainDrawn free (blueprintsOfAll statements) →
    (∀ member ∈ chainNodes free (blueprintsOfAll statements), reader.Sees member visible) →
    chainSize (blueprintsOfAll statements) ≤ depth →
      reader.Recovers (collect (fun inner => reader.statement depth ⟨inner, path⟩)
        (chainNodes free (blueprintsOfAll statements))) (itemsOfAll statements)
        (requiredNamesOfAll statements) (unresolvedInAll visible statements)
  | [], free, depth, path, visible, _, _, _ => by
    rw [blueprintsOfAll, itemsOfAll, requiredNamesOfAll, unresolvedInAll]
    exact recovers_collect_nil _
  | first :: rest, free, depth, path, visible, hDrawn, hSees, hDepth => by
    rw [blueprintsOfAll] at hDrawn hSees hDepth ⊢
    rw [itemsOfAll, requiredNamesOfAll, unresolvedInAll]
    rw [Workspace.chainDrawn_append] at hDrawn
    rw [chainNodes_append] at hSees ⊢
    rw [chainSize_append] at hDepth
    exact (recovers_items hOver first free depth path visible hDrawn.1
      (fun member hMember => hSees member (List.mem_append_left _ hMember))
      (by omega)).collect_append
      (recovers_itemsOfAll hOver rest _ depth path visible hDrawn.2
        (fun member hMember => hSees member (List.mem_append_right _ hMember)) (by omega))

theorem recovers_normalCases (hOver : reader.Over workspace) :
    ∀ (cases : List (OfferCaseOf Statement)) (free depth : Nat) (path : List PathSegment)
    (visible : List (Category × String)),
    workspace.ChainDrawn free (caseBlueprints cases) →
    (∀ member ∈ chainNodes free (caseBlueprints cases), reader.Sees member visible) →
    chainSize (caseBlueprints cases) ≤ depth →
      reader.Recovers (collect (reader.member path .offerCase
        (reader.offerCase (reader.statement depth))) (chainNodes free (caseBlueprints cases)))
        (normalCases cases) (requiredNamesOfCases cases) (unresolvedInCases visible cases)
  | [], free, depth, path, visible, _, _, _ => by
    rw [caseBlueprints, normalCases, requiredNamesOfCases, unresolvedInCases]
    exact recovers_collect_nil _
  | offerCase :: rest, free, depth, path, visible, hDrawn, hSees, hDepth => by
    rw [caseBlueprints] at hDrawn hSees hDepth ⊢
    rw [normalCases, requiredNamesOfCases, unresolvedInCases]
    rw [chainNodes] at hSees ⊢
    rw [chainSize] at hDepth
    exact (recovers_normalCase hOver offerCase free depth path visible hDrawn.1
      (hSees free List.mem_cons_self) (by omega)).collect_cons
      (recovers_normalCases hOver rest _ depth path visible hDrawn.2
        (fun member hMember => hSees member (List.mem_cons_of_mem _ hMember)) (by omega))

theorem recovers_normalCase (hOver : reader.Over workspace) :
    ∀ (offerCase : OfferCaseOf Statement) (node depth : Nat) (path : List PathSegment)
    (visible : List (Category × String)),
    workspace.Drawn node (caseBlueprint offerCase) → reader.Sees node visible →
    (caseBlueprint offerCase).size ≤ depth →
      reader.Recovers (reader.member path .offerCase
        (reader.offerCase (reader.statement depth)) node) (some (normalCase offerCase))
        (requiredNamesOfCase offerCase) (unresolvedInCase visible offerCase)
  | ⟨some condition, message, choices, body⟩, node, depth, path, visible, hDrawn, hSees,
      hDepth => by
    rw [caseBlueprint] at hDrawn hDepth
    obtain ⟨hFilter, hOffers, hActions, -⟩ := hDrawn.sockets
    simp only [size, socketsSize, socketSize] at hDepth
    refine recovers_caseParts hOver hDrawn (Or.inl rfl) hSees ?_ hOffers hActions fun hBodySees =>
      recovers_items hOver body _ depth _ _ hActions.2.chainDrawn hBodySees (by omega)
    have hInput : (reader.view.input? node Input.filter).isSome = true := by
      rw [hOver.view, hFilter.1]
      rfl
    rw [caseCondition, if_pos ⟨rfl, hInput⟩]
    simpa using (recovers_boolean hOver hFilter hSees path).mapSome
  | ⟨none, message, choices, body⟩, node, depth, path, visible, hDrawn, hSees, hDepth => by
    rw [caseBlueprint] at hDrawn hDepth
    obtain ⟨hOffers, hActions, -⟩ := hDrawn.sockets
    simp only [size, socketsSize, socketSize] at hDepth
    refine recovers_caseParts hOver hDrawn (Or.inr rfl) hSees ?_ hOffers hActions fun hBodySees =>
      recovers_items hOver body _ depth _ _ hActions.2.chainDrawn hBodySees (by omega)
    rw [caseCondition, if_neg (by simp)]
    exact recovers_pure _

end

end Reader

end RuleBlocks
