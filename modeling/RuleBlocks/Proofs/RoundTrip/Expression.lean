import RuleBlocks.Blueprint.Expression
import RuleBlocks.Proofs.Blueprint.Drawn
import RuleBlocks.Proofs.Program.Names
import RuleBlocks.Proofs.Scope.Forest
import RuleBlocks.Proofs.Text

/-!
# Reading drawn expressions

A reader that knows the canonical tags reads every expression where its blueprint was drawn. Each
reader of a category is shown to recover the expression from its block (`ReadsAt`); an input that
holds the block then gives the expression too (`ReadsAt.socket`), also where a collection is
expected and a single element stands.
-/

namespace RuleBlocks

/-! ## The categories of blocks -/

theorem Category.tag_ne_empty (category : Category) : category.tag ≠ "" := by
  cases category <;> decide

/-- The category of the block for a collection of players: that of a single one for a single one. -/
def PlayerCollectionExpression.blockCategory : PlayerCollectionExpression → Category
  | single _ => .player
  | allPlayers | var _ => .playerCollection

/-- The category of the block for a collection of zones. -/
def ZoneCollectionExpression.blockCategory : ZoneCollectionExpression → Category
  | single _ => .zone
  | ofType _ | var _ => .zoneCollection

/-- The category of the block for a collection of cards. -/
def CardCollectionExpression.blockCategory : CardCollectionExpression → Category
  | single _ => .card
  | var _ | allInZone _ | topInZone _ | bottomInZone _ | matchingSuit _ _ | matchingRank _ _ =>
    .cardCollection

namespace Reader

open Reading

/-- A reader goes through a forest and knows the canonical tags. -/
structure Over (reader : Reader) (workspace : Workspace) : Prop where
  forest : workspace.Forest
  view : reader.view = workspace.view
  vocabulary : ∀ kind : BlockKind, reader.vocabulary.kind? kind.tag = some kind
  scope : ∀ scope, reader.scope? = some scope →
    scope.view = workspace.view ∧ scope.vocabulary = reader.vocabulary

/-- A block is of a kind and gives a value of a category, and every place for values of that
category takes it. -/
def Outputs (reader : Reader) (node : NodeId) (kind : BlockKind) (found : Category) : Prop :=
  ∀ path expected, expected.accepts found = true →
    reader.checkValue ⟨node, path⟩ expected = pure (some (kind, found))

/-- A reader of values recovers a value of a category from a block. -/
def ReadsAt {α : Type} (reader : Reader)
    (read : Spot → BlockKind → Category → Reading (Option α)) (node : NodeId) (category : Category)
    (value : α) (names : List String) (unresolved : List (Category × String)) : Prop :=
  ∃ kind, reader.Outputs node kind category ∧
    ∀ path, reader.Recovers (read ⟨node, path⟩ kind category) (some value) names unresolved

variable {reader : Reader} {workspace : Workspace} {node child : NodeId} {kind : BlockKind}
variable {fields : List (String × String)} {sockets : List (SocketOf Blueprint)}
variable {category : Category} {visible : List (Category × String)}

namespace Over

variable (hOver : reader.Over workspace)

include hOver

theorem kind? (hDrawn : workspace.Drawn node (.block kind fields sockets)) :
    reader.view.kind? reader.vocabulary node = some kind := by
  rw [View.kind?, hOver.view, hDrawn.tag?]
  exact hOver.vocabulary kind

theorem field? (hDrawn : workspace.Drawn node (.block kind fields sockets)) {field text : String}
    (hFields : (fields.map Prod.fst).Nodup) (hField : (field, text) ∈ fields) :
    reader.view.field? node field = some text := by
  rw [hOver.view]
  exact hDrawn.field? hFields hField

theorem sees_value {input : String}
    (hParent : workspace.parent? child = some ⟨node, .value input⟩)
    (hSees : reader.Sees node visible) : reader.Sees child visible := by
  intro scope hScope
  obtain ⟨hView, -⟩ := hOver.scope scope hScope
  exact Scope.sees_value hOver.forest hView hParent (hSees scope hScope)

end Over

/-! ## Values in inputs -/

variable {α β : Type} {read : Spot → BlockKind → Category → Reading (Option α)} {value : α}
variable {names : List String} {unresolved : List (Category × String)}

theorem outputs_of_value (hKind : reader.view.kind? reader.vocabulary node = some kind)
    (hRole : kind.role = .value category) : reader.Outputs node kind category := by
  intro path expected hAccepts
  have hKind : reader.kind ⟨node, path⟩ = pure (some kind) := kind_eq_pure hKind
  rw [checkValue, hKind, pure_andThen]
  simp only [hRole]
  rw [pure_andThen, if_pos hAccepts]

theorem outputs_of_typedValue (hKind : reader.view.kind? reader.vocabulary node = some .getTyped)
    (hField : reader.view.field? node Field.category = some category.tag)
    (hVariables : category.hasVariables = true) : reader.Outputs node .getTyped category := by
  intro path expected hAccepts
  have hKind : reader.kind ⟨node, path⟩ = pure (some .getTyped) := kind_eq_pure hKind
  have hFound : reader.variableCategory ⟨node, path⟩ = pure (some category) := by
    rw [variableCategory, requiredField_of_ne_empty hField category.tag_ne_empty, pure_andThen,
      Category.ofTag?_tag, Option.filter_some_pos hVariables]
  rw [checkValue, hKind, pure_andThen]
  simp only [BlockKind.role]
  rw [hFound, pure_andThen, if_pos hAccepts]

theorem ReadsAt.socket (h : reader.ReadsAt read child category value names unresolved)
    {input : String} {path : List PathSegment} {expected : Category}
    (hInput : reader.view.input? node input = some child)
    (hAccepts : expected.accepts category = true) :
    reader.Recovers (reader.socket ⟨node, path⟩ input expected read) (some value) names
      unresolved := by
  obtain ⟨kind, hOutputs, hRead⟩ := h
  rw [Reader.socket, hInput]
  dsimp only
  rw [hOutputs _ expected hAccepts, pure_andThen]
  exact hRead _

/-- A single element is read where a collection is expected. -/
theorem ReadsAt.single {readAll : Spot → BlockKind → Category → Reading (Option β)}
    {single : α → β} (h : reader.ReadsAt read node category value names unresolved)
    (hRead : ∀ spot kind, readAll spot kind category = (read spot kind category).mapSome single) :
    reader.ReadsAt readAll node category (single value) names unresolved := by
  obtain ⟨kind, hOutputs, hRecovers⟩ := h
  refine ⟨kind, hOutputs, fun path => ?_⟩
  rw [hRead]
  exact (hRecovers path).mapSome

variable (hOver : reader.Over workspace)

include hOver

theorem readsAt_of_value (hDrawn : workspace.Drawn node (.block kind fields sockets))
    (hRole : kind.role = .value category)
    (hRead : ∀ path, reader.Recovers (read ⟨node, path⟩ kind category) (some value) names
      unresolved) : reader.ReadsAt read node category value names unresolved :=
  ⟨kind, outputs_of_value (hOver.kind? hDrawn) hRole, hRead⟩

/-- A variable is read from the block that names its category. -/
theorem readsAt_variable {name : String} {make : String → α}
    (hDrawn : workspace.Drawn node (.variableOf category name)) (hSees : reader.Sees node visible)
    (hVariables : category.hasVariables = true)
    (hRead : ∀ spot, read spot .getTyped category =
      (reader.reference spot Field.variableName category).mapSome make) :
    reader.ReadsAt read node category (make name) [name] (missing visible [(category, name)]) := by
  have hFields : ([(Field.category, category.tag), (Field.variableName, name)].map
      Prod.fst).Nodup := by simp [Field.category, Field.variableName]
  have hCategory : reader.view.field? node Field.category = some category.tag :=
    hOver.field? hDrawn hFields List.mem_cons_self
  have hName : reader.view.field? node Field.variableName = some name :=
    hOver.field? hDrawn hFields (List.mem_cons_of_mem _ List.mem_cons_self)
  refine ⟨.getTyped, outputs_of_typedValue (hOver.kind? hDrawn) hCategory hVariables,
    fun path => ?_⟩
  rw [hRead]
  exact (recovers_reference hName hSees).mapSome

/-- The text of the only field of a block. -/
theorem field?_of_leaf {field text : String}
    (hDrawn : workspace.Drawn node (.block kind [(field, text)] sockets)) :
    reader.view.field? node field = some text :=
  hOver.field? hDrawn (List.nodup_singleton _) List.mem_cons_self

/-- A value in an input is read there if it is read at its block. -/
theorem Over.socket {free : Nat} {inner : Blueprint} {input : String} {expected : Category}
    (hSocket : workspace.SocketDrawn node free (.value input inner))
    (hSees : reader.Sees node visible)
    (hRead : workspace.Drawn free inner → reader.Sees free visible →
      reader.ReadsAt read free category value names unresolved)
    (hAccepts : expected.accepts category = true) (path : List PathSegment) :
    reader.Recovers (reader.socket ⟨node, path⟩ input expected read) (some value) names
      unresolved := by
  obtain ⟨hInput, hParent, hInner⟩ := hSocket
  rw [← hOver.view] at hInput
  exact (hRead hInner (hOver.sees_value hParent hSees)).socket hInput hAccepts

/-! ## Players -/

theorem readsAt_player (player : PlayerExpression)
    (hDrawn : workspace.Drawn node player.blueprint) (hSees : reader.Sees node visible) :
    reader.ReadsAt reader.playerAt node .player player player.requiredNames
      (missing visible player.references) := by
  cases player with
  | currentPlayer => exact readsAt_of_value hOver hDrawn rfl fun path => recovers_pure _
  | var name => exact readsAt_variable hOver hDrawn hSees rfl fun spot => rfl

theorem readsAt_playerCollection (players : PlayerCollectionExpression)
    (hDrawn : workspace.Drawn node players.blueprint) (hSees : reader.Sees node visible) :
    reader.ReadsAt reader.playerCollectionAt node players.blockCategory players
      players.requiredNames (missing visible players.references) := by
  cases players with
  | allPlayers => exact readsAt_of_value hOver hDrawn rfl fun path => recovers_pure _
  | single player => exact (readsAt_player hOver player hDrawn hSees).single fun spot kind => rfl
  | var name => exact readsAt_variable hOver hDrawn hSees rfl fun spot => rfl

theorem recovers_player {player : PlayerExpression} {free : Nat} {input : String}
    (hSocket : workspace.SocketDrawn node free (.value input player.blueprint))
    (hSees : reader.Sees node visible) (path : List PathSegment) :
    reader.Recovers (reader.player ⟨node, path⟩ input) (some player) player.requiredNames
      (missing visible player.references) :=
  hOver.socket hSocket hSees (readsAt_player hOver player) rfl path

theorem recovers_playerCollection {players : PlayerCollectionExpression} {free : Nat}
    {input : String} (hSocket : workspace.SocketDrawn node free (.value input players.blueprint))
    (hSees : reader.Sees node visible) (path : List PathSegment) :
    reader.Recovers (reader.playerCollection ⟨node, path⟩ input) (some players)
      players.requiredNames (missing visible players.references) :=
  hOver.socket hSocket hSees (readsAt_playerCollection hOver players)
    (by cases players <;> rfl) path

/-! ## Zones -/

theorem readsAt_zone (zone : ZoneExpression) (hDrawn : workspace.Drawn node zone.blueprint)
    (hSees : reader.Sees node visible) :
    reader.ReadsAt reader.zoneAt node .zone zone zone.requiredNames
      (missing visible zone.references) := by
  cases zone with
  | ownedByPlayer player zoneName =>
    obtain ⟨hPlayer, -⟩ := hDrawn.sockets
    refine readsAt_of_value hOver hDrawn rfl fun path => ?_
    exact ((recovers_parts _).and (recovers_requiredField (field?_of_leaf hOver hDrawn))).and
      (recovers_player hOver hPlayer hSees path)
  | var name => exact readsAt_variable hOver hDrawn hSees rfl fun spot => rfl

theorem recovers_zone {zone : ZoneExpression} {free : Nat} {input : String}
    (hSocket : workspace.SocketDrawn node free (.value input zone.blueprint))
    (hSees : reader.Sees node visible) (path : List PathSegment) :
    reader.Recovers (reader.zone ⟨node, path⟩ input) (some zone) zone.requiredNames
      (missing visible zone.references) :=
  hOver.socket hSocket hSees (readsAt_zone hOver zone) rfl path

theorem readsAt_zoneCollection (zones : ZoneCollectionExpression)
    (hDrawn : workspace.Drawn node zones.blueprint) (hSees : reader.Sees node visible) :
    reader.ReadsAt reader.zoneCollectionAt node zones.blockCategory zones zones.requiredNames
      (missing visible zones.references) := by
  cases zones with
  | single zone => exact (readsAt_zone hOver zone hDrawn hSees).single fun spot kind => rfl
  | ofType typeName =>
    refine readsAt_of_value hOver hDrawn rfl fun path => ?_
    exact (recovers_requiredField (field?_of_leaf hOver hDrawn)).mapSome
  | var name => exact readsAt_variable hOver hDrawn hSees rfl fun spot => rfl

theorem recovers_zoneCollection {zones : ZoneCollectionExpression} {free : Nat} {input : String}
    (hSocket : workspace.SocketDrawn node free (.value input zones.blueprint))
    (hSees : reader.Sees node visible) (path : List PathSegment) :
    reader.Recovers (reader.zoneCollection ⟨node, path⟩ input) (some zones) zones.requiredNames
      (missing visible zones.references) :=
  hOver.socket hSocket hSees (readsAt_zoneCollection hOver zones) (by cases zones <;> rfl) path

/-! ## Cards -/

theorem readsAt_card (card : CardExpression) (hDrawn : workspace.Drawn node card.blueprint)
    (hSees : reader.Sees node visible) :
    reader.ReadsAt reader.cardAt node .card card card.requiredNames
      (missing visible card.references) := by
  cases card with
  | var name => exact readsAt_variable hOver hDrawn hSees rfl fun spot => rfl

theorem recovers_card {card : CardExpression} {free : Nat} {input : String}
    (hSocket : workspace.SocketDrawn node free (.value input card.blueprint))
    (hSees : reader.Sees node visible) (path : List PathSegment) :
    reader.Recovers (reader.card ⟨node, path⟩ input) (some card) card.requiredNames
      (missing visible card.references) :=
  hOver.socket hSocket hSees (readsAt_card hOver card) rfl path

/-- A field whose text is one of the fixed names of a parser. -/
theorem recovers_parsedField_of_leaf {field text : String} {parse : String → Option α}
    (hDrawn : workspace.Drawn node (.block kind [(field, text)] sockets)) (hText : text ≠ "")
    (hTrim : Text.trim text = text) (hParse : parse text = some value) (path : List PathSegment) :
    reader.Recovers (reader.parsedField ⟨node, path⟩ field parse) (some value) [] [] := by
  rw [← hTrim] at hParse
  exact recovers_parsedField (field?_of_leaf hOver hDrawn) hText hParse

theorem readsAt_rank (rank : RankExpression) (hDrawn : workspace.Drawn node rank.blueprint)
    (hSees : reader.Sees node visible) :
    reader.ReadsAt reader.rankAt node .rank rank rank.requiredNames
      (missing visible rank.references) := by
  cases rank with
  | literal rank =>
    refine readsAt_of_value hOver hDrawn rfl fun path => ?_
    exact (recovers_parsedField_of_leaf hOver hDrawn (by cases rank <;> decide)
      (by cases rank <;> rfl) (Rank.ofName?_name rank) path).mapSome
  | ofCard card =>
    obtain ⟨hCard, -⟩ := hDrawn.sockets
    refine readsAt_of_value hOver hDrawn rfl fun path => ?_
    exact (recovers_card hOver hCard hSees path).mapSome

theorem recovers_rank {rank : RankExpression} {free : Nat} {input : String}
    (hSocket : workspace.SocketDrawn node free (.value input rank.blueprint))
    (hSees : reader.Sees node visible) (path : List PathSegment) :
    reader.Recovers (reader.rank ⟨node, path⟩ input) (some rank) rank.requiredNames
      (missing visible rank.references) :=
  hOver.socket hSocket hSees (readsAt_rank hOver rank) rfl path

theorem readsAt_suit (suit : SuitExpression) (hDrawn : workspace.Drawn node suit.blueprint)
    (hSees : reader.Sees node visible) :
    reader.ReadsAt reader.suitAt node .suit suit suit.requiredNames
      (missing visible suit.references) := by
  cases suit with
  | literal suit =>
    refine readsAt_of_value hOver hDrawn rfl fun path => ?_
    exact (recovers_parsedField_of_leaf hOver hDrawn (by cases suit <;> decide)
      (by cases suit <;> rfl) (Suit.ofName?_name suit) path).mapSome
  | ofCard card =>
    obtain ⟨hCard, -⟩ := hDrawn.sockets
    refine readsAt_of_value hOver hDrawn rfl fun path => ?_
    exact (recovers_card hOver hCard hSees path).mapSome

theorem recovers_suit {suit : SuitExpression} {free : Nat} {input : String}
    (hSocket : workspace.SocketDrawn node free (.value input suit.blueprint))
    (hSees : reader.Sees node visible) (path : List PathSegment) :
    reader.Recovers (reader.suit ⟨node, path⟩ input) (some suit) suit.requiredNames
      (missing visible suit.references) :=
  hOver.socket hSocket hSees (readsAt_suit hOver suit) rfl path

/-- Cards that are taken from a zone as a setting says. -/
theorem readsAt_selector {setting : String} {take : ZoneExpression → CardCollectionExpression}
    {zone : ZoneExpression} (hDrawn : workspace.Drawn node (.selector setting zone))
    (hSees : reader.Sees node visible) (hText : setting ≠ "") (hTrim : Text.trim setting = setting)
    (hTake : selection? setting = some take) :
    reader.ReadsAt reader.cardCollectionAt node .cardCollection (take zone) zone.requiredNames
      (missing visible zone.references) := by
  obtain ⟨hZone, -⟩ := hDrawn.sockets
  refine readsAt_of_value hOver hDrawn rfl fun path => ?_
  exact (recovers_parsedField_of_leaf hOver hDrawn hText hTrim hTake path).and
    (recovers_zone hOver hZone hSees path)

theorem readsAt_cardCollection (cards : CardCollectionExpression)
    (hDrawn : workspace.Drawn node cards.blueprint) (hSees : reader.Sees node visible) :
    reader.ReadsAt reader.cardCollectionAt node cards.blockCategory cards cards.requiredNames
      (missing visible cards.references) := by
  cases cards with
  | single card => exact (readsAt_card hOver card hDrawn hSees).single fun spot kind => rfl
  | var name => exact readsAt_variable hOver hDrawn hSees rfl fun spot => rfl
  | allInZone zone => exact readsAt_selector hOver hDrawn hSees (by decide) rfl rfl
  | topInZone zone => exact readsAt_selector hOver hDrawn hSees (by decide) rfl rfl
  | bottomInZone zone => exact readsAt_selector hOver hDrawn hSees (by decide) rfl rfl
  | matchingSuit zone suit =>
    obtain ⟨hZone, hSuit, -⟩ := hDrawn.sockets
    refine readsAt_of_value hOver hDrawn rfl fun path => ?_
    rw [CardCollectionExpression.references, missing_append]
    exact ((recovers_parts _).and (recovers_zone hOver hZone hSees path)).and
      (recovers_suit hOver hSuit hSees path)
  | matchingRank zone rank =>
    obtain ⟨hZone, hRank, -⟩ := hDrawn.sockets
    refine readsAt_of_value hOver hDrawn rfl fun path => ?_
    rw [CardCollectionExpression.references, missing_append]
    exact ((recovers_parts _).and (recovers_zone hOver hZone hSees path)).and
      (recovers_rank hOver hRank hSees path)

theorem recovers_cardCollection {cards : CardCollectionExpression} {free : Nat} {input : String}
    (hSocket : workspace.SocketDrawn node free (.value input cards.blueprint))
    (hSees : reader.Sees node visible) (path : List PathSegment) :
    reader.Recovers (reader.cardCollection ⟨node, path⟩ input) (some cards) cards.requiredNames
      (missing visible cards.references) :=
  hOver.socket hSocket hSees (readsAt_cardCollection hOver cards) (by cases cards <;> rfl) path

/-! ## Numbers and conditions -/

theorem readsAt_number (number : NumberExpression)
    (hDrawn : workspace.Drawn node number.blueprint) (hSees : reader.Sees node visible) :
    reader.ReadsAt reader.numberAt node .number number number.requiredNames
      (missing visible number.references) := by
  cases number with
  | literal word =>
    refine readsAt_of_value hOver hDrawn rfl fun path => ?_
    exact (recovers_parsedField_of_leaf hOver hDrawn (Text.Decimal.writeWord_ne_empty word)
      (Text.Decimal.trim_writeWord word) (Text.Decimal.readWord?_writeWord word) path).mapSome
  | var name =>
    refine readsAt_of_value hOver hDrawn rfl fun path => ?_
    exact (recovers_reference (field?_of_leaf hOver hDrawn) hSees).mapSome
  | cardsIn cards =>
    obtain ⟨hCards, -⟩ := hDrawn.sockets
    refine readsAt_of_value hOver hDrawn rfl fun path => ?_
    exact (recovers_cardCollection hOver hCards hSees path).mapSome

theorem recovers_number {number : NumberExpression} {free : Nat} {input : String}
    (hSocket : workspace.SocketDrawn node free (.value input number.blueprint))
    (hSees : reader.Sees node visible) (path : List PathSegment) :
    reader.Recovers (reader.number ⟨node, path⟩ input) (some number) number.requiredNames
      (missing visible number.references) :=
  hOver.socket hSocket hSees (readsAt_number hOver number) rfl path

theorem readsAt_boolean (condition : BooleanExpression)
    (hDrawn : workspace.Drawn node condition.blueprint) (hSees : reader.Sees node visible) :
    reader.ReadsAt reader.booleanAt node .boolean condition condition.requiredNames
      (missing visible condition.references) := by
  cases condition with
  | literal truth =>
    refine readsAt_of_value hOver hDrawn rfl fun path => ?_
    have hSetting : boolean? (if truth then Setting.true else Setting.false) = some truth := by
      cases truth <;> rfl
    exact (recovers_parsedField_of_leaf hOver hDrawn (by cases truth <;> decide)
      (by cases truth <;> rfl) hSetting path).mapSome
  | comparison left comparedTo right =>
    obtain ⟨hLeft, hRight, -⟩ := hDrawn.sockets
    refine readsAt_of_value hOver hDrawn rfl fun path => ?_
    have hCode := recovers_parsedField_of_leaf hOver hDrawn (by cases comparedTo <;> decide)
      (by cases comparedTo <;> rfl) (Comparison.ofCode?_code comparedTo) path
    rw [BooleanExpression.references, missing_append]
    exact (((recovers_parts _).and hCode).and (recovers_number hOver hLeft hSees path)).and
      (recovers_number hOver hRight hSees path)
  | playerIsType player typeName =>
    obtain ⟨hPlayer, -⟩ := hDrawn.sockets
    refine readsAt_of_value hOver hDrawn rfl fun path => ?_
    exact ((recovers_parts _).and (recovers_requiredField (field?_of_leaf hOver hDrawn))).and
      (recovers_player hOver hPlayer hSees path)

theorem recovers_boolean {condition : BooleanExpression} {free : Nat} {input : String}
    (hSocket : workspace.SocketDrawn node free (.value input condition.blueprint))
    (hSees : reader.Sees node visible) (path : List PathSegment) :
    reader.Recovers (reader.boolean ⟨node, path⟩ input) (some condition) condition.requiredNames
      (missing visible condition.references) :=
  hOver.socket hSocket hSees (readsAt_boolean hOver condition) rfl path

end Reader

end RuleBlocks
