import RuleBlocks.Proofs.Reading.Chains

/-!
# The blocks to which reading comes

Reading a chain comes to the members of the chains that are read and to the values in the sockets of
these members, and on from there to the values in the sockets of those. Which sockets are read
depends on the kind of the block, and on whether the place in which the block stands takes a block
of its kind at all: the sockets of a misplaced block are not read (`Reader.Takes`).

Of what is reported, just what is reported for the values in these sockets stands deeper than the
block (`Asks`). So every diagnostic stands at a block to which reading comes
(`Reader.comesTo_of_mem_diagnostics`), and at a hat to which reading comes an error is reported
(`Reader.ComesTo.exists_error`): a hat is neither a member of a chain nor a value.
-/

namespace RuleBlocks

/-- The sockets for values of the blocks of a kind, with the categories that they take. The socket
of a selection is not among them: what it takes depends on the type of the choice. -/
def BlockKind.sockets : BlockKind → List (String × Category)
  | setNumber => [(Input.value, .number)]
  | ifElse | repeatWhile => [(Input.condition, .boolean)]
  | shuffle => [(Input.zones, .zoneCollection)]
  | generateCards => [(Input.dest, .zone)]
  | dealCards =>
    [(Input.count, .number), (Input.source, .zone), (Input.dest, .zoneCollection)]
  | moveCards => [(Input.source, .cardCollection), (Input.dest, .zone)]
  | declareWinner => [(Input.player, .playerCollection)]
  | advancePlayer => [(Input.advance, .number)]
  | offer | unnamedOffer => [(Input.offerTo, .playerCollection)]
  | offerCase => [(Input.filter, .boolean)]
  | choiceMove => [(Input.source, .zone), (Input.dest, .zone)]
  | cardCount => [(Input.cards, .cardCollection)]
  | compare => [(Input.left, .number), (Input.right, .number)]
  | playerOfType | zoneForPlayer => [(Input.player, .player)]
  | cardSelector => [(Input.zone, .zone)]
  | cardsMatchingSuit => [(Input.zone, .zone), (Input.suit, .suit)]
  | cardsMatchingRank => [(Input.zone, .zone), (Input.rank, .rank)]
  | rankFromCard | suitFromCard => [(Input.card, .card)]
  | _ => []

theorem BlockKind.not_mem_chains_of_mem_sockets (kind : BlockKind) :
    ∀ socket ∈ kind.sockets, socket.1 ∉ Input.chains := by
  cases kind <;> decide

/-- A place for the expected category takes the block of a kind whose value has the found
category. -/
def BlockKind.Suits (kind : BlockKind) (expected found : Category) : Prop :=
  (kind.role = .value found ∨ kind.role = .typedValue) ∧ expected.accepts found = true

instance (kind : BlockKind) (expected found : Category) :
    Decidable (kind.Suits expected found) :=
  inferInstanceAs (Decidable (_ ∧ _))

/-- Blocks of a kind whose values have other categories do not stand in a place for a category. -/
theorem BlockKind.Suits.elim {kind : BlockKind} {expected found : Category} {P : Prop}
    (hSuits : kind.Suits expected found)
    (hNone : ∀ category ∈ Category.all, ¬ kind.Suits expected category) : P :=
  absurd hSuits (hNone found found.mem_all)

/-- The role of the members of a chain. -/
def ChainKind.role : ChainKind → BlockRole
  | statements _ => .statement
  | cases _ => .offerCase
  | choices => .offerChoice

namespace Reader

open Reading

variable {reader : Reader} {spot : Spot} {sockets more : List (String × Category)}
variable {diagnostic : Diagnostic} {kind : BlockKind} {found : Category} {input : String}
variable {α β : Type}

/-- The diagnostic is reported for the value in one of some sockets of a block. -/
def InSocket (reader : Reader) (spot : Spot) (sockets : List (String × Category))
    (diagnostic : Diagnostic) : Prop :=
  ∃ input category child, (input, category) ∈ sockets ∧
    reader.view.input? spot.node input = some child ∧
    diagnostic ∈ (reader.expression ⟨child, spot.within input⟩ category).diagnostics

theorem not_inSocket_nil : ¬ reader.InSocket spot [] diagnostic := by
  rintro ⟨input, category, child, hMem, -⟩
  cases hMem

theorem inSocket_append : reader.InSocket spot (sockets ++ more) diagnostic ↔
    reader.InSocket spot sockets diagnostic ∨ reader.InSocket spot more diagnostic := by
  simp only [InSocket, List.mem_append, or_and_right, exists_or]

theorem inSocket_singleton {category : Category} :
    reader.InSocket spot [(input, category)] diagnostic ↔
      ∃ child, reader.view.input? spot.node input = some child ∧
        diagnostic ∈ (reader.expression ⟨child, spot.within input⟩ category).diagnostics := by
  constructor
  · rintro ⟨other, found, child, hSocket, hChild, hMem⟩
    obtain ⟨rfl, rfl⟩ := Prod.mk.inj (List.mem_singleton.mp hSocket)
    exact ⟨child, hChild, hMem⟩
  · rintro ⟨child, hChild, hMem⟩
    exact ⟨input, category, child, List.mem_singleton_self _, hChild, hMem⟩

/-- What blames a block and stands deeper is reported just if it is reported for the value in one of
some sockets of the block. -/
def Asks (reader : Reader) (spot : Spot) (sockets : List (String × Category))
    (reading : Reading α) : Prop :=
  ∀ diagnostic : Diagnostic, diagnostic.Blames spot → ¬ diagnostic.StandsAt spot →
    (diagnostic ∈ reading.diagnostics ↔ reader.InSocket spot sockets diagnostic)

/-! ## How readings are put together -/

theorem asks_nil {reading : Reading α}
    (h : ∀ diagnostic ∈ reading.diagnostics, diagnostic.Blames spot → diagnostic.StandsAt spot) :
    reader.Asks spot [] reading := fun diagnostic hBlames hDeeper =>
  iff_of_false (fun hMem => hDeeper (h diagnostic hMem hBlames)) not_inSocket_nil

theorem Asks.mapSome {reading : Reading (Option α)} (hReading : reader.Asks spot sockets reading)
    (f : α → β) : reader.Asks spot sockets (reading.mapSome f) := by
  intro diagnostic hBlames hDeeper
  rw [diagnostics_mapSome]
  exact hReading diagnostic hBlames hDeeper

theorem Asks.and {f : Reading (Option (α → β))} {reading : Reading (Option α)}
    (hFunction : reader.Asks spot sockets f) (hReading : reader.Asks spot more reading) :
    reader.Asks spot (sockets ++ more) (f.and reading) := by
  intro diagnostic hBlames hDeeper
  rw [diagnostics_and, List.mem_append, inSocket_append, hFunction diagnostic hBlames hDeeper,
    hReading diagnostic hBlames hDeeper]

/-- Sockets that are read only once the block itself was read. -/
theorem Asks.andThen {reading : Reading (Option α)} {next : α → Reading (Option β)}
    (hReading : reader.Asks spot [] reading)
    (hNext : ∀ value, reading.value = some value → reader.Asks spot sockets (next value))
    (hNone : reading.value = none → sockets = []) :
    reader.Asks spot sockets (reading.andThen next) := by
  intro diagnostic hBlames hDeeper
  have hOwn : diagnostic ∉ reading.diagnostics := fun hMem =>
    not_inSocket_nil ((hReading diagnostic hBlames hDeeper).mp hMem)
  rw [Reading.andThen, diagnostics_bind, List.mem_append, or_iff_right hOwn]
  cases hValue : reading.value with
  | none =>
    rw [hNone hValue]
    exact iff_of_false List.not_mem_nil not_inSocket_nil
  | some value => exact hNext value hValue diagnostic hBlames hDeeper

theorem asks_pure (value : α) : reader.Asks spot [] (pure value : Reading α) :=
  asks_nil fun _ hMem => absurd hMem List.not_mem_nil

theorem asks_fail (error : ReadError) :
    reader.Asks spot [] (reader.fail spot error : Reading (Option α)) :=
  asks_nil fun _ hMem _ => (mem_diagnostics_fail hMem).1

theorem asks_kind : reader.Asks spot [] (reader.kind spot) := by
  unfold Reader.kind
  split
  · exact asks_pure _
  · exact asks_fail _

theorem asks_requiredField (field : String) :
    reader.Asks spot [] (reader.requiredField spot field) := by
  unfold requiredField
  split
  · exact asks_pure _
  · exact asks_fail _

theorem asks_parsedField (field : String) (parse : String → Option α) :
    reader.Asks spot [] (reader.parsedField spot field parse) := by
  refine (asks_requiredField field).andThen (fun text _ => ?_) fun _ => rfl
  split
  · exact asks_pure _
  · exact asks_fail _

theorem asks_reference (field : String) (category : Category) :
    reader.Asks spot [] (reader.reference spot field category) := by
  refine (asks_requiredField field).andThen (fun name _ => asks_nil fun diagnostic hMem _ => ?_)
    fun _ => rfl
  rw [diagnostics_bind, diagnostics_pure, List.append_nil] at hMem
  exact (mem_diagnostics_checkReference hMem).1

theorem asks_cardSet : reader.Asks spot [] (reader.cardSet spot) := by
  unfold cardSet
  split
  · exact asks_pure _
  · split
    · exact asks_pure _
    · exact asks_fail _

theorem asks_checkValue (expected : Category) :
    reader.Asks spot [] (reader.checkValue spot expected) := by
  refine asks_kind.andThen (fun kind _ => Asks.andThen ?_ (fun found _ => ?_) fun _ => rfl)
    fun _ => rfl
  · split
    · exact asks_pure _
    · refine (asks_requiredField _).andThen (fun tag _ => ?_) fun _ => rfl
      split
      · exact asks_pure _
      · exact asks_fail _
    all_goals exact asks_fail _
  · split
    · exact asks_pure _
    · exact asks_fail _

/-- Only a value of a kind and a category that fit is taken. -/
theorem suits_of_checkValue {expected : Category}
    (h : (reader.checkValue spot expected).value = some (kind, found)) :
    kind.Suits expected found := by
  unfold checkValue at h
  rw [value_andThen] at h
  obtain ⟨other, -, h⟩ := Option.bind_eq_some_iff.mp h
  rw [value_andThen] at h
  obtain ⟨category, hCategory, h⟩ := Option.bind_eq_some_iff.mp h
  split at h
  · rename_i hAccepts
    obtain ⟨rfl, rfl⟩ := Prod.mk.inj (Option.some.inj h)
    refine ⟨?_, hAccepts⟩
    split at hCategory
    · rename_i hRole
      obtain rfl := Option.some.inj hCategory
      exact Or.inl hRole
    · rename_i hRole
      exact Or.inr hRole
    all_goals cases hCategory
  · cases h

/-! ## Values -/

theorem diagnostics_andThen_mapSome (f : β → Expression) (reading : Reading (Option α))
    (next : α → Reading (Option β)) :
    (reading.andThen fun value => (next value).mapSome f).diagnostics =
      (reading.andThen next).diagnostics := by
  unfold Reading.andThen
  rw [diagnostics_bind, diagnostics_bind]
  cases reading.value with
  | none => rfl
  | some value => rw [diagnostics_mapSome]

theorem asks_socket {expected : Category}
    {read : Spot → BlockKind → Category → Reading (Option α)}
    (hRead : ∀ inner, (reader.expression inner expected).diagnostics =
      ((reader.checkValue inner expected).andThen fun checked =>
        read inner checked.1 checked.2).diagnostics) :
    reader.Asks spot [(input, expected)] (reader.socket spot input expected read) := by
  intro diagnostic hBlames hDeeper
  rw [inSocket_singleton]
  unfold socket
  cases hChild : reader.view.input? spot.node input with
  | none =>
    refine iff_of_false (fun hMem => hDeeper (mem_diagnostics_fail hMem).1) ?_
    rintro ⟨child, hNone, -⟩
    cases hNone
  | some child =>
    dsimp only
    rw [← hRead ⟨child, spot.within input⟩]
    constructor
    · intro hMem
      exact ⟨child, rfl, hMem⟩
    · rintro ⟨inner, hInner, hMem⟩
      obtain rfl := Option.some.inj hInner
      exact hMem

theorem asks_playerAt (hSuits : kind.Suits .player found) :
    reader.Asks spot kind.sockets (reader.playerAt spot kind found) := by
  cases kind
  case currentPlayer => exact asks_pure _
  case getTyped => exact (asks_reference _ _).mapSome _
  all_goals exact hSuits.elim (by decide)

theorem asks_player : reader.Asks spot [(input, .player)] (reader.player spot input) :=
  asks_socket fun _ => diagnostics_andThen_mapSome _ _ _

theorem asks_playerCollectionAt (hSuits : kind.Suits .playerCollection found) :
    reader.Asks spot kind.sockets (reader.playerCollectionAt spot kind found) := by
  unfold playerCollectionAt
  split
  · rename_i hFound
    subst hFound
    exact (asks_playerAt ⟨hSuits.1, rfl⟩).mapSome _
  · cases kind
    case allPlayers => exact asks_pure _
    case getTyped => exact (asks_reference _ _).mapSome _
    case currentPlayer => exact asks_fail _
    all_goals exact hSuits.elim (by decide)

theorem asks_playerCollection :
    reader.Asks spot [(input, .playerCollection)] (reader.playerCollection spot input) :=
  asks_socket fun _ => diagnostics_andThen_mapSome _ _ _

theorem asks_zoneAt (hSuits : kind.Suits .zone found) :
    reader.Asks spot kind.sockets (reader.zoneAt spot kind found) := by
  cases kind
  case zoneForPlayer =>
    exact ((asks_pure _).and (asks_requiredField _)).and asks_player
  case getTyped => exact (asks_reference _ _).mapSome _
  all_goals exact hSuits.elim (by decide)

theorem asks_zone : reader.Asks spot [(input, .zone)] (reader.zone spot input) :=
  asks_socket fun _ => diagnostics_andThen_mapSome _ _ _

theorem asks_zoneCollectionAt (hSuits : kind.Suits .zoneCollection found) :
    reader.Asks spot kind.sockets (reader.zoneCollectionAt spot kind found) := by
  unfold zoneCollectionAt
  split
  · rename_i hFound
    subst hFound
    exact (asks_zoneAt ⟨hSuits.1, rfl⟩).mapSome _
  · rename_i hFound
    cases kind
    case zonesOfType => exact (asks_requiredField _).mapSome _
    case getTyped => exact (asks_reference _ _).mapSome _
    case zoneForPlayer =>
      rcases hSuits.1 with hRole | hRole
      · cases hRole
        exact absurd rfl hFound
      · cases hRole
    all_goals exact hSuits.elim (by decide)

theorem asks_zoneCollection :
    reader.Asks spot [(input, .zoneCollection)] (reader.zoneCollection spot input) :=
  asks_socket fun _ => diagnostics_andThen_mapSome _ _ _

theorem asks_cardAt (hSuits : kind.Suits .card found) :
    reader.Asks spot kind.sockets (reader.cardAt spot kind found) := by
  cases kind
  case getTyped => exact (asks_reference _ _).mapSome _
  all_goals exact hSuits.elim (by decide)

theorem asks_card : reader.Asks spot [(input, .card)] (reader.card spot input) :=
  asks_socket fun _ => diagnostics_andThen_mapSome _ _ _

theorem asks_rankAt (hSuits : kind.Suits .rank found) :
    reader.Asks spot kind.sockets (reader.rankAt spot kind found) := by
  cases kind
  case rankLiteral => exact (asks_parsedField _ _).mapSome _
  case rankFromCard => exact asks_card.mapSome _
  case getTyped => exact asks_fail _
  all_goals exact hSuits.elim (by decide)

theorem asks_rank : reader.Asks spot [(input, .rank)] (reader.rank spot input) :=
  asks_socket fun _ => diagnostics_andThen_mapSome _ _ _

theorem asks_suitAt (hSuits : kind.Suits .suit found) :
    reader.Asks spot kind.sockets (reader.suitAt spot kind found) := by
  cases kind
  case suitLiteral => exact (asks_parsedField _ _).mapSome _
  case suitFromCard => exact asks_card.mapSome _
  case getTyped => exact asks_fail _
  all_goals exact hSuits.elim (by decide)

theorem asks_suit : reader.Asks spot [(input, .suit)] (reader.suit spot input) :=
  asks_socket fun _ => diagnostics_andThen_mapSome _ _ _

theorem asks_cardCollectionAt (hSuits : kind.Suits .cardCollection found) :
    reader.Asks spot kind.sockets (reader.cardCollectionAt spot kind found) := by
  unfold cardCollectionAt
  split
  · rename_i hFound
    subst hFound
    exact (asks_cardAt ⟨hSuits.1, rfl⟩).mapSome _
  · cases kind
    case getTyped => exact (asks_reference _ _).mapSome _
    case cardSelector => exact (asks_parsedField _ _).and asks_zone
    case cardsMatchingSuit => exact ((asks_pure _).and asks_zone).and asks_suit
    case cardsMatchingRank => exact ((asks_pure _).and asks_zone).and asks_rank
    all_goals exact hSuits.elim (by decide)

theorem asks_cardCollection :
    reader.Asks spot [(input, .cardCollection)] (reader.cardCollection spot input) :=
  asks_socket fun _ => diagnostics_andThen_mapSome _ _ _

theorem asks_numberAt (hSuits : kind.Suits .number found) :
    reader.Asks spot kind.sockets (reader.numberAt spot kind found) := by
  cases kind
  case numberLiteral => exact (asks_parsedField _ _).mapSome _
  case getNumber | getTyped => exact (asks_reference _ _).mapSome _
  case cardCount => exact asks_cardCollection.mapSome _
  all_goals exact hSuits.elim (by decide)

theorem asks_number : reader.Asks spot [(input, .number)] (reader.number spot input) :=
  asks_socket fun _ => diagnostics_andThen_mapSome _ _ _

theorem asks_booleanAt (hSuits : kind.Suits .boolean found) :
    reader.Asks spot kind.sockets (reader.booleanAt spot kind found) := by
  cases kind
  case booleanLiteral => exact (asks_parsedField _ _).mapSome _
  case compare =>
    exact (((asks_pure _).and (asks_parsedField _ _)).and asks_number).and asks_number
  case playerOfType => exact ((asks_pure _).and (asks_requiredField _)).and asks_player
  case getTyped => exact asks_fail _
  all_goals exact hSuits.elim (by decide)

theorem asks_boolean : reader.Asks spot [(input, .boolean)] (reader.boolean spot input) :=
  asks_socket fun _ => diagnostics_andThen_mapSome _ _ _

/-- The sockets that are read of a block in a place for a category: none if the place does not take
the block. -/
def valueSockets (reader : Reader) (spot : Spot) (expected : Category) :
    List (String × Category) :=
  match (reader.checkValue spot expected).value with
  | some (kind, _) => kind.sockets
  | none => []

theorem asks_expression (expected : Category) :
    reader.Asks spot (reader.valueSockets spot expected) (reader.expression spot expected) := by
  refine (asks_checkValue expected).andThen (fun checked hChecked => ?_) fun hChecked => ?_
  · obtain ⟨kind, found⟩ := checked
    have hSuits := suits_of_checkValue hChecked
    rw [valueSockets, hChecked]
    cases expected
    case number => exact (asks_numberAt hSuits).mapSome _
    case boolean => exact (asks_booleanAt hSuits).mapSome _
    case player => exact (asks_playerAt hSuits).mapSome _
    case playerCollection => exact (asks_playerCollectionAt hSuits).mapSome _
    case zone => exact (asks_zoneAt hSuits).mapSome _
    case zoneCollection => exact (asks_zoneCollectionAt hSuits).mapSome _
    case card => exact (asks_cardAt hSuits).mapSome _
    case cardCollection => exact (asks_cardCollectionAt hSuits).mapSome _
    case rank => exact (asks_rankAt hSuits).mapSome _
    case suit => exact (asks_suitAt hSuits).mapSome _
  · rw [valueSockets, hChecked]

/-! ## Members of chains -/

/-- The categories of a selection, from the type of its choice. -/
def choiceCategories? (reader : Reader) (node : NodeId) : Option SelectionCategories :=
  (reader.view.filledField? node Field.choiceType).bind fun text =>
    SelectionCategories.ofTag? (Text.trim text)

/-- The sockets of a block of a kind. That of a selection is read just if the type of its choice is
known. -/
def socketsOf (reader : Reader) (node : NodeId) : BlockKind → List (String × Category)
  | .choiceSelection =>
    (reader.choiceCategories? node).toList.map fun categories => (Input.source, categories.source)
  | kind => kind.sockets

/-- The sockets that are read of a member of a chain: none if the member has not the role of those
that the chain holds. -/
def memberSockets (reader : Reader) (node : NodeId) (role : BlockRole) :
    List (String × Category) :=
  match reader.view.kind? reader.vocabulary node with
  | some kind => if kind.role = role then reader.socketsOf node kind else []
  | none => []

theorem asks_member {role : BlockRole} {next : BlockKind → Reading (Option α)}
    (hNext : ∀ kind, reader.Asks spot
      (if kind.role = role then reader.socketsOf spot.node kind else []) (next kind)) :
    reader.Asks spot (reader.memberSockets spot.node role) ((reader.kind spot).andThen next) := by
  unfold memberSockets
  cases hKind : reader.view.kind? reader.vocabulary spot.node with
  | none =>
    rw [kind_eq_fail hKind, fail_andThen]
    exact asks_fail _
  | some kind =>
    rw [kind_eq_pure hKind, pure_andThen]
    exact hNext kind

theorem asks_memberOf {role : BlockRole} {read : Spot → BlockKind → Reading (Option α)}
    (hRead : ∀ kind, kind.role = role →
      reader.Asks spot (reader.socketsOf spot.node kind) (read spot kind)) :
    reader.Asks spot (reader.memberSockets spot.node role)
      (reader.member spot.path role read spot.node) := by
  refine asks_member fun kind => ?_
  by_cases hRole : kind.role = role
  · rw [if_pos hRole, if_pos hRole]
    exact hRead kind hRole
  · rw [if_neg hRole, if_neg hRole]
    exact asks_fail _

theorem asks_choiceType {tag : String} {categories : SelectionCategories}
    (h : SelectionCategories.ofTag? tag = some categories) :
    reader.Asks spot [(Input.source, categories.source)]
      (reader.choiceType spot categories.bound) := by
  unfold SelectionCategories.ofTag? at h
  split at h
  case h_1 | h_2 =>
    obtain rfl := Option.some.inj h
    exact asks_playerCollection.mapSome _
  case h_3 | h_4 =>
    obtain rfl := Option.some.inj h
    exact asks_cardCollection.mapSome _
  case h_5 => cases h

theorem asks_offerChoice (hRole : kind.role = .offerChoice) :
    reader.Asks spot (reader.socketsOf spot.node kind) (reader.offerChoice spot kind) := by
  cases kind
  case choiceMove => exact ((asks_pure _).and asks_zone).and asks_zone
  case choiceSelection =>
    refine Asks.and ((asks_pure _).and (asks_requiredField _))
      ((asks_parsedField _ _).andThen (fun categories hCategories => ?_) fun hNone => ?_)
    · rw [value_parsedField] at hCategories
      unfold choiceCategories?
      rw [hCategories]
      obtain ⟨text, -, hTag⟩ := Option.bind_eq_some_iff.mp hCategories
      exact asks_choiceType hTag
    · rw [value_parsedField] at hNone
      unfold choiceCategories?
      rw [hNone]
      rfl
  all_goals cases hRole

/-- What is reported for a chain in an input does not blame the block that holds it. -/
theorem asks_inside {reading : Reading α} (hInput : input ∈ Input.chains)
    (hInside : ∀ diagnostic ∈ reading.diagnostics, diagnostic.Inside spot input) :
    reader.Asks spot [] reading :=
  asks_nil fun diagnostic hMem hBlames =>
    absurd hBlames ((hInside diagnostic hMem).not_blames hInput)

theorem asks_body {depth : Nat} (hInput : input ∈ Input.chains) :
    reader.Asks spot [] (reader.body (reader.statement depth) spot input).always :=
  asks_inside hInput fun _ hMem => inside_body hMem

theorem asks_members {role : BlockRole} {read : Spot → BlockKind → Reading (Option α)}
    {first : Option NodeId} (hInput : input ∈ Input.chains)
    (hRead : ∀ inner kind, (read inner kind).Explained inner) :
    reader.Asks spot [] (reader.members (spot.within input) first role read).always :=
  asks_inside hInput fun _ hMem => inside_members hRead hMem

theorem asks_caseCondition (hRole : kind.role = .offerCase) :
    reader.Asks spot kind.sockets (reader.caseCondition spot kind) := by
  unfold caseCondition
  cases kind
  case offerCase =>
    split
    · exact asks_boolean.mapSome _
    · -- a case of the form with a condition may lack it, and then there is no value in the socket
      rename_i hAbsent
      have hInput : reader.view.input? spot.node Input.filter = none := by simpa using hAbsent
      intro diagnostic _ _
      refine iff_of_false List.not_mem_nil fun hIn => ?_
      obtain ⟨child, hChild, -⟩ := inSocket_singleton.mp hIn
      rw [hInput] at hChild
      cases hChild
  case openOfferCase => exact asks_pure _
  all_goals cases hRole

theorem asks_offerCase {depth : Nat} (hRole : kind.role = .offerCase) :
    reader.Asks spot (reader.socketsOf spot.node kind)
      (reader.offerCase (reader.statement depth) spot kind) := by
  have hChoices (inner : Spot) (kind : BlockKind) :
      (reader.offerChoice inner kind).Explained inner :=
    reader.explained_closed.toClosed.offerChoice
  cases kind
  case offerCase | openOfferCase =>
    exact (((asks_pure _).and (asks_caseCondition rfl)).and
      (asks_members (by decide) hChoices)).and (asks_body (by decide))
  all_goals cases hRole

theorem asks_offer {depth : Nat} (hOffer : kind.IsOffer) :
    reader.Asks spot kind.sockets (reader.offer (reader.statement depth) spot kind) := by
  have hCases (inner : Spot) (kind : BlockKind) :
      (reader.offerCase (reader.statement depth) inner kind).Explained inner :=
    reader.explained_closed.offerCase fun inner => reader.explained_closed.statement depth inner
  rcases hOffer with rfl | rfl
  · exact (((asks_pure _).and ((asks_requiredField _).mapSome _)).and asks_playerCollection).and
      (asks_members (by decide) hCases)
  · exact (((asks_pure _).and (asks_pure _)).and asks_playerCollection).and
      (asks_members (by decide) hCases)

theorem asks_statementOf {depth : Nat} :
    reader.Asks spot (if kind.role = .statement then reader.socketsOf spot.node kind else [])
      (reader.statementOf (reader.statement depth) spot kind) := by
  cases kind
  case enterPhase => exact (asks_requiredField _).mapSome _
  case setNumber => exact ((asks_pure _).and (asks_requiredField _)).and asks_number
  case ifElse =>
    exact (((asks_pure _).and asks_boolean).and (asks_body (by decide))).and (asks_body (by decide))
  case repeatWhile => exact ((asks_pure _).and asks_boolean).and (asks_body (by decide))
  case shuffle => exact asks_zoneCollection.mapSome _
  case generateCards => exact ((asks_pure _).and asks_cardSet).and asks_zone
  case dealCards =>
    exact (((asks_pure _).and asks_number).and asks_zone).and asks_zoneCollection
  case moveCards => exact ((asks_pure _).and asks_cardCollection).and asks_zone
  case declareWinner => exact asks_playerCollection.mapSome _
  case advancePlayer => exact asks_number.mapSome _
  case offer => exact asks_offer (Or.inl rfl)
  case unnamedOffer => exact asks_offer (Or.inr rfl)
  all_goals exact asks_fail _

/-- **Of the values below a member of a chain, just those in the sockets that are read are reported
with it.** A member deeper than the reading goes is not read at all, so the reading has to come to
an end. -/
theorem asks_item {chain : ChainKind} (hFinished : (reader.item spot chain).finished = true) :
    reader.Asks spot (reader.memberSockets spot.node chain.role) (reader.item spot chain) := by
  match chain, hFinished with
  | .statements (depth + 1), _ => exact (asks_member fun _ => asks_statementOf).mapSome _
  | .cases depth, _ => exact (asks_memberOf fun _ => asks_offerCase).mapSome _
  | .choices, _ => exact (asks_memberOf fun _ => asks_offerChoice).mapSome _

/-! ## Where reading comes -/

theorem not_mem_chains_of_mem_memberSockets {node : NodeId} {role : BlockRole} :
    ∀ socket ∈ reader.memberSockets node role, socket.1 ∉ Input.chains := by
  intro socket hMem
  unfold memberSockets at hMem
  split at hMem
  · rename_i kind _
    split at hMem
    · unfold socketsOf at hMem
      split at hMem
      · obtain ⟨categories, -, rfl⟩ := List.mem_map.mp hMem
        have hSource : Input.source ∉ Input.chains := by decide
        exact hSource
      · exact kind.not_mem_chains_of_mem_sockets socket hMem
    · cases hMem
  · cases hMem

theorem not_mem_chains_of_mem_valueSockets {expected : Category} :
    ∀ socket ∈ reader.valueSockets spot expected, socket.1 ∉ Input.chains := by
  intro socket hMem
  unfold valueSockets at hMem
  split at hMem
  · exact BlockKind.not_mem_chains_of_mem_sockets _ socket hMem
  · cases hMem

/-- What is reported for a value in a socket that is read is reported for the block. -/
theorem InSocket.mem_diagnostics {reading : Reading α} (h : reader.InSocket spot sockets diagnostic)
    (hAsks : reader.Asks spot sockets reading)
    (hSockets : ∀ socket ∈ sockets, socket.1 ∉ Input.chains) :
    diagnostic ∈ reading.diagnostics := by
  obtain ⟨input, category, child, hSocket, -, hMem⟩ := id h
  have hBlames : diagnostic.Blames ⟨child, spot.within input⟩ :=
    reader.blames_closed.expression category diagnostic hMem
  exact (hAsks diagnostic (hBlames.ofSocket (hSockets _ hSocket))
    hBlames.below.inside.not_standsAt).mpr h

/-- The places for a category in which values are read when reading begins with a chain. -/
inductive Takes (reader : Reader) (first : Option NodeId) : Spot → Category → Prop
  | ofMember {chain : ReadChain} {member child : NodeId} {input : String} {category : Category} :
      reader.Reads first chain → member ∈ reader.membersOf chain →
      (input, category) ∈ reader.memberSockets member chain.kind.role →
      reader.view.input? member input = some child →
      Takes reader first ⟨child, Spot.within ⟨member, chain.path⟩ input⟩ category
  | ofValue {spot : Spot} {child : NodeId} {input : String} {expected category : Category} :
      Takes reader first spot expected → (input, category) ∈ reader.valueSockets spot expected →
      reader.view.input? spot.node input = some child →
      Takes reader first ⟨child, spot.within input⟩ category

/-- When reading begins with a chain it comes to a block: to a member of a chain that is read, or to
a value in a socket that is read. -/
def ComesTo (reader : Reader) (first : Option NodeId) (node : NodeId) : Prop :=
  (∃ chain, reader.Reads first chain ∧ node ∈ reader.membersOf chain) ∨
    ∃ path category, reader.Takes first ⟨node, path⟩ category

variable {first : Option NodeId}

theorem Takes.diagnostics_subset {expected : Category} (h : reader.Takes first spot expected)
    (hFinished : (reader.readChain first).finished = true) :
    (reader.expression spot expected).diagnostics ⊆ (reader.readChain first).diagnostics := by
  induction h with
  | @ofMember chain member child input category hReads hMember hSocket hChild =>
    intro diagnostic hMem
    have hSection := hReads.section_item hMember
    have hIn : reader.InSocket ⟨member, chain.path⟩ (reader.memberSockets member chain.kind.role)
        diagnostic := ⟨input, category, child, hSocket, hChild, hMem⟩
    exact hSection.diagnostics (hIn.mem_diagnostics (asks_item (hSection.finished hFinished))
      not_mem_chains_of_mem_memberSockets)
  | @ofValue spot child input expected category _ hSocket hChild ih =>
    intro diagnostic hMem
    have hIn : reader.InSocket spot (reader.valueSockets spot expected) diagnostic :=
      ⟨input, category, child, hSocket, hChild, hMem⟩
    exact ih (hIn.mem_diagnostics (asks_expression expected) not_mem_chains_of_mem_valueSockets)

/-- What is reported for a value stands at a value that is read. -/
theorem Takes.exists_standsAt {expected : Category} (h : reader.Takes first spot expected)
    (hMem : diagnostic ∈ (reader.expression spot expected).diagnostics) :
    ∃ inner category, reader.Takes first inner category ∧ diagnostic.StandsAt inner := by
  -- Every value is one step further on the way to the block of the diagnostic.
  generalize hSteps : diagnostic.path.length - spot.path.length = steps
  induction steps using Nat.strongRecOn generalizing spot expected with
  | ind steps ih =>
    by_cases hAt : diagnostic.StandsAt spot
    · exact ⟨spot, expected, h, hAt⟩
    · have hBlames := reader.blames_closed.expression expected diagnostic hMem
      obtain ⟨input, category, child, hSocket, hChild, hInner⟩ :=
        (asks_expression expected diagnostic hBlames hAt).mp hMem
      obtain ⟨rest, hPath⟩ :=
        (reader.blames_closed.expression category diagnostic hInner).below.inside
      have hLength : diagnostic.path.length = spot.path.length + 1 + rest.length := by
        rw [hPath, List.length_append, Spot.within, List.length_append, List.length_singleton]
      have hLonger : (spot.within input).length = spot.path.length + 1 := by
        rw [Spot.within, List.length_append, List.length_singleton]
      exact ih _ (by dsimp only; omega) (h.ofValue hSocket hChild) hInner rfl

/-- **Every diagnostic stands at a block to which reading comes.** -/
theorem comesTo_of_mem_diagnostics (hFinished : (reader.readChain first).finished = true)
    (hMem : diagnostic ∈ (reader.readChain first).diagnostics) :
    reader.ComesTo first diagnostic.node := by
  obtain ⟨chain, member, hReads, hMember, hBlames⟩ :=
    Reads.top.exists_blamed (section_top.complete diagnostic hMem trivial)
  by_cases hAt : diagnostic.StandsAt ⟨member, chain.path⟩
  · exact Or.inl ⟨chain, hReads, hAt.1 ▸ hMember⟩
  · have hSection := hReads.section_item hMember
    obtain ⟨input, category, child, hSocket, hChild, hInner⟩ :=
      (asks_item (hSection.finished hFinished) diagnostic hBlames hAt).mp
        (hSection.complete diagnostic hMem hBlames.below)
    obtain ⟨inner, found, hTakes, hNode, -⟩ :=
      (Takes.ofMember hReads hMember hSocket hChild).exists_standsAt hInner
    exact Or.inr ⟨inner.path, found, hNode ▸ hTakes⟩

/-! ## Hats are neither members of chains nor values -/

theorem exists_error_item (hHat : reader.view.kind? reader.vocabulary spot.node = some .phase)
    {chain : ChainKind} (hFinished : (reader.item spot chain).finished = true) :
    ∃ diagnostic ∈ (reader.item spot chain).diagnostics,
      diagnostic.node = spot.node ∧ diagnostic.isError = true := by
  match chain, hFinished with
  | .statements (depth + 1), _ =>
    rw [item, statement, kind_eq_pure hHat, diagnostics_mapSome]
    exact ⟨_, List.mem_singleton_self _, rfl, rfl⟩
  | .cases depth, _ | .choices, _ =>
    rw [item, member, kind_eq_pure hHat, diagnostics_mapSome]
    exact ⟨_, List.mem_singleton_self _, rfl, rfl⟩

theorem exists_error_expression {hat : NodeId}
    (hHat : reader.view.kind? reader.vocabulary hat = some .phase) (path : List PathSegment)
    (expected : Category) :
    ∃ diagnostic ∈ (reader.expression ⟨hat, path⟩ expected).diagnostics,
      diagnostic.node = hat ∧ diagnostic.isError = true := by
  have hKind : reader.kind ⟨hat, path⟩ = pure (some .phase) := kind_eq_pure hHat
  rw [expression, checkValue, hKind]
  exact ⟨_, List.mem_singleton_self _, rfl, rfl⟩

/-- **At a hat to which reading comes an error is reported.** -/
theorem ComesTo.exists_error {hat : NodeId} (h : reader.ComesTo first hat)
    (hHat : reader.view.kind? reader.vocabulary hat = some .phase)
    (hFinished : (reader.readChain first).finished = true) :
    ∃ diagnostic ∈ (reader.readChain first).diagnostics,
      diagnostic.node = hat ∧ diagnostic.isError = true := by
  rcases h with ⟨chain, hReads, hMember⟩ | ⟨path, category, hTakes⟩
  · have hSection := hReads.section_item hMember
    obtain ⟨diagnostic, hMem, hError⟩ := exists_error_item hHat (hSection.finished hFinished)
    exact ⟨diagnostic, hSection.diagnostics hMem, hError⟩
  · obtain ⟨diagnostic, hMem, hError⟩ :=
      exists_error_expression hHat path category
    exact ⟨diagnostic, hTakes.diagnostics_subset hFinished hMem, hError⟩

end Reader

end RuleBlocks
