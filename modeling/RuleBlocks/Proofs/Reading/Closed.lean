import RuleBlocks.Proofs.Reading.Combinators

/-!
# Properties that every reading has

Readings are put together in a few ways: from values, from faults, from parts, from what stands in a
socket and from what stands in a chain. A property of readings at spots that is kept by all of these
is closed (`Closed` for values, `ClosedUnderChains` for statements too), and a closed property holds
of whatever a reader reads (`Closed.boolean`, `ClosedUnderChains.statement`). So a fact about all
readings, such as where their diagnostics stand, needs a proof for every way of putting readings
together, and no proof for every kind of block.
-/

namespace RuleBlocks

/-- The inputs that hold a chain: statements, cases or choices. All others are sockets for a
value. -/
def Input.chains : List String := [goTrue, goFalse, body, cases, offers, actions]

/-- Whether blocks of a kind are read without any chain in them. -/
def BlockKind.isSimple : BlockKind → Bool
  | ifElse | repeatWhile | offer | unnamedOffer => false
  | _ => true

namespace Reader

open Reading

/-- A property of readings at spots that is kept wherever a value is read. -/
structure Closed (reader : Reader) (P : (α : Type) → Spot → Reading (Option α) → Prop) : Prop where
  pure {α : Type} (spot : Spot) (value : α) : P α spot (pure (some value))
  fail {α : Type} (spot : Spot) (error : ReadError) : P α spot (reader.fail spot error)
  mapSome {α β : Type} {spot : Spot} {reading : Reading (Option α)} (f : α → β) :
    P α spot reading → P β spot (reading.mapSome f)
  andThen {α β : Type} {spot : Spot} {reading : Reading (Option α)}
    {next : α → Reading (Option β)} :
    P α spot reading → (∀ value, P β spot (next value)) → P β spot (reading.andThen next)
  and {α β : Type} {spot : Spot} {f : Reading (Option (α → β))} {reading : Reading (Option α)} :
    P (α → β) spot f → P α spot reading → P β spot (f.and reading)
  checked (spot : Spot) (category : Category) (name : String) :
    P String spot (do
      reader.checkReference spot category name
      return some name)
  /-- What holds of the reading of a value holds of the block that takes it. -/
  socket {α : Type} {spot : Spot} {input : String} {child : NodeId} {reading : Reading (Option α)} :
    reader.view.input? spot.node input = some child → input ∉ Input.chains →
      P α ⟨child, spot.within input⟩ reading → P α spot reading

namespace Closed

variable {reader : Reader} {P : (α : Type) → Spot → Reading (Option α) → Prop}
variable {spot : Spot} {input : String} {α : Type}

section

variable (hP : reader.Closed P)

include hP

/-! ## Fields and sockets -/

theorem parts (f : α) : P α spot (parts f) := hP.pure spot f

theorem typeMismatch (expected found : Category) :
    P α spot (reader.typeMismatch spot expected found) := hP.fail spot _

theorem kind : P BlockKind spot (reader.kind spot) := by
  unfold Reader.kind
  split
  · exact hP.pure spot _
  · exact hP.fail spot _

theorem requiredField (field : String) : P String spot (reader.requiredField spot field) := by
  unfold Reader.requiredField
  split
  · exact hP.pure spot _
  · exact hP.fail spot _

theorem parsedField (field : String) (parse : String → Option α) :
    P α spot (reader.parsedField spot field parse) := by
  refine hP.andThen (hP.requiredField field) fun text => ?_
  split
  · exact hP.pure spot _
  · exact hP.fail spot _

theorem reference (field : String) (category : Category) :
    P String spot (reader.reference spot field category) :=
  hP.andThen (hP.requiredField field) fun name => hP.checked spot category name

theorem variableCategory : P Category spot (reader.variableCategory spot) := by
  refine hP.andThen (hP.requiredField Field.category) fun tag => ?_
  split
  · exact hP.pure spot _
  · exact hP.fail spot _

theorem checkValue (expected : Category) :
    P (BlockKind × Category) spot (reader.checkValue spot expected) := by
  refine hP.andThen hP.kind fun kind => hP.andThen ?_ fun found => ?_
  · split
    · exact hP.pure spot _
    · exact hP.variableCategory
    all_goals exact hP.fail spot _
  · split
    · exact hP.pure spot _
    · exact hP.typeMismatch expected found

theorem ofSocket {expected : Category} {read : Spot → BlockKind → Category → Reading (Option α)}
    (hInput : input ∉ Input.chains)
    (hRead : ∀ inner kind found, P α inner (read inner kind found)) :
    P α spot (reader.socket spot input expected read) := by
  unfold Reader.socket
  split
  · exact hP.fail spot _
  · rename_i child hChild
    exact hP.socket hChild hInput
      (hP.andThen (hP.checkValue expected) fun checked => hRead _ checked.1 checked.2)

end

variable {kind : BlockKind} {found : Category}

/-! ## Values -/

theorem playerAt (hP : reader.Closed P) : P _ spot (reader.playerAt spot kind found) := by
  unfold Reader.playerAt
  split
  · exact hP.pure spot _
  · exact hP.mapSome _ (hP.reference _ _)
  · exact hP.typeMismatch _ _

theorem player (hP : reader.Closed P) (hInput : input ∉ Input.chains) :
    P _ spot (reader.player spot input) := hP.ofSocket hInput fun _ _ _ => hP.playerAt

theorem playerCollectionAt (hP : reader.Closed P) :
    P _ spot (reader.playerCollectionAt spot kind found) := by
  unfold Reader.playerCollectionAt
  split
  · exact hP.mapSome _ hP.playerAt
  · split
    · exact hP.pure spot _
    · exact hP.mapSome _ (hP.reference _ _)
    · exact hP.typeMismatch _ _

theorem playerCollection (hP : reader.Closed P) (hInput : input ∉ Input.chains) :
    P _ spot (reader.playerCollection spot input) :=
  hP.ofSocket hInput fun _ _ _ => hP.playerCollectionAt

theorem zoneAt (hP : reader.Closed P) : P _ spot (reader.zoneAt spot kind found) := by
  unfold Reader.zoneAt
  split
  · exact hP.and (hP.and (hP.parts _) (hP.requiredField _)) (hP.player (by decide))
  · exact hP.mapSome _ (hP.reference _ _)
  · exact hP.typeMismatch _ _

theorem zone (hP : reader.Closed P) (hInput : input ∉ Input.chains) :
    P _ spot (reader.zone spot input) := hP.ofSocket hInput fun _ _ _ => hP.zoneAt

theorem zoneCollectionAt (hP : reader.Closed P) :
    P _ spot (reader.zoneCollectionAt spot kind found) := by
  unfold Reader.zoneCollectionAt
  split
  · exact hP.mapSome _ hP.zoneAt
  · split
    · exact hP.mapSome _ (hP.requiredField _)
    · exact hP.mapSome _ (hP.reference _ _)
    · exact hP.typeMismatch _ _

theorem zoneCollection (hP : reader.Closed P) (hInput : input ∉ Input.chains) :
    P _ spot (reader.zoneCollection spot input) :=
  hP.ofSocket hInput fun _ _ _ => hP.zoneCollectionAt

theorem cardAt (hP : reader.Closed P) : P _ spot (reader.cardAt spot kind found) := by
  unfold Reader.cardAt
  split
  · exact hP.mapSome _ (hP.reference _ _)
  · exact hP.typeMismatch _ _

theorem card (hP : reader.Closed P) (hInput : input ∉ Input.chains) :
    P _ spot (reader.card spot input) := hP.ofSocket hInput fun _ _ _ => hP.cardAt

theorem rankAt (hP : reader.Closed P) : P _ spot (reader.rankAt spot kind found) := by
  unfold Reader.rankAt
  split
  · exact hP.mapSome _ (hP.parsedField _ _)
  · exact hP.mapSome _ (hP.card (by decide))
  · exact hP.typeMismatch _ _

theorem rank (hP : reader.Closed P) (hInput : input ∉ Input.chains) :
    P _ spot (reader.rank spot input) := hP.ofSocket hInput fun _ _ _ => hP.rankAt

theorem suitAt (hP : reader.Closed P) : P _ spot (reader.suitAt spot kind found) := by
  unfold Reader.suitAt
  split
  · exact hP.mapSome _ (hP.parsedField _ _)
  · exact hP.mapSome _ (hP.card (by decide))
  · exact hP.typeMismatch _ _

theorem suit (hP : reader.Closed P) (hInput : input ∉ Input.chains) :
    P _ spot (reader.suit spot input) := hP.ofSocket hInput fun _ _ _ => hP.suitAt

theorem cardCollectionAt (hP : reader.Closed P) :
    P _ spot (reader.cardCollectionAt spot kind found) := by
  unfold Reader.cardCollectionAt
  split
  · exact hP.mapSome _ hP.cardAt
  · split
    · exact hP.mapSome _ (hP.reference _ _)
    · exact hP.and (hP.parsedField _ _) (hP.zone (by decide))
    · exact hP.and (hP.and (hP.parts _) (hP.zone (by decide))) (hP.suit (by decide))
    · exact hP.and (hP.and (hP.parts _) (hP.zone (by decide))) (hP.rank (by decide))
    · exact hP.typeMismatch _ _

theorem cardCollection (hP : reader.Closed P) (hInput : input ∉ Input.chains) :
    P _ spot (reader.cardCollection spot input) :=
  hP.ofSocket hInput fun _ _ _ => hP.cardCollectionAt

theorem numberAt (hP : reader.Closed P) : P _ spot (reader.numberAt spot kind found) := by
  unfold Reader.numberAt
  split
  · exact hP.mapSome _ (hP.parsedField _ _)
  · exact hP.mapSome _ (hP.reference _ _)
  · exact hP.mapSome _ (hP.reference _ _)
  · exact hP.mapSome _ (hP.cardCollection (by decide))
  · exact hP.typeMismatch _ _

theorem number (hP : reader.Closed P) (hInput : input ∉ Input.chains) :
    P _ spot (reader.number spot input) := hP.ofSocket hInput fun _ _ _ => hP.numberAt

theorem booleanAt (hP : reader.Closed P) : P _ spot (reader.booleanAt spot kind found) := by
  unfold Reader.booleanAt
  split
  · exact hP.mapSome _ (hP.parsedField _ _)
  · exact hP.and (hP.and (hP.and (hP.parts _) (hP.parsedField _ _)) (hP.number (by decide)))
      (hP.number (by decide))
  · exact hP.and (hP.and (hP.parts _) (hP.requiredField _)) (hP.player (by decide))
  · exact hP.typeMismatch _ _

theorem boolean (hP : reader.Closed P) (hInput : input ∉ Input.chains) :
    P _ spot (reader.boolean spot input) := hP.ofSocket hInput fun _ _ _ => hP.booleanAt

theorem expression (hP : reader.Closed P) (category : Category) :
    P _ spot (reader.expression spot category) := by
  refine hP.andThen (hP.checkValue category) fun checked => ?_
  cases category
  case number => exact hP.mapSome _ hP.numberAt
  case boolean => exact hP.mapSome _ hP.booleanAt
  case player => exact hP.mapSome _ hP.playerAt
  case playerCollection => exact hP.mapSome _ hP.playerCollectionAt
  case zone => exact hP.mapSome _ hP.zoneAt
  case zoneCollection => exact hP.mapSome _ hP.zoneCollectionAt
  case card => exact hP.mapSome _ hP.cardAt
  case cardCollection => exact hP.mapSome _ hP.cardCollectionAt
  case rank => exact hP.mapSome _ hP.rankAt
  case suit => exact hP.mapSome _ hP.suitAt

/-! ## Parts of statements without chains -/

theorem cardSet (hP : reader.Closed P) : P _ spot (reader.cardSet spot) := by
  unfold Reader.cardSet
  split
  · exact hP.pure spot _
  · split
    · exact hP.pure spot _
    · exact hP.fail spot _

theorem choiceType (hP : reader.Closed P) {bound : Category} :
    P _ spot (reader.choiceType spot bound) := by
  unfold Reader.choiceType
  split
  · exact hP.mapSome _ (hP.playerCollection (by decide))
  · exact hP.mapSome _ (hP.playerCollection (by decide))
  · exact hP.mapSome _ (hP.cardCollection (by decide))
  · exact hP.mapSome _ (hP.cardCollection (by decide))

theorem offerChoice (hP : reader.Closed P) : P _ spot (reader.offerChoice spot kind) := by
  unfold Reader.offerChoice
  split
  · exact hP.and (hP.and (hP.parts _) (hP.zone (by decide))) (hP.zone (by decide))
  · exact hP.and (hP.and (hP.parts _) (hP.requiredField _))
      (hP.andThen (hP.parsedField _ _) fun _ => hP.choiceType)

theorem caseCondition (hP : reader.Closed P) : P _ spot (reader.caseCondition spot kind) := by
  unfold Reader.caseCondition
  split
  · exact hP.mapSome _ (hP.boolean (by decide))
  · exact hP.pure spot _

theorem offerPlayer (hP : reader.Closed P) : P _ spot (reader.offerPlayer spot kind) := by
  unfold Reader.offerPlayer
  split
  · exact hP.mapSome _ (hP.requiredField _)
  · exact hP.pure spot _

/-- A member of a chain whose members have a role. -/
theorem member (hP : reader.Closed P) {role : BlockRole}
    {read : Spot → BlockKind → Reading (Option α)}
    {path : List PathSegment} {node : NodeId}
    (hRead : ∀ kind, P α ⟨node, path⟩ (read ⟨node, path⟩ kind)) :
    P α ⟨node, path⟩ (reader.member path role read node) := by
  refine hP.andThen hP.kind fun kind => ?_
  split
  · exact hRead kind
  · exact hP.fail _ _

/-- A statement that holds no chains is read from values alone. -/
theorem statementOf (hP : reader.Closed P) {read : Spot → Reading (Option Statement)}
    (hSimple : kind.isSimple = true) : P _ spot (reader.statementOf read spot kind) := by
  unfold Reader.statementOf
  cases kind
  case ifElse | repeatWhile | offer | unnamedOffer => cases hSimple
  case enterPhase => exact hP.mapSome _ (hP.requiredField _)
  case setNumber =>
    exact hP.and (hP.and (hP.parts _) (hP.requiredField _)) (hP.number (by decide))
  case shuffle => exact hP.mapSome _ (hP.zoneCollection (by decide))
  case generateCards => exact hP.and (hP.and (hP.parts _) hP.cardSet) (hP.zone (by decide))
  case dealCards =>
    exact hP.and (hP.and (hP.and (hP.parts _) (hP.number (by decide))) (hP.zone (by decide)))
      (hP.zoneCollection (by decide))
  case moveCards =>
    exact hP.and (hP.and (hP.parts _) (hP.cardCollection (by decide))) (hP.zone (by decide))
  case declareWinner => exact hP.mapSome _ (hP.playerCollection (by decide))
  case advancePlayer => exact hP.mapSome _ (hP.number (by decide))
  all_goals exact hP.fail spot _

end Closed

/-! ## Statements -/

theorem body_always (reader : Reader) (read : Spot → Reading (Option Statement)) (spot : Spot)
    (input : String) :
    (reader.body read spot input).always =
      (collect (fun node => read ⟨node, spot.within input⟩)
        (reader.chain (reader.view.input? spot.node input))).always.mapSome .ofChain := by
  unfold body chainStatement always mapSome
  generalize collect _ _ = reading
  obtain ⟨value, diagnostics, finished⟩ := reading
  simp [bind, Pure.pure]

/-- A property of readings at spots that is kept wherever a statement is read. -/
structure ClosedUnderChains (reader : Reader)
    (P : (α : Type) → Spot → Reading (Option α) → Prop) : Prop extends reader.Closed P where
  /-- A reading that goes on for ever has the property. -/
  endless {α : Type} (spot : Spot) : P α spot (.endless none)
  /-- What holds of the readings of the members of a chain holds of the block that holds the
  chain. -/
  chain {α : Type} {spot : Spot} {input : String} {read : NodeId → Reading (Option α)} :
    input ∈ Input.chains →
      (∀ node ∈ reader.chain (reader.view.input? spot.node input),
        P α ⟨node, spot.within input⟩ (read node)) →
      P (List α) spot (collect read (reader.chain (reader.view.input? spot.node input))).always

namespace ClosedUnderChains

variable {reader : Reader} {P : (α : Type) → Spot → Reading (Option α) → Prop}
variable {spot : Spot} {kind : BlockKind} {input : String} {α : Type}
variable {read : Spot → Reading (Option Statement)}

section

variable (hP : reader.ClosedUnderChains P)

include hP

theorem members {role : BlockRole} {read : Spot → BlockKind → Reading (Option α)}
    (hInput : input ∈ Input.chains) (hRead : ∀ inner kind, P α inner (read inner kind)) :
    P _ spot (reader.members (spot.within input) (reader.view.input? spot.node input) role
      read).always :=
  hP.chain hInput fun _ _ => hP.toClosed.member (hRead _)

theorem body (hInput : input ∈ Input.chains) (hRead : ∀ inner, P Statement inner (read inner)) :
    P _ spot (reader.body read spot input).always := by
  rw [body_always]
  exact hP.mapSome _ (hP.chain hInput fun _ _ => hRead _)

theorem offerCase (hRead : ∀ inner, P Statement inner (read inner)) :
    P _ spot (reader.offerCase read spot kind) :=
  hP.and (hP.and (hP.and (hP.toClosed.parts _) hP.toClosed.caseCondition)
    (hP.members (by decide) fun _ _ => hP.toClosed.offerChoice)) (hP.body (by decide) hRead)

theorem offer (hRead : ∀ inner, P Statement inner (read inner)) :
    P _ spot (reader.offer read spot kind) :=
  hP.and (hP.and (hP.and (hP.toClosed.parts _) hP.toClosed.offerPlayer)
    (hP.toClosed.playerCollection (by decide)))
    (hP.members (by decide) fun _ _ => hP.offerCase hRead)

theorem statementOf (hRead : ∀ inner, P Statement inner (read inner)) :
    P _ spot (reader.statementOf read spot kind) := by
  cases kind
  case ifElse =>
    exact hP.and (hP.and (hP.and (hP.toClosed.parts _) (hP.toClosed.boolean (by decide)))
      (hP.body (by decide) hRead)) (hP.body (by decide) hRead)
  case repeatWhile =>
    exact hP.and (hP.and (hP.toClosed.parts _) (hP.toClosed.boolean (by decide)))
      (hP.body (by decide) hRead)
  case offer | unnamedOffer => exact hP.offer hRead
  all_goals exact hP.toClosed.statementOf rfl

/-- **A closed property holds of every statement that is read.** -/
theorem statement (depth : Nat) (spot : Spot) : P _ spot (reader.statement depth spot) := by
  induction depth generalizing spot with
  | zero => exact hP.endless spot
  | succ depth ih => exact hP.andThen hP.toClosed.kind fun _ => hP.statementOf ih

end

end ClosedUnderChains

end Reader

end RuleBlocks
