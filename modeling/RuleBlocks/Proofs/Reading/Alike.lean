import RuleBlocks.Proofs.Reading.Combinators
import RuleBlocks.Reading.Typed
import Mathlib.Data.List.Forall2

/-!
# Readers that go in step

Two readers may go side by side through blocks that correspond to each other: with and without a
check of references, in two graphs, or with two vocabularies. They go in step (`InStep`) for a
relation between readings if they find the same at blocks that correspond and if their reports of
single faults are related. If the relation holds of a whole whenever it holds of the parts
(`Congruence`), then whatever they read is related (`InStep.readChain`,
`InStepInside.readExpression`, `InStep.addPhases`). For a single statement it does not matter what
comes after its block, so there it is enough that they go in step inside blocks
(`InStepInside.statement_depths`).

So a statement about two runs of a reader needs a proof for single blocks and single reports, and no
proof for every kind of block.
-/

namespace RuleBlocks

/-- Two ways lead through the same inputs of blocks that correspond. -/
def PathsMatch (R : NodeId → NodeId → Prop) : List PathSegment → List PathSegment → Prop :=
  List.Forall₂ fun step other => R step.node other.node ∧ step.input = other.input

/-- Two spots stand at blocks that correspond, and so do the ways to them. -/
structure Spot.Match (R : NodeId → NodeId → Prop) (spot other : Spot) : Prop where
  node : R spot.node other.node
  path : PathsMatch R spot.path other.path

namespace Spot.Match

variable {R : NodeId → NodeId → Prop} {spot other : Spot}

theorem start {node second : NodeId} (h : R node second) : Match R ⟨node, []⟩ ⟨second, []⟩ :=
  ⟨h, .nil⟩

theorem within (h : spot.Match R other) (input : String) :
    PathsMatch R (spot.within input) (other.within input) :=
  List.rel_append h.path (.cons ⟨h.node, rfl⟩ .nil)

theorem currentInput_eq (h : spot.Match R other) : spot.currentInput = other.currentInput := by
  have hReverse := List.rel_reverse h.path
  unfold currentInput
  rw [List.getLast?_eq_head?_reverse, List.getLast?_eq_head?_reverse]
  generalize spot.path.reverse = steps, other.path.reverse = others at hReverse
  cases hReverse with
  | nil => rfl
  | cons hStep _ => exact hStep.2

/-- Where blocks correspond to themselves only, so do spots. -/
theorem eq (h : spot.Match (· = ·) other) : spot = other := by
  obtain ⟨node, path⟩ := spot
  obtain ⟨node', path'⟩ := other
  obtain ⟨rfl, hPath⟩ := h
  have hSteps : List.Forall₂ (· = ·) path path' := by
    refine hPath.imp ?_
    rintro ⟨block, input⟩ ⟨block', input'⟩ ⟨rfl, rfl⟩
    rfl
  rw [List.forall₂_eq_eq_eq] at hSteps
  rw [hSteps]

end Spot.Match

theorem rel_eq_iff {value? other? : Option NodeId} :
    Option.Rel (· = ·) value? other? ↔ value? = other? := by
  cases value? <;> cases other? <;> simp

namespace Reading

variable {α β : Type}

/-! ## Relations between readings -/

/-- A relation between readings that holds of a whole if it holds of its parts. -/
structure Congruence (T : (α : Type) → Reading α → Reading α → Prop) : Prop where
  pure {α : Type} (value : α) : T α (Pure.pure value) (Pure.pure value)
  endless {α : Type} (value : α) : T α (.endless value) (.endless value)
  bind {α β : Type} {first second : Reading α} {next other : α → Reading β} :
    T α first second → (∀ value, T β (next value) (other value)) →
      T β (first >>= next) (second >>= other)

namespace Congruence

variable {T : (α : Type) → Reading α → Reading α → Prop} (hT : Congruence T)

include hT

theorem map (f : α → β) {first second : Reading α} (hReading : T α first second) :
    T β (first >>= fun value => Pure.pure (f value))
      (second >>= fun value => Pure.pure (f value)) :=
  hT.bind hReading fun value => hT.pure (f value)

theorem andThen {first second : Reading (Option α)} {next other : α → Reading (Option β)}
    (hReading : T _ first second) (hNext : ∀ value, T _ (next value) (other value)) :
    T _ (first.andThen next) (second.andThen other) := by
  refine hT.bind hReading fun value? => ?_
  cases value? with
  | none => exact hT.pure none
  | some value => exact hNext value

theorem mapSome {f : α → β} {first second : Reading (Option α)} (hReading : T _ first second) :
    T _ (first.mapSome f) (second.mapSome f) := hT.map _ hReading

theorem always {first second : Reading α} (hReading : T _ first second) :
    T _ first.always second.always := hT.map _ hReading

theorem parts (f : α) : T _ (Reading.parts f) (Reading.parts f) := hT.pure (some f)

theorem and {f g : Reading (Option (α → β))} {first second : Reading (Option α)}
    (hFunction : T _ f g) (hReading : T _ first second) : T _ (f.and first) (g.and second) :=
  hT.bind hFunction fun _ => hT.map _ hReading

/-- Collections are related if what is read member by member is. -/
theorem collect {R : NodeId → NodeId → Prop} {read other : NodeId → Reading (Option α)}
    {nodes others : List NodeId} (hNodes : List.Forall₂ R nodes others)
    (hRead : ∀ node second, R node second → T _ (read node) (other second)) :
    T _ (Reading.collect read nodes) (Reading.collect other others) := by
  induction hNodes with
  | nil => exact hT.pure []
  | cons hNode _ ih => exact hT.bind (hRead _ _ hNode) fun _ => hT.map _ ih

end Congruence

/-- A relation between reports that can be checked report by report. -/
structure Additive (D : List Diagnostic → List Diagnostic → Prop) : Prop where
  nil : D [] []
  append {first second more moreSecond : List Diagnostic} :
    D first second → D more moreSecond → D (first ++ more) (second ++ moreSecond)

/-- Two readings give the same and end together, and their reports are related. -/
structure Alike (D : List Diagnostic → List Diagnostic → Prop) (α : Type)
    (first second : Reading α) : Prop where
  value : first.value = second.value
  finished : first.finished = second.finished
  diagnostics : D first.diagnostics second.diagnostics

/-- Two readings are alike if both of them come to an end. -/
def AlikeAtEnd (D : List Diagnostic → List Diagnostic → Prop) (α : Type)
    (first second : Reading α) : Prop :=
  first.finished = true → second.finished = true → Alike D α first second

variable {D : List Diagnostic → List Diagnostic → Prop}

theorem Alike.bind (hD : Additive D) {first second : Reading α} {next other : α → Reading β}
    (hReading : Alike D α first second)
    (hNext : Alike D β (next first.value) (other first.value)) :
    Alike D β (first >>= next) (second >>= other) := by
  refine ⟨?_, ?_, ?_⟩
  · rw [value_bind, value_bind, ← hReading.value, hNext.value]
  · rw [finished_bind, finished_bind, ← hReading.value, hReading.finished, hNext.finished]
  · rw [diagnostics_bind, diagnostics_bind, ← hReading.value]
    exact hD.append hReading.diagnostics hNext.diagnostics

theorem Additive.congruence (hD : Additive D) : Congruence (Alike D) where
  pure _ := ⟨rfl, rfl, hD.nil⟩
  endless _ := ⟨rfl, rfl, hD.nil⟩
  bind hReading hNext := hReading.bind hD (hNext _)

/-- A whole comes to an end only if its parts do. -/
theorem Additive.congruence_atEnd (hD : Additive D) : Congruence (AlikeAtEnd D) where
  pure _ _ _ := ⟨rfl, rfl, hD.nil⟩
  endless _ _ _ := ⟨rfl, rfl, hD.nil⟩
  bind hReading hNext hFirst hSecond := by
    rw [finished_bind, Bool.and_eq_true] at hFirst hSecond
    have hAlike := hReading hFirst.1 hSecond.1
    rw [← hAlike.value] at hSecond
    exact hAlike.bind hD (hNext _ hFirst.2 hSecond.2)

end Reading

namespace Reader

open Reading

/-- Two readers find the same at blocks that correspond and in what these hold, and their reports of
single faults are related. Nothing is said of the blocks that come next. -/
structure InStepInside (first second : Reader) (R : NodeId → NodeId → Prop)
    (T : (α : Type) → Reading α → Reading α → Prop) : Prop extends Congruence T where
  kind? {node other : NodeId} : R node other →
    first.view.kind? first.vocabulary node = second.view.kind? second.vocabulary other
  field? {node other : NodeId} (field : String) : R node other →
    first.view.field? node field = second.view.field? other field
  input? {node other : NodeId} (input : String) : R node other →
    Option.Rel R (first.view.input? node input) (second.view.input? other input)
  held {node other : NodeId} (input : String) : R node other →
    List.Forall₂ R (first.chain (first.view.input? node input))
      (second.chain (second.view.input? other input))
  error {spot other : Spot} (error : ReadError) : spot.Match R other →
    T Unit (first.report spot .error error) (second.report other .error error)
  /-- The tag of a block of no known kind is part of the fault itself. -/
  unknown {node other : NodeId} : R node other →
    first.view.kind? first.vocabulary node = none →
      first.view.shownTag node = second.view.shownTag other
  checked {spot other : Spot} (category : Category) (name : String) : spot.Match R other →
    T Unit (first.checkReference spot category name) (second.checkReference other category name)

/-- Two readers find the same at blocks that correspond and in the chains from them, and their
reports of single faults are related. -/
structure InStep (first second : Reader) (R : NodeId → NodeId → Prop)
    (T : (α : Type) → Reading α → Reading α → Prop) : Prop
    extends InStepInside first second R T where
  chain {start other : Option NodeId} : Option.Rel R start other →
    List.Forall₂ R (first.chain start) (second.chain other)
  held input hNode := chain (input? input hNode)

namespace InStepInside

variable {first second : Reader} {R : NodeId → NodeId → Prop}
variable {T : (α : Type) → Reading α → Reading α → Prop} {spot other : Spot} {input : String}
variable {α : Type} (hStep : first.InStepInside second R T)

section

variable (hSpot : spot.Match R other)

include hStep hSpot

/-! ## Fields and sockets -/

theorem fail (error : ReadError) :
    T _ (first.fail spot error : Reading (Option α)) (second.fail other error) :=
  hStep.bind (hStep.error error hSpot) fun _ => hStep.pure none

theorem typeMismatch (expected found : Category) :
    T _ (first.typeMismatch spot expected found : Reading (Option α))
      (second.typeMismatch other expected found) := by
  unfold Reader.typeMismatch
  rw [hSpot.currentInput_eq]
  exact hStep.fail hSpot _

theorem kind : T _ (first.kind spot) (second.kind other) := by
  have hKind := hStep.kind? hSpot.node
  unfold Reader.kind
  rw [← hKind]
  cases hFound : first.view.kind? first.vocabulary spot.node with
  | some kind => exact hStep.pure _
  | none =>
    dsimp only
    rw [hStep.unknown hSpot.node hFound]
    exact hStep.fail hSpot _

theorem requiredField (field : String) :
    T _ (first.requiredField spot field) (second.requiredField other field) := by
  unfold Reader.requiredField View.filledField?
  rw [hStep.field? field hSpot.node]
  split
  · exact hStep.pure _
  · exact hStep.fail hSpot _

theorem parsedField (field : String) (parse : String → Option α) :
    T _ (first.parsedField spot field parse) (second.parsedField other field parse) := by
  refine hStep.andThen (hStep.requiredField hSpot field) fun text => ?_
  split
  · exact hStep.pure _
  · exact hStep.fail hSpot _

theorem reference (field : String) (category : Category) :
    T _ (first.reference spot field category) (second.reference other field category) :=
  hStep.andThen (hStep.requiredField hSpot field) fun name =>
    hStep.bind (hStep.checked category name hSpot) fun _ => hStep.pure (some name)

theorem variableCategory :
    T _ (first.variableCategory spot) (second.variableCategory other) := by
  refine hStep.andThen (hStep.requiredField hSpot Field.category) fun tag => ?_
  split
  · exact hStep.pure _
  · exact hStep.fail hSpot _

theorem checkValue (expected : Category) :
    T _ (first.checkValue spot expected) (second.checkValue other expected) := by
  refine hStep.andThen (hStep.kind hSpot) fun kind => hStep.andThen ?_ fun found => ?_
  · rw [hSpot.currentInput_eq]
    split
    · exact hStep.pure _
    · exact hStep.variableCategory hSpot
    all_goals exact hStep.fail hSpot _
  · split
    · exact hStep.pure _
    · exact hStep.typeMismatch hSpot expected found

theorem socket {expected : Category}
    {read readOther : Spot → BlockKind → Category → Reading (Option α)}
    (hRead : ∀ inner innerOther kind found, inner.Match R innerOther →
      T _ (read inner kind found) (readOther innerOther kind found)) :
    T _ (first.socket spot input expected read)
      (second.socket other input expected readOther) := by
  have hInput := hStep.input? input hSpot.node
  unfold Reader.socket
  generalize first.view.input? spot.node input = child?,
    second.view.input? other.node input = childOther? at hInput
  cases hInput with
  | none => exact hStep.fail hSpot _
  | some hChild =>
    have hInner : Spot.Match R ⟨_, spot.within input⟩ ⟨_, other.within input⟩ :=
      ⟨hChild, hSpot.within input⟩
    exact hStep.andThen (hStep.checkValue hInner expected) fun checked =>
      hRead _ _ checked.1 checked.2 hInner

end

variable {kind : BlockKind} {found : Category}

include hStep

/-! ## Values -/

theorem playerAt (hSpot : spot.Match R other) :
    T _ (first.playerAt spot kind found) (second.playerAt other kind found) := by
  unfold Reader.playerAt
  split
  · exact hStep.pure _
  · exact hStep.mapSome (hStep.reference hSpot _ _)
  · exact hStep.typeMismatch hSpot _ _

theorem player (hSpot : spot.Match R other) :
    T _ (first.player spot input) (second.player other input) :=
  hStep.socket hSpot fun _ _ _ _ => hStep.playerAt

theorem playerCollectionAt (hSpot : spot.Match R other) :
    T _ (first.playerCollectionAt spot kind found)
      (second.playerCollectionAt other kind found) := by
  unfold Reader.playerCollectionAt
  split
  · exact hStep.mapSome (hStep.playerAt hSpot)
  · split
    · exact hStep.pure _
    · exact hStep.mapSome (hStep.reference hSpot _ _)
    · exact hStep.typeMismatch hSpot _ _

theorem playerCollection (hSpot : spot.Match R other) :
    T _ (first.playerCollection spot input) (second.playerCollection other input) :=
  hStep.socket hSpot fun _ _ _ _ => hStep.playerCollectionAt

theorem zoneAt (hSpot : spot.Match R other) :
    T _ (first.zoneAt spot kind found) (second.zoneAt other kind found) := by
  unfold Reader.zoneAt
  split
  · exact hStep.and (hStep.and (hStep.parts _) (hStep.requiredField hSpot _)) (hStep.player hSpot)
  · exact hStep.mapSome (hStep.reference hSpot _ _)
  · exact hStep.typeMismatch hSpot _ _

theorem zone (hSpot : spot.Match R other) :
    T _ (first.zone spot input) (second.zone other input) :=
  hStep.socket hSpot fun _ _ _ _ => hStep.zoneAt

theorem zoneCollectionAt (hSpot : spot.Match R other) :
    T _ (first.zoneCollectionAt spot kind found) (second.zoneCollectionAt other kind found) := by
  unfold Reader.zoneCollectionAt
  split
  · exact hStep.mapSome (hStep.zoneAt hSpot)
  · split
    · exact hStep.mapSome (hStep.requiredField hSpot _)
    · exact hStep.mapSome (hStep.reference hSpot _ _)
    · exact hStep.typeMismatch hSpot _ _

theorem zoneCollection (hSpot : spot.Match R other) :
    T _ (first.zoneCollection spot input) (second.zoneCollection other input) :=
  hStep.socket hSpot fun _ _ _ _ => hStep.zoneCollectionAt

theorem cardAt (hSpot : spot.Match R other) :
    T _ (first.cardAt spot kind found) (second.cardAt other kind found) := by
  unfold Reader.cardAt
  split
  · exact hStep.mapSome (hStep.reference hSpot _ _)
  · exact hStep.typeMismatch hSpot _ _

theorem card (hSpot : spot.Match R other) :
    T _ (first.card spot input) (second.card other input) :=
  hStep.socket hSpot fun _ _ _ _ => hStep.cardAt

theorem rankAt (hSpot : spot.Match R other) :
    T _ (first.rankAt spot kind found) (second.rankAt other kind found) := by
  unfold Reader.rankAt
  split
  · exact hStep.mapSome (hStep.parsedField hSpot _ _)
  · exact hStep.mapSome (hStep.card hSpot)
  · exact hStep.typeMismatch hSpot _ _

theorem rank (hSpot : spot.Match R other) :
    T _ (first.rank spot input) (second.rank other input) :=
  hStep.socket hSpot fun _ _ _ _ => hStep.rankAt

theorem suitAt (hSpot : spot.Match R other) :
    T _ (first.suitAt spot kind found) (second.suitAt other kind found) := by
  unfold Reader.suitAt
  split
  · exact hStep.mapSome (hStep.parsedField hSpot _ _)
  · exact hStep.mapSome (hStep.card hSpot)
  · exact hStep.typeMismatch hSpot _ _

theorem suit (hSpot : spot.Match R other) :
    T _ (first.suit spot input) (second.suit other input) :=
  hStep.socket hSpot fun _ _ _ _ => hStep.suitAt

theorem cardCollectionAt (hSpot : spot.Match R other) :
    T _ (first.cardCollectionAt spot kind found) (second.cardCollectionAt other kind found) := by
  unfold Reader.cardCollectionAt
  split
  · exact hStep.mapSome (hStep.cardAt hSpot)
  · split
    · exact hStep.mapSome (hStep.reference hSpot _ _)
    · exact hStep.and (hStep.parsedField hSpot _ _) (hStep.zone hSpot)
    · exact hStep.and (hStep.and (hStep.parts _) (hStep.zone hSpot)) (hStep.suit hSpot)
    · exact hStep.and (hStep.and (hStep.parts _) (hStep.zone hSpot)) (hStep.rank hSpot)
    · exact hStep.typeMismatch hSpot _ _

theorem cardCollection (hSpot : spot.Match R other) :
    T _ (first.cardCollection spot input) (second.cardCollection other input) :=
  hStep.socket hSpot fun _ _ _ _ => hStep.cardCollectionAt

theorem numberAt (hSpot : spot.Match R other) :
    T _ (first.numberAt spot kind found) (second.numberAt other kind found) := by
  unfold Reader.numberAt
  split
  · exact hStep.mapSome (hStep.parsedField hSpot _ _)
  · exact hStep.mapSome (hStep.reference hSpot _ _)
  · exact hStep.mapSome (hStep.reference hSpot _ _)
  · exact hStep.mapSome (hStep.cardCollection hSpot)
  · exact hStep.typeMismatch hSpot _ _

theorem number (hSpot : spot.Match R other) :
    T _ (first.number spot input) (second.number other input) :=
  hStep.socket hSpot fun _ _ _ _ => hStep.numberAt

theorem booleanAt (hSpot : spot.Match R other) :
    T _ (first.booleanAt spot kind found) (second.booleanAt other kind found) := by
  unfold Reader.booleanAt
  split
  · exact hStep.mapSome (hStep.parsedField hSpot _ _)
  · exact hStep.and (hStep.and (hStep.and (hStep.parts _) (hStep.parsedField hSpot _ _))
      (hStep.number hSpot)) (hStep.number hSpot)
  · exact hStep.and (hStep.and (hStep.parts _) (hStep.requiredField hSpot _)) (hStep.player hSpot)
  · exact hStep.typeMismatch hSpot _ _

theorem boolean (hSpot : spot.Match R other) :
    T _ (first.boolean spot input) (second.boolean other input) :=
  hStep.socket hSpot fun _ _ _ _ => hStep.booleanAt

theorem expression (hSpot : spot.Match R other) (category : Category) :
    T _ (first.expression spot category) (second.expression other category) := by
  refine hStep.andThen (hStep.checkValue hSpot category) fun checked => ?_
  cases category
  case number => exact hStep.mapSome (hStep.numberAt hSpot)
  case boolean => exact hStep.mapSome (hStep.booleanAt hSpot)
  case player => exact hStep.mapSome (hStep.playerAt hSpot)
  case playerCollection => exact hStep.mapSome (hStep.playerCollectionAt hSpot)
  case zone => exact hStep.mapSome (hStep.zoneAt hSpot)
  case zoneCollection => exact hStep.mapSome (hStep.zoneCollectionAt hSpot)
  case card => exact hStep.mapSome (hStep.cardAt hSpot)
  case cardCollection => exact hStep.mapSome (hStep.cardCollectionAt hSpot)
  case rank => exact hStep.mapSome (hStep.rankAt hSpot)
  case suit => exact hStep.mapSome (hStep.suitAt hSpot)

/-! ## Statements -/

theorem cardSet (hSpot : spot.Match R other) :
    T _ (first.cardSet spot) (second.cardSet other) := by
  unfold Reader.cardSet View.filledField?
  rw [hStep.field? Field.cards hSpot.node]
  split
  · exact hStep.pure _
  · split
    · exact hStep.pure _
    · exact hStep.fail hSpot _

theorem choiceType (hSpot : spot.Match R other) (bound : Category) :
    T _ (first.choiceType spot bound) (second.choiceType other bound) := by
  unfold Reader.choiceType
  split
  · exact hStep.mapSome (hStep.playerCollection hSpot)
  · exact hStep.mapSome (hStep.playerCollection hSpot)
  · exact hStep.mapSome (hStep.cardCollection hSpot)
  · exact hStep.mapSome (hStep.cardCollection hSpot)

theorem offerChoice (hSpot : spot.Match R other) :
    T _ (first.offerChoice spot kind) (second.offerChoice other kind) := by
  unfold Reader.offerChoice
  split
  · exact hStep.and (hStep.and (hStep.parts _) (hStep.zone hSpot)) (hStep.zone hSpot)
  · exact hStep.and (hStep.and (hStep.parts _) (hStep.requiredField hSpot _))
      (hStep.andThen (hStep.parsedField hSpot _ _) fun _ => hStep.choiceType hSpot _)

theorem members {path pathOther : List PathSegment} {start startOther : Option NodeId}
    {role : BlockRole} {read readOther : Spot → BlockKind → Reading (Option α)}
    (hPath : PathsMatch R path pathOther)
    (hMembers : List.Forall₂ R (first.chain start) (second.chain startOther))
    (hRead : ∀ inner innerOther kind, inner.Match R innerOther →
      T _ (read inner kind) (readOther innerOther kind)) :
    T _ (first.members path start role read) (second.members pathOther startOther role
      readOther) := by
  refine hStep.collect hMembers fun node otherNode hNode => ?_
  have hSpot : Spot.Match R ⟨node, path⟩ ⟨otherNode, pathOther⟩ := ⟨hNode, hPath⟩
  refine hStep.andThen (hStep.kind hSpot) fun kind => ?_
  split
  · exact hRead _ _ kind hSpot
  · exact hStep.fail hSpot _

theorem caseCondition (hSpot : spot.Match R other) :
    T _ (first.caseCondition spot kind) (second.caseCondition other kind) := by
  have hFilter : (first.view.input? spot.node Input.filter).isSome =
      (second.view.input? other.node Input.filter).isSome := by
    have hInput := hStep.input? Input.filter hSpot.node
    generalize first.view.input? spot.node Input.filter = child?,
      second.view.input? other.node Input.filter = childOther? at hInput
    cases hInput <;> rfl
  unfold Reader.caseCondition
  rw [hFilter]
  split
  · exact hStep.mapSome (hStep.boolean hSpot)
  · exact hStep.pure _

theorem offerPlayer (hSpot : spot.Match R other) :
    T _ (first.offerPlayer spot kind) (second.offerPlayer other kind) := by
  unfold Reader.offerPlayer
  split
  · exact hStep.mapSome (hStep.requiredField hSpot _)
  · exact hStep.pure _

section

variable {read readOther : Spot → Reading (Option Statement)}
variable (hRead : ∀ inner innerOther, inner.Match R innerOther →
  T _ (read inner) (readOther innerOther))

include hRead

theorem chainStatement {path pathOther : List PathSegment} {start startOther : Option NodeId}
    (hPath : PathsMatch R path pathOther)
    (hMembers : List.Forall₂ R (first.chain start) (second.chain startOther)) :
    T _ (first.chainStatement read path start)
      (second.chainStatement readOther pathOther startOther) :=
  hStep.map _ (hStep.collect hMembers fun _ _ hNode => hRead _ _ ⟨hNode, hPath⟩)

theorem body (hSpot : spot.Match R other) :
    T _ (first.body read spot input) (second.body readOther other input) :=
  hStep.chainStatement hRead (hSpot.within input) (hStep.held input hSpot.node)

theorem offerCase (hSpot : spot.Match R other) :
    T _ (first.offerCase read spot kind) (second.offerCase readOther other kind) := by
  unfold Reader.offerCase
  rw [hStep.field? Field.prompt hSpot.node]
  have hChoices : T _
      (first.members (spot.within Input.offers) (first.view.input? spot.node Input.offers)
        .offerChoice first.offerChoice)
      (second.members (other.within Input.offers) (second.view.input? other.node Input.offers)
        .offerChoice second.offerChoice) :=
    hStep.members (hSpot.within _) (hStep.held _ hSpot.node) fun _ _ _ => hStep.offerChoice
  exact hStep.and (hStep.and (hStep.and (hStep.parts _) (hStep.caseCondition hSpot))
    (hStep.always hChoices)) (hStep.always (hStep.body hRead hSpot))

theorem offer (hSpot : spot.Match R other) :
    T _ (first.offer read spot kind) (second.offer readOther other kind) := by
  have hCases : T _
      (first.members (spot.within Input.cases) (first.view.input? spot.node Input.cases)
        .offerCase (first.offerCase read))
      (second.members (other.within Input.cases) (second.view.input? other.node Input.cases)
        .offerCase (second.offerCase readOther)) :=
    hStep.members (hSpot.within _) (hStep.held _ hSpot.node) fun _ _ _ => hStep.offerCase hRead
  exact hStep.and (hStep.and (hStep.and (hStep.parts _) (hStep.offerPlayer hSpot))
    (hStep.playerCollection hSpot)) (hStep.always hCases)

theorem statementOf (hSpot : spot.Match R other) :
    T _ (first.statementOf read spot kind) (second.statementOf readOther other kind) := by
  unfold Reader.statementOf
  cases kind
  case enterPhase => exact hStep.mapSome (hStep.requiredField hSpot _)
  case setNumber =>
    exact hStep.and (hStep.and (hStep.parts _) (hStep.requiredField hSpot _)) (hStep.number hSpot)
  case ifElse =>
    exact hStep.and (hStep.and (hStep.and (hStep.parts _) (hStep.boolean hSpot))
      (hStep.always (hStep.body hRead hSpot))) (hStep.always (hStep.body hRead hSpot))
  case repeatWhile =>
    exact hStep.and (hStep.and (hStep.parts _) (hStep.boolean hSpot))
      (hStep.always (hStep.body hRead hSpot))
  case shuffle => exact hStep.mapSome (hStep.zoneCollection hSpot)
  case generateCards =>
    exact hStep.and (hStep.and (hStep.parts _) (hStep.cardSet hSpot)) (hStep.zone hSpot)
  case dealCards =>
    exact hStep.and (hStep.and (hStep.and (hStep.parts _) (hStep.number hSpot)) (hStep.zone hSpot))
      (hStep.zoneCollection hSpot)
  case moveCards =>
    exact hStep.and (hStep.and (hStep.parts _) (hStep.cardCollection hSpot)) (hStep.zone hSpot)
  case declareWinner => exact hStep.mapSome (hStep.playerCollection hSpot)
  case advancePlayer => exact hStep.mapSome (hStep.number hSpot)
  case offer | unnamedOffer => exact hStep.offer hRead hSpot
  all_goals exact hStep.fail hSpot _

end

/-- **Readers that go in step read like statements down to every depth.** -/
theorem statement (depth : Nat) (spot other : Spot) (hSpot : spot.Match R other) :
    T _ (first.statement depth spot) (second.statement depth other) := by
  induction depth generalizing spot other with
  | zero => exact hStep.endless none
  | succ depth ih => exact hStep.andThen (hStep.kind hSpot) fun _ => hStep.statementOf ih hSpot

/-- They do so down to different depths as well, where nothing is said of readings without end. -/
theorem statement_depths
    (hFirst : ∀ reading, T (Option Statement) (.endless none) reading)
    (hSecond : ∀ reading, T (Option Statement) reading (.endless none)) (depth more : Nat)
    (spot other : Spot) (hSpot : spot.Match R other) :
    T _ (first.statement depth spot) (second.statement more other) := by
  induction depth generalizing spot other more with
  | zero => exact hFirst _
  | succ depth ih =>
    cases more with
    | zero => exact hSecond _
    | succ more =>
      exact hStep.andThen (hStep.kind hSpot) fun _ => hStep.statementOf (ih more) hSpot

/-! ## What can be read -/

section

variable {node otherNode : NodeId} (hNode : R node otherNode)

include hNode

theorem readExpression (category : Category) :
    T _ (first.readExpression node category) (second.readExpression otherNode category) :=
  hStep.expression (.start hNode) category

/-- The expression of a category, with the type of such expressions. -/
theorem readTyped (category : Category) (pick : Expression → Option α) :
    T _ ((·.bind pick) <$> first.readExpression node category)
      ((·.bind pick) <$> second.readExpression otherNode category) :=
  hStep.map (fun expression? => expression?.bind pick) (hStep.readExpression hNode category)

end

/-- In graphs of one size statements are followed down to the same depth. -/
theorem statement_depthLimit (hSize : first.view.size = second.view.size) (spot other : Spot)
    (hSpot : spot.Match R other) :
    T _ (first.statement first.depthLimit spot) (second.statement second.depthLimit other) := by
  have hDepth : first.depthLimit = second.depthLimit := congrArg (· + 1) hSize
  rw [hDepth]
  exact hStep.statement _ spot other hSpot

end InStepInside

namespace InStep

variable {first second : Reader} {R : NodeId → NodeId → Prop}
variable {T : (α : Type) → Reading α → Reading α → Prop} (hStep : first.InStep second R T)
variable (hStatement : ∀ spot other : Spot, spot.Match R other →
  T _ (first.statement first.depthLimit spot) (second.statement second.depthLimit other))

include hStep hStatement

/-! ## Chains that begin at blocks that correspond -/

theorem readChain {start other : Option NodeId} (hStart : Option.Rel R start other) :
    T _ (first.readChain start) (second.readChain other) :=
  hStep.chainStatement hStatement List.Forall₂.nil (hStep.chain hStart)

theorem phase {hat other : NodeId} (hHat : R hat other)
    (hNext : Option.Rel R (first.view.next? hat) (second.view.next? other)) :
    T _ (first.phase hat) (second.phase other) :=
  hStep.bind (hStep.requiredField (.start hHat) Field.phase) fun _ =>
    hStep.map _ (hStep.readChain hStatement hNext)

theorem addPhases (known : Phases) {hats others : List NodeId}
    (hHats : List.Forall₂ (fun hat other => R hat other ∧
      Option.Rel R (first.view.next? hat) (second.view.next? other)) hats others) :
    T _ (first.addPhases known hats) (second.addPhases known others) := by
  induction hHats generalizing known with
  | nil => exact hStep.pure known
  | cons hHat _ ih =>
    refine hStep.bind (hStep.phase hStatement hHat.1 hHat.2) fun phase => ?_
    obtain ⟨name?, evaluate⟩ := phase
    cases name? with
    | none => exact ih known
    | some name =>
      dsimp only
      split
      · exact hStep.bind (hStep.error _ (.start hHat.1)) fun _ => ih known
      · exact ih _

end InStep

/-! ## Two readers of one graph -/

/-- Whatever two readers read of one graph is related: chains, single blocks, expressions of every
category, and phases. -/
structure ReadAlike (first second : Reader) (T : (α : Type) → Reading α → Reading α → Prop) :
    Prop where
  chain (start : Option NodeId) : T _ (first.readChain start) (second.readChain start)
  statement (node : NodeId) : T _ (first.readStatement node) (second.readStatement node)
  expression (node : NodeId) (category : Category) :
    T _ (first.readExpression node category) (second.readExpression node category)
  number (node : NodeId) : T _ (first.readNumber node) (second.readNumber node)
  boolean (node : NodeId) : T _ (first.readBoolean node) (second.readBoolean node)
  player (node : NodeId) : T _ (first.readPlayer node) (second.readPlayer node)
  playerCollection (node : NodeId) :
    T _ (first.readPlayerCollection node) (second.readPlayerCollection node)
  zone (node : NodeId) : T _ (first.readZone node) (second.readZone node)
  zoneCollection (node : NodeId) :
    T _ (first.readZoneCollection node) (second.readZoneCollection node)
  card (node : NodeId) : T _ (first.readCard node) (second.readCard node)
  cardCollection (node : NodeId) :
    T _ (first.readCardCollection node) (second.readCardCollection node)
  rank (node : NodeId) : T _ (first.readRank node) (second.readRank node)
  suit (node : NodeId) : T _ (first.readSuit node) (second.readSuit node)
  phases : T _ first.readPhases second.readPhases

section

variable {view : View} {vocabulary : Vocabulary} {scope? other? : Option Scope}
variable {D : List Diagnostic → List Diagnostic → Prop}

/-- Readers that check references in different ways go through the same blocks, and report the same
errors. -/
theorem inStep_of_scopes (hD : Additive D)
    (hError : ∀ diagnostic : Diagnostic, diagnostic.isError = true → D [diagnostic] [diagnostic])
    (hChecked : ∀ spot category name,
      D (checkReference ⟨view, vocabulary, scope?⟩ spot category name).diagnostics
        (checkReference ⟨view, vocabulary, other?⟩ spot category name).diagnostics) :
    InStep ⟨view, vocabulary, scope?⟩ ⟨view, vocabulary, other?⟩ (· = ·) (Alike D) where
  toCongruence := hD.congruence
  kind? hNode := by rw [hNode]
  field? field hNode := by rw [hNode]
  input? input hNode := by
    rw [hNode]
    exact rel_eq_iff.mpr rfl
  chain hStart := by
    rw [rel_eq_iff.mp hStart]
    exact List.forall₂_refl _
  error error hSpot := by
    rw [hSpot.eq]
    exact ⟨rfl, rfl, hError _ rfl⟩
  unknown hNode _ := by rw [hNode]
  checked category name hSpot := by
    rw [hSpot.eq]
    refine ⟨rfl, ?_, hChecked _ category name⟩
    rw [finished_checkReference, finished_checkReference]

/-- Such readers read alike whatever can be read. -/
theorem readAlike_of_inStep {T : (α : Type) → Reading α → Reading α → Prop}
    (hStep : InStep ⟨view, vocabulary, scope?⟩ ⟨view, vocabulary, other?⟩ (· = ·) T) :
    ReadAlike ⟨view, vocabulary, scope?⟩ ⟨view, vocabulary, other?⟩ T := by
  have hStatement := hStep.statement_depthLimit rfl
  have hTyped {α : Type} (node : NodeId) (category : Category) (pick : Expression → Option α) :=
    hStep.readTyped (rfl : node = node) category pick
  have hHats : List.Forall₂ (fun hat other => hat = other ∧
      Option.Rel (· = ·) (view.next? hat) (view.next? other))
      (view.nodes.filter (isTopHat ⟨view, vocabulary, scope?⟩))
      (view.nodes.filter (isTopHat ⟨view, vocabulary, other?⟩)) :=
    List.forall₂_same.mpr fun hat _ => ⟨rfl, rel_eq_iff.mpr rfl⟩
  exact {
    chain := fun start => hStep.readChain hStatement (rel_eq_iff.mpr rfl)
    statement := fun node => hStatement _ _ (.start rfl)
    expression := fun node category => hStep.readExpression rfl category
    number := fun node => hTyped node _ _
    boolean := fun node => hTyped node _ _
    player := fun node => hTyped node _ _
    playerCollection := fun node => hTyped node _ _
    zone := fun node => hTyped node _ _
    zoneCollection := fun node => hTyped node _ _
    card := fun node => hTyped node _ _
    cardCollection := fun node => hTyped node _ _
    rank := fun node => hTyped node _ _
    suit := fun node => hTyped node _ _
    phases := hStep.addPhases hStatement _ hHats }

end

end Reader

end RuleBlocks
