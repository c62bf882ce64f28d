import RuleBlocks.Program.Phases
import RuleBlocks.Reading.Expression

/-!
# Reading statements

A chain of blocks is read as the statements that its members stand for. A member with a fault of its
own is left out; a fault in a chain inside it costs only the member of that inner chain. No chain is
followed for more members than the graph has blocks.

Statements stand inside one another, and a reader follows them down to a depth. A graph whose chains
do not lead back to the blocks that hold them is never deeper than it has blocks, so a depth of one
more is enough; where it is not, the reading would never end.
-/

namespace RuleBlocks.Reader

open Reading (parts)

variable {α : Type}

def chain (reader : Reader) (first : Option NodeId) : List NodeId :=
  reader.view.chain reader.view.size first

/-- The members of a chain that have a role, each read in its own way. -/
def members (reader : Reader) (path : List PathSegment) (first : Option NodeId) (role : BlockRole)
    (read : Spot → BlockKind → Reading (Option α)) : Reading (List α) :=
  Reading.collect
    (fun node =>
      let spot : Spot := ⟨node, path⟩
      (reader.kind spot).andThen fun kind =>
        if kind.role = role then read spot kind
        else reader.fail spot (.misplacedBlock kind role))
    (reader.chain first)

/-! ## Choices and cards -/

/-- The set of cards of a block that generates cards. -/
def cardSet (reader : Reader) (spot : Spot) : Reading (Option CardSet) :=
  match reader.view.filledField? spot.node Field.cards with
  | none => pure (some .allAllowed)
  | some text =>
    if text = Setting.allAllowed then pure (some .allAllowed)
    else reader.fail spot (.invalidField Field.cards text)

/-- What is selected, for a selection that binds a category. -/
def choiceType (reader : Reader) (spot : Spot) (bound : Category) :
    Reading (Option ChoiceType) :=
  match bound with
  | .player => (reader.playerCollection spot Input.source).mapSome .player
  | .playerCollection => (reader.playerCollection spot Input.source).mapSome .playerSelection
  | .card => (reader.cardCollection spot Input.source).mapSome .card
  | _ => (reader.cardCollection spot Input.source).mapSome .cardSelection

def offerChoice (reader : Reader) (spot : Spot) (kind : BlockKind) :
    Reading (Option OfferChoice) :=
  match kind with
  | .choiceMove =>
    ((parts fun source dest => OfferChoice.action (.moveCards source dest)).and
      (reader.zone spot Input.source)).and
      (reader.zone spot Input.dest)
  | _ =>
    ((parts OfferChoice.selection).and (reader.requiredField spot Field.selectedAs)).and
      ((reader.parsedField spot Field.choiceType SelectionCategories.ofTag?).andThen
        fun categories => reader.choiceType spot categories.bound)

/-! ## Statements, given a reader of the statements inside them -/

def chainStatement (reader : Reader) (read : Spot → Reading (Option Statement))
    (path : List PathSegment) (first : Option NodeId) : Reading Statement := do
  return .ofChain (← Reading.collect (fun node => read ⟨node, path⟩) (reader.chain first))

/-- The statement that the chain in an input stands for. -/
def body (reader : Reader) (read : Spot → Reading (Option Statement)) (spot : Spot)
    (input : String) : Reading Statement :=
  reader.chainStatement read (spot.within input) (reader.view.input? spot.node input)

/-- The condition of a case. Only a case of the form with a condition has one, and there it may be
absent. -/
def caseCondition (reader : Reader) (spot : Spot) (kind : BlockKind) :
    Reading (Option (Option BooleanExpression)) :=
  if kind = .offerCase ∧ (reader.view.input? spot.node Input.filter).isSome then
    (reader.boolean spot Input.filter).mapSome some
  else pure (some none)

def offerCase (reader : Reader) (read : Spot → Reading (Option Statement)) (spot : Spot)
    (kind : BlockKind) : Reading (Option OfferCase) :=
  let message := (reader.view.field? spot.node Field.prompt).getD ""
  (((parts fun condition choices body => OfferCaseOf.mk condition message choices body).and
    (reader.caseCondition spot kind)).and
    (reader.members (spot.within Input.offers) (reader.view.input? spot.node Input.offers)
      .offerChoice reader.offerChoice).always).and
    (reader.body read spot Input.actions).always

/-- The name of the player of an offer, if the offer is of the form that has one. -/
def offerPlayer (reader : Reader) (spot : Spot) (kind : BlockKind) :
    Reading (Option (Option String)) :=
  match kind with
  | .offer => (reader.requiredField spot Field.playerName).mapSome some
  | _ => pure (some none)

def offer (reader : Reader) (read : Spot → Reading (Option Statement)) (spot : Spot)
    (kind : BlockKind) : Reading (Option Statement) :=
  (((parts fun playerName offerTo cases => Statement.offer offerTo playerName cases).and
    (reader.offerPlayer spot kind)).and
    (reader.playerCollection spot Input.offerTo)).and
    (reader.members (spot.within Input.cases) (reader.view.input? spot.node Input.cases)
      .offerCase (reader.offerCase read)).always

/-- The statement that a block of a kind stands for. -/
def statementOf (reader : Reader) (read : Spot → Reading (Option Statement)) (spot : Spot)
    (kind : BlockKind) : Reading (Option Statement) :=
  match kind with
  | .enterPhase => (reader.requiredField spot Field.phaseName).mapSome .enterPhase
  | .setNumber =>
    ((parts Statement.setNumber).and (reader.requiredField spot Field.name)).and
      (reader.number spot Input.value)
  | .ifElse =>
    (((parts Statement.conditional).and (reader.boolean spot Input.condition)).and
      (reader.body read spot Input.goTrue).always).and
      (reader.body read spot Input.goFalse).always
  | .repeatWhile =>
    ((parts Statement.repeatWhile).and (reader.boolean spot Input.condition)).and
      (reader.body read spot Input.body).always
  | .shuffle => (reader.zoneCollection spot Input.zones).mapSome .shuffle
  | .generateCards =>
    ((parts Statement.generateCards).and (reader.cardSet spot)).and
      (reader.zone spot Input.dest)
  | .dealCards =>
    (((parts Statement.deal).and (reader.number spot Input.count)).and
      (reader.zone spot Input.source)).and
      (reader.zoneCollection spot Input.dest)
  | .moveCards =>
    ((parts Statement.moveCards).and (reader.cardCollection spot Input.source)).and
      (reader.zone spot Input.dest)
  | .declareWinner => (reader.playerCollection spot Input.player).mapSome .declareWinner
  | .advancePlayer => (reader.number spot Input.advance).mapSome .advancePlayer
  | .offer | .unnamedOffer => reader.offer read spot kind
  | _ =>
    match kind.role with
    | .value _ | .typedValue => reader.fail spot (.notAStatement kind)
    | _ => reader.fail spot (.misplacedBlock kind .statement)

/-- The statement that a block stands for, with the statements inside it down to a depth. -/
def statement (reader : Reader) : (depth : Nat) → Spot → Reading (Option Statement)
  | 0, _ => .endless none
  | depth + 1, spot =>
    (reader.kind spot).andThen fun kind => reader.statementOf (reader.statement depth) spot kind

/-- The depth to which statements are followed. -/
def depthLimit (reader : Reader) : Nat := reader.view.size + 1

/-! ## Phases -/

/-- Whether a block is the hat of a phase that stands by itself. -/
def isTopHat (reader : Reader) (node : NodeId) : Bool :=
  reader.view.kind? reader.vocabulary node = some .phase &&
    (reader.view.previous? node).isNone && (reader.view.enclosing? node).isNone

def phase (reader : Reader) (hat : NodeId) : Reading (Option String × Statement) := do
  let name? ← reader.requiredField ⟨hat, []⟩ Field.phase
  let evaluate ←
    reader.chainStatement (reader.statement reader.depthLimit) [] (reader.view.next? hat)
  return (name?, evaluate)

/-- Add the phases of hats to those that are known. Of several phases with one name the first
counts. -/
def addPhases (reader : Reader) (known : Phases) : List NodeId → Reading Phases
  | [] => pure known
  | hat :: hats => do
    match ← reader.phase hat with
    | (none, _) => addPhases reader known hats
    | (some name, evaluate) =>
      if known.contains name then
        reader.report ⟨hat, []⟩ .error (.duplicatePhase name)
        addPhases reader known hats
      else addPhases reader (known.insert name evaluate) hats

/-! ## What can be read -/

/-- The statement that the chain from a block stands for. -/
def readChain (reader : Reader) (first : Option NodeId) : Reading Statement :=
  reader.chainStatement (reader.statement reader.depthLimit) [] first

/-- The statement that a single block stands for. -/
def readStatement (reader : Reader) (node : NodeId) : Reading (Option Statement) :=
  reader.statement reader.depthLimit ⟨node, []⟩

/-- The expression of a category that a block stands for. -/
def readExpression (reader : Reader) (node : NodeId) (category : Category) :
    Reading (Option Expression) :=
  reader.expression ⟨node, []⟩ category

/-- The phases of the hats that stand by themselves. -/
def readPhases (reader : Reader) : Reading Phases :=
  reader.addPhases NameMap.empty (reader.view.nodes.filter reader.isTopHat)

end RuleBlocks.Reader
