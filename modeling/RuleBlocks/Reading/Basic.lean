import RuleBlocks.Reading.Diagnostic
import RuleBlocks.Text.Blank

/-!
# Reading blocks

A reading is what was read together with the diagnostics that were reported on the way, in their
order. It also says whether it came to an end: reading goes from statements to the statements in
their inputs, and in the graph of a host that may lead round in a circle.

A reader goes through a graph. It stands at a spot: a block and the inputs on the way to it. What it
cannot read it reports, and that part of the program is left out.
-/

namespace RuleBlocks

/-- What was read, what was reported, and whether the reading came to an end. -/
structure Reading (α : Type) where
  value : α
  diagnostics : List Diagnostic
  finished : Bool

namespace Reading

variable {α β : Type}

instance : Monad Reading where
  pure value := ⟨value, [], true⟩
  bind first next :=
    let second := next first.value
    ⟨second.value, first.diagnostics ++ second.diagnostics, first.finished && second.finished⟩

/-- A reading that goes on for ever. -/
def endless (value : α) : Reading α := ⟨value, [], false⟩

def isClean (reading : Reading α) : Bool := reading.diagnostics.isEmpty

def errors (reading : Reading α) : List Diagnostic := reading.diagnostics.filter Diagnostic.isError

def warnings (reading : Reading α) : List Diagnostic :=
  reading.diagnostics.filter fun diagnostic => !diagnostic.isError

def hasErrors (reading : Reading α) : Bool := reading.diagnostics.any Diagnostic.isError

/-! ## Parts that may be left out -/

/-- Go on with a part unless it was left out. -/
def andThen (reading : Reading (Option α)) (next : α → Reading (Option β)) :
    Reading (Option β) := do
  match ← reading with
  | some value => next value
  | none => pure none

/-- Apply a function to a part unless it was left out. -/
def mapSome (f : α → β) (reading : Reading (Option α)) : Reading (Option β) := do
  return (← reading).map f

/-- A part that is never left out. -/
def always (reading : Reading α) : Reading (Option α) := do
  return some (← reading)

/-- Start putting parts together. -/
def parts (f : α) : Reading (Option α) := pure (some f)

/-- Read one more part. It is read even if an earlier one was left out; the whole is left out if one
of its parts is. -/
def and (f : Reading (Option (α → β))) (reading : Reading (Option α)) : Reading (Option β) := do
  let f? ← f
  let value? ← reading
  return f?.bind fun f => value?.map f

/-- Read what stands at each of several blocks, without what was left out. -/
def collect (read : NodeId → Reading (Option α)) : List NodeId → Reading (List α)
  | [] => pure []
  | node :: nodes => do
    let value? ← read node
    let values ← collect read nodes
    return value?.toList ++ values

end Reading

/-- A block, and the inputs on the way to it from where the reading began, the outermost first. -/
structure Spot where
  node : NodeId
  path : List PathSegment
deriving DecidableEq, Repr, Inhabited

namespace Spot

/-- The way to what stands in an input of the block. -/
def within (spot : Spot) (input : String) : List PathSegment := spot.path ++ [⟨spot.node, input⟩]

/-- The input in which the block stands, as messages name it. -/
def currentInput (spot : Spot) : String :=
  match spot.path.getLast? with
  | some step => step.input
  | none => "value"

end Spot

/-- A graph that is read, with the vocabulary of its tags and the scope against which references are
checked, if they are. -/
structure Reader where
  view : View
  vocabulary : Vocabulary
  scope? : Option Scope

/-- Whether references are checked, and which globals are registered for it. -/
structure ReadOptions where
  checkScopes : Bool
  globals : List (Category × String)
deriving DecidableEq, Repr, Inhabited

def ReadOptions.unchecked : ReadOptions := ⟨false, []⟩

namespace Reader

variable {α : Type}

def ofView (view : View) (vocabulary : Vocabulary) (options : ReadOptions) : Reader where
  view := view
  vocabulary := vocabulary
  scope? := if options.checkScopes then some (.ofView view vocabulary options.globals) else none

/-- Report a fault at a spot. -/
def report (reader : Reader) (spot : Spot) (severity : Severity) (error : ReadError) :
    Reading Unit :=
  ⟨(), [⟨spot.node, reader.view.shownTag spot.node, spot.path, severity, error⟩], true⟩

/-- Report an error at a spot and leave out what should be read there. -/
def fail (reader : Reader) (spot : Spot) (error : ReadError) : Reading (Option α) := do
  reader.report spot .error error
  return none

def kind (reader : Reader) (spot : Spot) : Reading (Option BlockKind) :=
  match reader.view.kind? reader.vocabulary spot.node with
  | some kind => pure (some kind)
  | none => reader.fail spot (.unknownBlockType (reader.view.shownTag spot.node))

/-- The text of a field that must not be empty. -/
def requiredField (reader : Reader) (spot : Spot) (field : String) : Reading (Option String) :=
  match reader.view.filledField? spot.node field with
  | some text => pure (some text)
  | none => reader.fail spot (.missingField field)

/-- What the text of a field stands for, where blanks around the text do not matter. -/
def parsedField (reader : Reader) (spot : Spot) (field : String) (parse : String → Option α) :
    Reading (Option α) :=
  (reader.requiredField spot field).andThen fun text =>
    match parse (Text.trim text) with
    | some value => pure (some value)
    | none => reader.fail spot (.invalidField field text)

/-- Warn about a name that refers to nothing, if references are checked. -/
def checkReference (reader : Reader) (spot : Spot) (category : Category) (name : String) :
    Reading Unit :=
  match reader.scope? with
  | none => pure ()
  | some scope =>
    match scope.resolve spot.node category name with
    | .ok (some _) => pure ()
    | .ok none => reader.report spot .warning (.unresolvedVariable name category)
    | .error error => reader.report spot .warning (.scope error)

/-- The name in a field that refers to a variable. -/
def reference (reader : Reader) (spot : Spot) (field : String) (category : Category) :
    Reading (Option String) :=
  (reader.requiredField spot field).andThen fun name => do
    reader.checkReference spot category name
    return some name

/-- Report that a value of another category stands at a spot. -/
def typeMismatch (reader : Reader) (spot : Spot) (expected found : Category) :
    Reading (Option α) :=
  reader.fail spot (.typeMismatch spot.currentInput expected found)

/-- The category that a typed value names in its field. -/
def variableCategory (reader : Reader) (spot : Spot) : Reading (Option Category) :=
  (reader.requiredField spot Field.category).andThen fun tag =>
    match (Category.ofTag? tag).filter Category.hasVariables with
    | some category => pure (some category)
    | none => reader.fail spot (.invalidField Field.category tag)

/-- The kind of the block and the category of its value, if a place for the expected category takes
it. -/
def checkValue (reader : Reader) (spot : Spot) (expected : Category) :
    Reading (Option (BlockKind × Category)) :=
  (reader.kind spot).andThen fun kind =>
    let found : Reading (Option Category) :=
      match kind.role with
      | .value category => pure (some category)
      | .typedValue => reader.variableCategory spot
      | .hat | .statement | .offerCase | .offerChoice =>
        reader.fail spot (.notAValue spot.currentInput kind)
    found.andThen fun found =>
      if expected.accepts found then pure (some (kind, found))
      else reader.typeMismatch spot expected found

def socket (reader : Reader) (spot : Spot) (input : String) (expected : Category)
    (read : Spot → BlockKind → Category → Reading (Option α)) : Reading (Option α) :=
  match reader.view.input? spot.node input with
  | none => reader.fail spot (.missingInput input)
  | some child =>
    let inner : Spot := ⟨child, spot.within input⟩
    (reader.checkValue inner expected).andThen fun (kind, found) => read inner kind found

end Reader

end RuleBlocks
