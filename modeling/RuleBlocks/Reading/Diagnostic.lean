import RuleBlocks.Scope

/-!
# Diagnostics

What is wrong with a graph that is read as a program. A diagnostic names a block, the inputs on the
way to it from where the reading began, and the fault. Errors cost a part of the program; warnings
do not.
-/

namespace RuleBlocks

/-- What a place for blocks of a role takes, in messages. -/
def BlockRole.description : BlockRole → String
  | hat => "a phase"
  | statement => "a statement"
  | offerCase => "an offer case"
  | offerChoice => "an offer choice"
  | value _ | typedValue => "a value"

/-- A fault of a graph that is read as a program. -/
inductive ReadError where
  | typeMismatch (input : String) (expected found : Category)
  | notAValue (input : String) (kind : BlockKind)
  | notAStatement (kind : BlockKind)
  | misplacedBlock (kind : BlockKind) (expected : BlockRole)
  | missingInput (input : String)
  | missingField (field : String)
  | invalidField (field text : String)
  | unknownBlockType (tag : String)
  | unresolvedVariable (name : String) (category : Category)
  | duplicatePhase (name : String)
  | scope (error : ScopeError)
deriving DecidableEq, Repr, Inhabited

/-- The classes of faults. -/
inductive FaultClass where
  | schemaMismatch
  | missingRequiredInput
  | unknownNodeType
  | unresolvedReference
deriving DecidableEq, Repr, Inhabited

namespace ReadError

def faultClass : ReadError → FaultClass
  | typeMismatch .. | notAValue .. | notAStatement _ | misplacedBlock .. => .schemaMismatch
  | missingInput _ | missingField _ | invalidField .. | duplicatePhase _ => .missingRequiredInput
  | unknownBlockType _ => .unknownNodeType
  | unresolvedVariable .. | scope _ => .unresolvedReference

def message : ReadError → String
  | typeMismatch input expected found =>
    "Input '" ++ input ++ "' expects a " ++ expected.description ++ " but holds a " ++
      found.description
  | notAValue input kind =>
    "Input '" ++ input ++ "' holds '" ++ kind.tag ++ "', which produces no value"
  | notAStatement kind =>
    "'" ++ kind.tag ++ "' produces a value and cannot be used as a statement"
  | misplacedBlock kind expected =>
    "'" ++ kind.tag ++ "' cannot appear here; expected " ++ expected.description
  | missingInput input => "Required input '" ++ input ++ "' is not connected"
  | missingField field => "Required field '" ++ field ++ "' is empty"
  | invalidField field text => "Field '" ++ field ++ "' holds invalid value '" ++ text ++ "'"
  | unknownBlockType tag => "Block type '" ++ tag ++ "' has no program mapping"
  | unresolvedVariable name category =>
    "No " ++ category.description ++ " named '" ++ name ++ "' is in scope here"
  | duplicatePhase name => "Phase '" ++ name ++ "' is defined more than once"
  | scope error => error.message

end ReadError

/-- How grave a diagnostic is. -/
inductive Severity where
  | error
  | warning
deriving DecidableEq, Repr, Inhabited

def Severity.description : Severity → String
  | error => "error"
  | warning => "warning"

/-- An input of a block on the way to another block. -/
structure PathSegment where
  node : NodeId
  input : String
deriving DecidableEq, Repr, Inhabited

/-- A fault that was found at a block, with the tag of the block and the way to it. -/
structure Diagnostic where
  node : NodeId
  tag : String
  path : List PathSegment
  severity : Severity
  error : ReadError
deriving DecidableEq, Repr, Inhabited

namespace Diagnostic

def isError (diagnostic : Diagnostic) : Bool := diagnostic.severity = .error

/-- The text of the way to a block, or nothing where the reading began with its chain. -/
def pathText : List PathSegment → String
  | [] => ""
  | path =>
    " (via " ++ " > ".intercalate (path.map fun step => step.node.text ++ "." ++ step.input) ++ ")"

def text (diagnostic : Diagnostic) : String :=
  diagnostic.severity.description ++ " at '" ++ diagnostic.tag ++ "' " ++ diagnostic.node.text ++
    pathText diagnostic.path ++ ": " ++ diagnostic.error.message

end Diagnostic

end RuleBlocks
