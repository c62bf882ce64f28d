import RuleBlocks.RoundTrip
import RuleBlocks.Wire.File
import RuleBlocks.Workspace.Outline

/-!
# The command line

The command line takes a program file through a round trip and reports on it. The report and the
exit code follow from the arguments and from the content of the file. How long the steps took is
not part of the report.

* `-p`, `--phases`: the file holds phases instead of a statement
* `-t`, `--tree`: print the outline of the workspace
* `-s`, `--check-scopes`: check references to names
* `-g`, `--global` with `CATEGORY:NAME`: register a global
* `-a`, `--alias` with `USER_TAG=CANONICAL_TAG`: give a tag a meaning
* `-j`, `--json`: print the program that came back

The exit code is 0 if the trip was lossless, 1 if it could not be made, and 2 otherwise.
-/

namespace RuleBlocks.CommandLine

/-! ## Arguments -/

/-- The switches of the command line. -/
inductive Switch where
  | phases
  | tree
  | checkScopes
  | json
deriving DecidableEq, Repr, Inhabited

/-- The options of the command line that take a value. -/
inductive Entry where
  | global
  | alias
deriving DecidableEq, Repr, Inhabited

/-- What the arguments ask for. -/
structure Arguments where
  path? : Option String
  switches : List Switch
  globals : List String
  aliases : List String
deriving DecidableEq, Repr, Inhabited

/-- What a letter after a dash stands for. -/
def ofLetter? (letter : Char) : Option (Switch ⊕ Entry) :=
  match letter with
  | 'p' => some (.inl .phases)
  | 't' => some (.inl .tree)
  | 's' => some (.inl .checkScopes)
  | 'j' => some (.inl .json)
  | 'g' => some (.inr .global)
  | 'a' => some (.inr .alias)
  | _ => none

/-- What a word after two dashes stands for. -/
def ofWord? (word : String) : Option (Switch ⊕ Entry) :=
  match word with
  | "phases" => some (.inl .phases)
  | "tree" => some (.inl .tree)
  | "check-scopes" => some (.inl .checkScopes)
  | "json" => some (.inl .json)
  | "global" => some (.inr .global)
  | "alias" => some (.inr .alias)
  | _ => none

namespace Arguments

/-- No argument at all. -/
def empty : Arguments := ⟨none, [], [], []⟩

/-- Set a switch, which may be set only once. -/
def set? (arguments : Arguments) (switch : Switch) : Option Arguments :=
  if switch ∈ arguments.switches then none
  else some { arguments with switches := arguments.switches ++ [switch] }

/-- Add the value of an option. -/
def add (arguments : Arguments) (entry : Entry) (value : String) : Arguments :=
  match entry with
  | .global => { arguments with globals := arguments.globals ++ [value] }
  | .alias => { arguments with aliases := arguments.aliases ++ [value] }

/-- Set the path, of which there is only one. -/
def setPath? (arguments : Arguments) (path : String) : Option Arguments :=
  match arguments.path? with
  | some _ => none
  | none => some { arguments with path? := some path }

end Arguments

/-- The two sides of the first place where a character stands. -/
def splitFirst? (separator : Char) : List Char → Option (List Char × List Char)
  | [] => none
  | char :: rest =>
    if char = separator then some ([], rest)
    else (splitFirst? separator rest).map fun (left, right) => (char :: left, right)

/-- A text without the sign of equality at its front, if there is one. -/
def dropEquals : List Char → List Char
  | '=' :: rest => rest
  | rest => rest

/-- Take in letters that stand together after a dash. An option takes the rest of them as its value,
and if there is no rest it waits for the next argument. -/
def takeLetters? (arguments : Arguments) : List Char → Option (Arguments × Option Entry)
  | [] => some (arguments, none)
  | letter :: rest =>
    match ofLetter? letter with
    | some (.inl switch) => (arguments.set? switch).bind fun arguments =>
        takeLetters? arguments rest
    | some (.inr entry) =>
      if rest = [] then some (arguments, some entry)
      else some (arguments.add entry (String.ofList (dropEquals rest)), none)
    | none => none

/-- Take in a word after two dashes, with its value if it has one. -/
def takeWord? (arguments : Arguments) (word : List Char) : Option (Arguments × Option Entry) :=
  match splitFirst? '=' word with
  | none =>
    match ofWord? (String.ofList word) with
    | some (.inl switch) => (arguments.set? switch).map (·, none)
    | some (.inr entry) => some (arguments, some entry)
    | none => none
  | some (name, value) =>
    match ofWord? (String.ofList name) with
    | some (.inr entry) => some (arguments.add entry (String.ofList value), none)
    | _ => none

/-- Take in one argument; what follows is the value of an option if one waits for it. -/
def takeArguments? (arguments : Arguments) (waiting : Option Entry) :
    List String → Option Arguments
  | [] => if waiting.isNone then some arguments else none
  | argument :: rest =>
    match argument.toList, waiting with
    | '-' :: _ :: _, some _ => none
    | _, some entry => takeArguments? (arguments.add entry argument) none rest
    | ['-', '-'], none =>
      rest.foldl (fun arguments? path => arguments?.bind (·.setPath? path)) (some arguments)
    | '-' :: '-' :: word, none =>
      (takeWord? arguments word).bind fun (arguments, waiting) =>
        takeArguments? arguments waiting rest
    | '-' :: letter :: letters, none =>
      (takeLetters? arguments (letter :: letters)).bind fun (arguments, waiting) =>
        takeArguments? arguments waiting rest
    | _, none => (arguments.setPath? argument).bind fun arguments =>
        takeArguments? arguments none rest

/-- What a command line asks for, and the path of the file, unless it is not well formed. -/
def parse? (arguments : List String) : Option (String × Arguments) := do
  let arguments ← takeArguments? .empty none arguments
  let path ← arguments.path?
  return (path, arguments)

/-- The vocabulary with the aliases that were asked for. -/
def vocabulary (aliases : List String) : Except String Vocabulary := do
  let pairs ← aliases.mapM fun text =>
    match splitFirst? '=' text.toList with
    | some (tag, canonicalTag) =>
      .ok (String.ofList tag, String.ofList canonicalTag)
    | none => .error ("Alias '" ++ text ++ "' must have the form USER_TAG=CANONICAL_TAG")
  return .ofAliases pairs

/-- The globals that were asked for. -/
def globals (globals : List String) : Except String (List (Category × String)) :=
  globals.mapM fun text =>
    match splitFirst? ':' text.toList with
    | none => .error ("Global '" ++ text ++ "' must have the form CATEGORY:NAME")
    | some (tag, name) =>
      match Category.ofTag? (String.ofList tag) with
      | some category => .ok (category, String.ofList name)
      | none =>
        .error ("Unknown category '" ++ String.ofList tag ++ "' in global '" ++ text ++ "'")

/-! ## The report -/

/-- What a run of the command line leaves behind. -/
structure Outcome where
  code : Nat
  output : String
  errors : String
deriving DecidableEq, Repr, Inhabited

/-- The outcome of a run that could not be made. -/
def Outcome.failure (message : String) : Outcome := ⟨1, "", "\nError: " ++ message ++ "\n"⟩

/-- The part of the report that lists diagnostics. -/
def diagnosticsText (diagnostics : List Diagnostic) : String :=
  match diagnostics with
  | [] => "Extraction produced no diagnostics.\n"
  | diagnostics =>
    "\nExtraction produced " ++ diagnostics.length.repr ++ " diagnostic(s):\n" ++
      String.join (diagnostics.map fun diagnostic => "  - " ++ diagnostic.text ++ "\n")

/-- The outcome of a run that made a round trip. -/
def Outcome.ofRoundTrip {Program : Type} (path : String) (switches : List Switch)
    (toJson : Program → Json) (trip : RoundTrip Program) : Outcome :=
  let made := "Materialized " ++ trip.workspace.size.repr ++ " blocks from '" ++ path ++ "'\n"
  let tree := if .tree ∈ switches then "\n" ++ trip.workspace.outline ++ "\n" else ""
  let verdict :=
    "Round trip: " ++ (if trip.isLossless then "lossless" else "CHANGED") ++ "\n"
  let json :=
    if .json ∈ switches then "\n" ++ (toJson trip.reading.value).pretty ++ "\n" else ""
  ⟨if trip.isLossless then 0 else 2,
    made ++ tree ++ diagnosticsText trip.reading.diagnostics ++ verdict ++ json, ""⟩

/-- Run the command line on a file with the given content. -/
def run (path : String) (arguments : Arguments) (content : FileContent) : Outcome :=
  let result : Except String Outcome := do
    let vocabulary ← vocabulary arguments.aliases
    let globals ← globals arguments.globals
    let options : ReadOptions := ⟨.checkScopes ∈ arguments.switches, globals⟩
    if .phases ∈ arguments.switches then
      let phases ← (content.load path Phases.ofJson).mapError fun error =>
        "Failed to load phases: " ++ error.message
      let trip ← (Phases.roundTrip phases vocabulary options).mapError fun error =>
        "Materialization failed: " ++ error.message
      return .ofRoundTrip path arguments.switches Phases.toJson trip
    else
      let statement ← (content.load path Statement.ofJson).mapError fun error =>
        "Failed to load program: " ++ error.message
      let trip ← (statement.roundTrip vocabulary options).mapError fun error =>
        "Materialization failed: " ++ error.message
      return .ofRoundTrip path arguments.switches Statement.toJson trip
  match result with
  | .ok outcome => outcome
  | .error message => .failure message

end RuleBlocks.CommandLine
