import RuleBlocks.Blueprint.Plan
import RuleBlocks.Blueprint.Statement
import RuleBlocks.Reading.Statement
import RuleBlocks.Workspace.Basic

/-!
# Round trips

A program is drawn as blocks in an empty workspace and read again. The trip is lossless if the
normal form of the program comes back.
-/

namespace RuleBlocks

/-- The workspace in which a program was drawn, and what came back from it. -/
structure RoundTrip (Program : Type) where
  workspace : Workspace
  reading : Reading Program
  isLossless : Bool

/-- Draw a statement and read the chain of the first root again. -/
def Statement.roundTrip (statement : Statement) (vocabulary : Vocabulary)
    (options : ReadOptions) : Except BuildError (RoundTrip Statement) := do
  let (workspace, result) :=
    EditableGraph.insertChain Workspace.empty .detached statement.blueprints
  let last? ← result
  let first? := last?.bind fun _ => workspace.roots.head?
  let reading := (Reader.ofView workspace.view vocabulary options).readChain first?
  return ⟨workspace, reading, reading.value = statement.normalForm⟩

/-- Draw phases and read them again. -/
def Phases.roundTrip (phases : Phases) (vocabulary : Vocabulary) (options : ReadOptions) :
    Except BuildError (RoundTrip Phases) := do
  let (workspace, result) := EditableGraph.insertChains Workspace.empty phases.blueprints
  let _ ← result
  let reading := (Reader.ofView workspace.view vocabulary options).readPhases
  return ⟨workspace, reading, reading.value = Phases.normalForm phases⟩

end RuleBlocks
