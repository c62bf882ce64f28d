import RuleBlocks.Main
import RuleBlocks.Graph.Host
import RuleBlocks.Reading.Typed
import RuleBlocks.Wire.Link
import RuleBlocks.Proofs.Workspace.Refusal
import RuleBlocks.Proofs.Blueprint.NormalForm
import RuleBlocks.Proofs.Reading.NestedHats
import RuleBlocks.Proofs.Reading.Checking
import RuleBlocks.Proofs.Reading.Copies
import RuleBlocks.Proofs.Reading.Truth
import RuleBlocks.Proofs.Scope.Lexical
import RuleBlocks.Proofs.RoundTrip.Phases
import RuleBlocks.Proofs.RoundTrip.Scope
import RuleBlocks.Proofs.RoundTrip.Aliases
import RuleBlocks.Proofs.CommandLine.Printed
import RuleBlocks.Proofs.Workspace.Undo
import RuleBlocks.Proofs.Blueprint.Placed
import RuleBlocks.Proofs.RoundTrip.Appended
import RuleBlocks.Proofs.Blueprint.Stopped
import RuleBlocks.Proofs.RoundTrip.Categories
import RuleBlocks.Proofs.Reading.Typed
import RuleBlocks.Proofs.Scope.OwnName
import RuleBlocks.Proofs.Program.Equivalent
import RuleBlocks.Proofs.Reading.Registered
import RuleBlocks.Proofs.Scope.Circles
import RuleBlocks.Proofs.Reading.Paths
import RuleBlocks.Proofs.Outline.Text
import RuleBlocks.Proofs.Reading.OutputCategory
import RuleBlocks.Proofs.Reading.Limits
