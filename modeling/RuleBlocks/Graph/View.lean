import RuleBlocks.Block.Vocabulary
import RuleBlocks.Block.Slot
import RuleBlocks.Graph.Link

/-!
# Views of a graph of blocks

What a reader may ask of a graph: its blocks, their tags, fields and inputs, and the blocks next to,
before, above and around each of them. A graph may be one of our own workspaces or that of a host,
and a host may answer what it likes; so a view promises nothing about its answers.
-/

namespace RuleBlocks

/-- The questions that a graph answers. -/
structure View where
  /-- All blocks, in the order in which they were made. -/
  nodes : List NodeId
  tag? : NodeId → Option String
  field? : NodeId → String → Option String
  /-- The block in an input, or the first one of the chain in it. -/
  input? : NodeId → String → Option NodeId
  next? : NodeId → Option NodeId
  /-- The block before this one in its chain. -/
  previous? : NodeId → Option NodeId
  /-- The block to which this one is attached, in whatever way. -/
  owner? : NodeId → Option NodeId
  /-- The block that holds, in one of its inputs, the chain in which this one stands. -/
  enclosing? : NodeId → Option NodeId

namespace View

def size (view : View) : Nat := view.nodes.length

/-- The tag of a block as messages show it, empty if it cannot be read. -/
def shownTag (view : View) (node : NodeId) : String := (view.tag? node).getD ""

/-- The chain that starts with a block, cut off after a number of blocks. -/
def chain (view : View) : Nat → Option NodeId → List NodeId
  | 0, _ => []
  | _, none => []
  | limit + 1, some node => node :: chain view limit (view.next? node)

/-- A field that is set to a text other than the empty one. -/
def filledField? (view : View) (node : NodeId) (field : String) : Option String :=
  (view.field? node field).filter (· ≠ "")

def kind? (view : View) (vocabulary : Vocabulary) (node : NodeId) : Option BlockKind :=
  (view.tag? node).bind vocabulary.kind?

/-- The category of the value that a block gives, if it gives one. -/
def outputCategory? (view : View) (vocabulary : Vocabulary) (node : NodeId) : Option Category :=
  match (view.kind? vocabulary node).map BlockKind.role with
  | some (.value category) => some category
  | some .typedValue => (view.field? node Field.category).bind Category.ofTag?
  | _ => none

end View

/-- A graph of blocks that can be viewed, and asked for changes. A refused change answers with an
error; the graph is then what it says it is. -/
class EditableGraph (Graph : Type) where
  view : Graph → View
  edit : Graph → Edit → Graph × Except GraphError Unit

end RuleBlocks
