import RuleBlocks.NameMap
import RuleBlocks.Graph.View

/-!
# Workspaces

A workspace holds blocks that are attached to one another. Every block knows what is attached to it
and what it is attached to. Blocks are only ever added; links are made and undone.

A block is attached only if it exists and is free, if the other block exists, if it does not stand
above that block, and if the place is free. The first of these conditions that fails is the error.
-/

namespace RuleBlocks

/-- Whether an input holds a value or a chain of statements. -/
inductive InputKind where
  | value
  | statement
deriving DecidableEq, Repr, Inhabited

/-- An input of a block together with what it holds. -/
structure Connection where
  input : String
  kind : InputKind
  target : NodeId
deriving DecidableEq, Repr, Inhabited

/-- A block: its number, its tag and fields, and the links from and to it. -/
structure Block where
  number : NodeId
  tag : String
  fields : NameMap String
  /-- The inputs that hold something, in the order in which they were connected. -/
  inputs : List Connection
  next? : Option NodeId
  parent? : Option ParentLink
deriving DecidableEq, Inhabited

namespace Block

/-- A block with a number, a tag and nothing else. -/
def ofTag (number : NodeId) (tag : String) : Block := ⟨number, tag, NameMap.empty, [], none, none⟩

/-- What the input with a name holds. -/
def connection? (block : Block) (input : String) : Option Connection :=
  block.inputs.find? fun connection => connection.input = input

/-- Put a child into an input that is free. -/
def plug (block : Block) (node : NodeId) (connection : Connection) : Except GraphError Block :=
  match block.connection? connection.input with
  | some _ => .error (.inputOccupied node connection.input)
  | none => .ok { block with inputs := block.inputs ++ [connection] }

/-- Put a child into the place that an attachment names. The block has the given number. -/
def accept (block : Block) (node : NodeId) (child : NodeId) : Attachment → Except GraphError Block
  | .value input => block.plug node ⟨input, .value, child⟩
  | .statement input => block.plug node ⟨input, .statement, child⟩
  | .next =>
    match block.next? with
    | some _ => .error (.nextOccupied node)
    | none => .ok { block with next? := some child }

def release (block : Block) : Attachment → Block
  | .value input | .statement input =>
    { block with inputs := block.inputs.filter fun connection => connection.input ≠ input }
  | .next => { block with next? := none }

end Block

structure Workspace where
  blocks : Array Block
deriving DecidableEq

namespace Workspace

def empty : Workspace := ⟨#[]⟩

instance : Inhabited Workspace := ⟨empty⟩

/-! ## Questions -/

def size (workspace : Workspace) : Nat := workspace.blocks.size

def block? (workspace : Workspace) (node : NodeId) : Option Block := workspace.blocks[node]?

def parent? (workspace : Workspace) (node : NodeId) : Option ParentLink :=
  (workspace.block? node).bind Block.parent?

/-- The numbers of all blocks, in the order in which they were made. -/
def nodes (workspace : Workspace) : List NodeId := workspace.blocks.toList.map Block.number

/-- The numbers of the blocks that are attached to nothing, in the order in which they were made. -/
def roots (workspace : Workspace) : List NodeId :=
  (workspace.blocks.toList.filter fun block => block.parent?.isNone).map Block.number

/-- A block and those above it, from the block outwards, cut off after a number of blocks. -/
def climb (workspace : Workspace) : Nat → NodeId → List NodeId
  | 0, _ => []
  | limit + 1, node =>
    node ::
      match workspace.parent? node with
      | some link => climb workspace limit link.node
      | none => []

/-- A block and all those above it, from the block outwards. -/
def lineage (workspace : Workspace) (node : NodeId) : List NodeId :=
  workspace.climb (workspace.size + 1) node

/-- The block before a block in its chain. -/
def previous? (workspace : Workspace) (node : NodeId) : Option NodeId :=
  match workspace.parent? node with
  | some ⟨parent, .next⟩ => some parent
  | _ => none

/-- The block in one of whose inputs a block starts a chain. -/
def chainHolder? (workspace : Workspace) (node : NodeId) : Option NodeId :=
  match workspace.parent? node with
  | some ⟨parent, .statement _⟩ => some parent
  | _ => none

/-- The innermost block around a block: the first one above it that holds a chain with it. -/
def enclosing? (workspace : Workspace) (node : NodeId) : Option NodeId :=
  (workspace.lineage node).findSome? workspace.chainHolder?

def view (workspace : Workspace) : View where
  nodes := workspace.nodes
  tag? node := (workspace.block? node).map Block.tag
  field? node field := (workspace.block? node).bind fun block => block.fields.get? field
  input? node input :=
    (workspace.block? node).bind fun block => (block.connection? input).map Connection.target
  next? node := (workspace.block? node).bind Block.next?
  previous? := workspace.previous?
  owner? node := (workspace.parent? node).map ParentLink.node
  enclosing? := workspace.enclosing?

/-! ## Changes -/

def modify (workspace : Workspace) (node : NodeId) (change : Block → Block) : Workspace :=
  ⟨workspace.blocks.modify node change⟩

/-- Make a block with a tag. Its number is the former size of the workspace. -/
def create (workspace : Workspace) (tag : String) : Workspace :=
  ⟨workspace.blocks.push (Block.ofTag workspace.size tag)⟩

/-- Put a text into a field of a block. -/
def setField (workspace : Workspace) (node : NodeId) (field text : String) :
    Except GraphError Workspace :=
  match workspace.block? node with
  | none => .error (.unknownNode node)
  | some _ =>
    .ok (workspace.modify node fun block => { block with fields := block.fields.insert field text })

/-- Whether a child may be attached to a block, whatever the place. -/
def checkAttach (workspace : Workspace) (parent child : NodeId) : Except GraphError Unit :=
  match workspace.block? child, workspace.block? parent with
  | none, _ => .error (.unknownNode child)
  | some _, none => .error (.unknownNode parent)
  | some childBlock, some _ =>
    match childBlock.parent? with
    | some link => .error (.alreadyAttached child link.node)
    | none =>
      if child ∈ workspace.lineage parent then .error (.wouldCycle parent child) else .ok ()

def attach (workspace : Workspace) (link : ParentLink) (child : NodeId) :
    Except GraphError Workspace := do
  workspace.checkAttach link.node child
  match workspace.block? link.node with
  | none => throw (.unknownNode link.node)
  | some parent =>
    let parent ← parent.accept link.node child link.via
    return (workspace.modify link.node fun _ => parent).modify child fun block =>
      { block with parent? := some link }

/-- Undo the link by which a block is attached, and answer that link, if there was one. The block is
set free before the place in which it stood is cleared. -/
def disconnect (workspace : Workspace) (node : NodeId) :
    Workspace × Except GraphError (Option ParentLink) :=
  match workspace.block? node with
  | none => (workspace, .error (.unknownNode node))
  | some block =>
    match block.parent? with
    | none => (workspace, .ok none)
    | some link =>
      let freed := workspace.modify node fun block => { block with parent? := none }
      match freed.block? link.node with
      | none => (freed, .error (.unknownNode link.node))
      | some _ => (freed.modify link.node (·.release link.via), .ok (some link))

/-- The workspace in which the link of a block is undone, with that link, if there was one. -/
def detach (workspace : Workspace) (node : NodeId) :
    Except GraphError (Workspace × Option ParentLink) :=
  let (changed, result) := workspace.disconnect node
  result.map fun link? => (changed, link?)

/-- Make a change, or say why it is refused; a refused change leaves the workspace as it is. -/
def edit (workspace : Workspace) (change : Edit) : Workspace × Except GraphError Unit :=
  let result : Except GraphError Workspace :=
    match change with
    | .create tag => .ok (workspace.create tag)
    | .setField node field text => workspace.setField node field text
    | .attach link child => workspace.attach link child
  match result with
  | .ok changed => (changed, .ok ())
  | .error error => (workspace, .error error)

instance : EditableGraph Workspace := ⟨view, edit⟩

end Workspace

end RuleBlocks
