import RuleBlocks.Blueprint.Basic
import RuleBlocks.Graph.View

/-!
# Plans

A plan is the list of edits that make the blocks of a blueprint and attach them to one another. New
blocks are numbered in the order in which they are made, so the plan is known once the number of
the first new block is known. A block is made before what stands in its inputs.

A plan is carried out step by step, up to the first step that the graph refuses. What was done
before stays. Every step names the block that is to blame if it is refused.
-/

namespace RuleBlocks

/-- The block that is to blame for a refused step. Its tag is that of its kind, or else the one that
the graph shows. -/
structure Blame where
  node : NodeId
  kind? : Option BlockKind
deriving DecidableEq, Repr, Inhabited

/-- One edit of a plan. -/
structure Step where
  edit : Edit
  blame : Blame
deriving DecidableEq, Repr, Inhabited

/-- The step of a plan that was refused: the block that is to blame and the reason. -/
structure BuildError where
  tag : String
  node : NodeId
  cause : GraphError
deriving DecidableEq, Repr, Inhabited

def BuildError.message (error : BuildError) : String :=
  "Failed to wire '" ++ error.tag ++ "' node " ++ error.node.text ++ ": " ++ error.cause.message

/-- Where the first block of a chain goes. -/
inductive Place where
  | detached
  | after (node : NodeId)
  | input (node : NodeId) (name : String)
deriving DecidableEq, Repr, Inhabited

/-- The link to the place, if the place is attached to anything. -/
def Place.link? : Place → Option ParentLink
  | detached => none
  | after node => some ⟨node, .next⟩
  | input node name => some ⟨node, .statement name⟩

namespace Blueprint

/-- The step that attaches a new block to its place; none for a place that is attached to
nothing. -/
def attachSteps (link? : Option ParentLink) (child : NodeId) : List Step :=
  match link? with
  | none => []
  | some link => [⟨.attach link child, ⟨child, none⟩⟩]

/-- The steps that make blocks next to one another. -/
def linkSteps (first : NodeId) : List NodeId → List Step
  | [] => []
  | second :: rest =>
    ⟨.attach ⟨first, .next⟩ second, ⟨first, none⟩⟩ :: linkSteps second rest

/-- The steps that put parts into an input, next to one another. -/
def partSteps (kind : BlockKind) (node : NodeId) (input : String) : List NodeId → List Step
  | [] => []
  | first :: rest =>
    ⟨.attach ⟨node, .statement input⟩ first, ⟨node, some kind⟩⟩ :: linkSteps first rest

mutual

/-- The steps that make a block with the given number and what stands in its inputs. -/
def steps (node : NodeId) : Blueprint → List Step
  | block kind fields sockets =>
    ⟨.create kind.tag, ⟨node, some kind⟩⟩ ::
      (fields.map (fun field => ⟨.setField node field.1 field.2, ⟨node, some kind⟩⟩) ++
        socketsSteps kind node (node + 1) sockets)

/-- The steps that fill the inputs of a block, with new blocks from the first free number on. -/
def socketsSteps (kind : BlockKind) (node free : NodeId) : List (SocketOf Blueprint) → List Step
  | [] => []
  | socket :: sockets =>
    socketSteps kind node free socket ++
      socketsSteps kind node (free + socketSize socket) sockets

/-- The steps that fill one input of a block. -/
def socketSteps (kind : BlockKind) (node free : NodeId) : SocketOf Blueprint → List Step
  | .value input inner =>
    steps free inner ++ [⟨.attach ⟨node, .value input⟩ free, ⟨node, some kind⟩⟩]
  | .body input chain => chainSteps (some ⟨node, .statement input⟩) free chain
  | .parts input chain => makeSteps free chain ++ partSteps kind node input (chainNodes free chain)

/-- The steps that make the blocks of a chain and put each of them into place at once. -/
def chainSteps (link? : Option ParentLink) (free : NodeId) : List Blueprint → List Step
  | [] => []
  | first :: rest =>
    steps free first ++ attachSteps link? free ++
      chainSteps (some ⟨free, .next⟩) (free + first.size) rest

/-- The steps that make the blocks of a chain without attaching them to one another. -/
def makeSteps (free : NodeId) : List Blueprint → List Step
  | [] => []
  | first :: rest => steps free first ++ makeSteps (free + first.size) rest

end

end Blueprint

/-! ## Carrying out a plan -/

namespace EditableGraph

variable {Graph : Type} [EditableGraph Graph]

/-- Carry out steps up to the first one that is refused. -/
def carryOut (graph : Graph) : List Step → Graph × Except BuildError Unit
  | [] => (graph, .ok ())
  | step :: steps =>
    match edit graph step.edit with
    | (changed, .ok ()) => carryOut changed steps
    | (changed, .error cause) =>
      let tag :=
        match step.blame.kind? with
        | some kind => kind.tag
        | none => (view changed).shownTag step.blame.node
      (changed, .error ⟨tag, step.blame.node, cause⟩)

/-- Make a chain of blocks and put it into a place. Answers the last block of the chain. -/
def insertChain (graph : Graph) (place : Place) (chain : List Blueprint) :
    Graph × Except BuildError (Option NodeId) :=
  let free := (view graph).size
  let (changed, result) := carryOut graph (Blueprint.chainSteps place.link? free chain)
  (changed, result.map fun _ => (Blueprint.chainNodes free chain).getLast?)

/-- Make a block that is attached to nothing, and answer it. -/
def insertBlock (graph : Graph) (blueprint : Blueprint) : Graph × Except BuildError NodeId :=
  let free := (view graph).size
  let (changed, result) := carryOut graph (blueprint.steps free)
  (changed, result.map fun _ => free)

/-- Make chains that are attached to nothing, and answer the first block of each of them. -/
def insertChains (graph : Graph) :
    List (List Blueprint) → Graph × Except BuildError (List NodeId)
  | [] => (graph, .ok [])
  | chain :: chains =>
    let free := (view graph).size
    match insertChain graph .detached chain with
    | (changed, .error error) => (changed, .error error)
    | (changed, .ok _) =>
      let (last, result) := insertChains changed chains
      (last, result.map ((Blueprint.chainNodes free chain).take 1 ++ ·))

end EditableGraph

end RuleBlocks
