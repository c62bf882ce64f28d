/-!
# Links between blocks

Blocks are the nodes of a graph and are named by numbers. A block may be attached to another one in
three ways: as the value in one of its inputs, as the first block of the chain in one of its inputs,
or as the next block of its chain. Attaching can fail; a `GraphError` says why.
-/

namespace RuleBlocks

/-- The number of a block: how many blocks were made before it. There is no bound on these numbers.
A graph that keeps them in words of 32 bits gives the same ones to its first 2^32 blocks, and would
only then start again at 0. -/
abbrev NodeId := Nat

/-- The text by which messages name a block. -/
def NodeId.text (node : NodeId) : String := "#" ++ node.repr

/-- How a block is attached to another one. -/
inductive Attachment where
  | value (input : String)
  | statement (input : String)
  | next
deriving DecidableEq, Repr, Inhabited

/-- The block to which a block is attached, and how. -/
structure ParentLink where
  node : NodeId
  via : Attachment
deriving DecidableEq, Repr, Inhabited

/-- Why a change of a graph is refused. -/
inductive GraphError where
  | unknownNode (node : NodeId)
  | alreadyAttached (child parent : NodeId)
  | inputOccupied (node : NodeId) (input : String)
  | nextOccupied (node : NodeId)
  | wouldCycle (parent child : NodeId)
deriving DecidableEq, Repr, Inhabited

def GraphError.message : GraphError → String
  | unknownNode node => "Node " ++ node.text ++ " does not exist in this workspace"
  | alreadyAttached child parent =>
    "Node " ++ child.text ++ " is already attached to node " ++ parent.text
  | inputOccupied node input =>
    "Input '" ++ input ++ "' on node " ++ node.text ++ " is already connected"
  | nextOccupied node => "Node " ++ node.text ++ " already has a next statement"
  | wouldCycle parent child =>
    "Attaching node " ++ child.text ++ " below node " ++ parent.text ++ " would create a cycle"

/-- A change that a graph of blocks can be asked to make. -/
inductive Edit where
  | create (tag : String)
  | setField (node : NodeId) (field text : String)
  | attach (link : ParentLink) (child : NodeId)
deriving DecidableEq, Repr, Inhabited

end RuleBlocks
