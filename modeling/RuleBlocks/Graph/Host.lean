import RuleBlocks.Workspace.Basic

/-!
# Graphs of a host

A host keeps its blocks in a workspace but may answer some questions in its own way, hide the tags
of some blocks, and refuse some changes. A host refuses a change by its turn: the n-th call of a
kind, where every call of that kind counts, whether it succeeds or not. A refused call changes
nothing but the count.
-/

namespace RuleBlocks

/-- The kinds of calls by which a host can be asked for a change of a block that exists. -/
inductive HostCall where
  | setField
  | attachValue
  | attachStatement
  | attachNext
deriving DecidableEq, Repr, Inhabited

/-- The kind of call that an edit is, and the block on which it is called. Making a block is no such
call. -/
def HostCall.ofEdit? : Edit → Option (HostCall × NodeId)
  | .create _ => none
  | .setField node _ _ => some (setField, node)
  | .attach ⟨node, .value _⟩ _ => some (attachValue, node)
  | .attach ⟨node, .statement _⟩ _ => some (attachStatement, node)
  | .attach ⟨node, .next⟩ _ => some (attachNext, node)

/-- How a host differs from the workspace that it keeps. -/
structure HostRules where
  /-- Own answers to the question for the next block. -/
  next : List (NodeId × Option NodeId)
  /-- Own answers to the question for the previous block. -/
  previous : List (NodeId × Option NodeId)
  /-- Own answers to the question for the owner. -/
  owner : List (NodeId × Option NodeId)
  /-- Own answers to the question for the enclosing block. -/
  enclosing : List (NodeId × Option NodeId)
  /-- The blocks whose tags are hidden. -/
  unreadable : List NodeId
  /-- The calls that are refused, each with its turn, counted from one. -/
  refused : List (HostCall × Nat)
deriving DecidableEq, Repr

namespace HostRules

/-- A host that answers and does just what its workspace does. -/
def plain : HostRules := ⟨[], [], [], [], [], []⟩

instance : Inhabited HostRules := ⟨plain⟩

end HostRules

/-- A host, with the calls that it has seen, the last one first. -/
structure Host where
  workspace : Workspace
  rules : HostRules
  calls : List HostCall

namespace Host

def ofRules (rules : HostRules) : Host := ⟨Workspace.empty, rules, []⟩

/-- An own answer, or else that of the workspace. -/
def answer (own : List (NodeId × Option NodeId)) (usual : NodeId → Option NodeId)
    (node : NodeId) : Option NodeId :=
  (own.lookup node).getD (usual node)

def view (host : Host) : View :=
  let usual := host.workspace.view
  { usual with
    tag? := fun node => if node ∈ host.rules.unreadable then none else usual.tag? node
    next? := answer host.rules.next usual.next?
    previous? := answer host.rules.previous usual.previous?
    owner? := answer host.rules.owner usual.owner?
    enclosing? := answer host.rules.enclosing usual.enclosing? }

/-- Whether the next call of a kind is refused. -/
def refuses (host : Host) (call : HostCall) : Bool :=
  (call, host.calls.count call + 1) ∈ host.rules.refused

def edit (host : Host) (change : Edit) : Host × Except GraphError Unit :=
  match HostCall.ofEdit? change with
  | none =>
    let (workspace, result) := host.workspace.edit change
    ({ host with workspace }, result)
  | some (call, node) =>
    let counted := { host with calls := call :: host.calls }
    if host.refuses call then (counted, .error (.unknownNode node))
    else
      let (workspace, result) := host.workspace.edit change
      ({ counted with workspace }, result)

instance : EditableGraph Host := ⟨view, edit⟩

end Host

end RuleBlocks
