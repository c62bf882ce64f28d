import RuleBlocks.Text.Quoted
import RuleBlocks.Workspace.Basic

/-!
# The outline of a workspace

The outline shows every block of a workspace on a line of its own: the roots in the order in which
they were made, after each block the chains in its inputs, and then the next block of its chain. A
line is indented by one column for each input on the way to its block. The column of an enclosing
block has a rail if more follows below that block, and the mark of a line shows whether more
follows below the block itself.
-/

namespace RuleBlocks

/-- What a line of an outline shows. -/
structure OutlineLine where
  /-- For each enclosing block, from the outermost to the innermost, whether more follows it. -/
  rails : List Bool
  /-- Whether nothing follows the block at its own level. -/
  isLast : Bool
  /-- The input that starts with the block. -/
  label : Option String
  node : NodeId
deriving DecidableEq, Repr, Inhabited

namespace Workspace

/-- The lines of the chain that starts with a block, down to a depth of links. The chain stands
below the given rails, and nothing follows the whole chain if `closes` is set. -/
def chainLines (workspace : Workspace) :
    Nat → (rails : List Bool) → (closes : Bool) → Option String → NodeId → List OutlineLine
  | 0, _, _, _, _ => []
  | depth + 1, rails, closes, label, node =>
    match workspace.block? node with
    | none => [⟨rails, true, label, node⟩]
    | some block =>
      let isLast := closes && block.next?.isNone
      let inputs := block.inputs.zipIdx.flatMap fun (connection, index) =>
        chainLines workspace depth (rails ++ [!isLast]) (index + 1 = block.inputs.length)
          (some connection.input) connection.target
      let rest :=
        match block.next? with
        | some next => chainLines workspace depth rails closes none next
        | none => []
      ⟨rails, isLast, label, node⟩ :: (inputs ++ rest)

/-- The lines of the outline of a workspace. -/
def outlineLines (workspace : Workspace) : List OutlineLine :=
  workspace.roots.zipIdx.flatMap fun (root, index) =>
    workspace.chainLines (workspace.size + 1) [] (index + 1 = workspace.roots.length) none root

/-- The fields of a block between brackets, in the order of their names, or nothing if it has
none. -/
def fieldsText (fields : NameMap String) : String :=
  match fields.entries with
  | [] => ""
  | entries =>
    " [" ++ ", ".intercalate (entries.map fun entry => entry.1 ++ "=" ++ Text.quoted entry.2) ++
      "]"

/-- The text of a line, without the line break. -/
def lineText (workspace : Workspace) (line : OutlineLine) : String :=
  let indent := String.join (line.rails.map fun rail => if rail then "│   " else "    ")
  match workspace.block? line.node with
  | none => indent ++ "└── <missing " ++ line.node.text ++ ">"
  | some block =>
    let mark := if line.isLast then "└── " else "├── "
    let label :=
      match line.label with
      | some label => label ++ ": "
      | none => ""
    indent ++ mark ++ label ++ block.tag ++ " " ++ line.node.text ++ fieldsText block.fields

/-- The outline of a workspace as a text. -/
def outline (workspace : Workspace) : String :=
  String.join (workspace.outlineLines.map fun line => workspace.lineText line ++ "\n")

end Workspace

end RuleBlocks
