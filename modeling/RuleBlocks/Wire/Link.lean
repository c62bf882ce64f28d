import RuleBlocks.Graph.Link
import RuleBlocks.Json.Decoder

/-!
# The written form of links

How the numbers of blocks and the links between blocks are written as JSON, and how they are read.
-/

namespace RuleBlocks

open Json (Decoder Record Variant)

namespace NodeId

def toJson (node : NodeId) : Json := .integer (node : Nat)

def ofJson : Decoder NodeId := Decoder.index

end NodeId

namespace Attachment

def toJson : Attachment → Json
  | value input => .tagged "Value" (.text input)
  | statement input => .tagged "Statement" (.text input)
  | next => .text "Next"

def ofJson : Decoder Attachment :=
  Variant.decode
    [("Value", .payload (Decoder.text.map value)),
      ("Statement", .payload (Decoder.text.map statement)),
      ("Next", .single next)]

end Attachment

namespace ParentLink

def toJson (link : ParentLink) : Json :=
  .object [("node", NodeId.toJson link.node), ("via", link.via.toJson)]

def ofJson : Decoder ParentLink :=
  (((Record.pure ParentLink.mk).and (.field "node" NodeId.ofJson)).and
    (.field "via" Attachment.ofJson)).decode

end ParentLink

end RuleBlocks
