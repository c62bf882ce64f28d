import RuleBlocks.Block.Kind

/-!
# Blueprints

A blueprint is a block that is still to be made: its kind, the texts of its fields, and what is to
stand in its inputs. An input takes a value, or a chain of blocks. The blocks of a body are put
into place one after the other as soon as each of them is made; the parts of an offer are all made
first and then put into place.
-/

namespace RuleBlocks

/-- An input of a block that is to be made, with what is to stand in it. -/
inductive SocketOf (Inner : Type) where
  | value (input : String) (block : Inner)
  | body (input : String) (chain : List Inner)
  | parts (input : String) (chain : List Inner)
deriving Repr

/-- A block that is to be made. -/
inductive Blueprint where
  | block (kind : BlockKind) (fields : List (String × String)) (sockets : List (SocketOf Blueprint))
deriving Repr

namespace Blueprint

/-- A block with one field and nothing in its inputs. -/
def leaf (kind : BlockKind) (field text : String) : Blueprint := block kind [(field, text)] []

/-- The kind of the block that is to be made. -/
def kind : Blueprint → BlockKind
  | block kind _ _ => kind

mutual

/-- How many blocks a blueprint stands for. -/
def size : Blueprint → Nat
  | block _ _ sockets => socketsSize sockets + 1

/-- How many blocks are to stand in the inputs of a list. -/
def socketsSize : List (SocketOf Blueprint) → Nat
  | [] => 0
  | socket :: sockets => socketSize socket + socketsSize sockets

/-- How many blocks are to stand in an input. -/
def socketSize : SocketOf Blueprint → Nat
  | .value _ inner => size inner
  | .body _ chain => chainSize chain
  | .parts _ chain => chainSize chain

/-- How many blocks a chain stands for. -/
def chainSize : List Blueprint → Nat
  | [] => 0
  | first :: rest => size first + chainSize rest

end

/-- The numbers of the blocks of a chain, without those inside them, if its first block gets the
given number. -/
def chainNodes (free : Nat) : List Blueprint → List Nat
  | [] => []
  | first :: rest => free :: chainNodes (free + first.size) rest

end Blueprint

end RuleBlocks
