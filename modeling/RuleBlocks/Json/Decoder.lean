import RuleBlocks.Json.Document

/-!
# Decoding JSON documents

A decoder reads a value of a known type from a document. Its first argument is a budget: how many
brackets may still be opened inside one another. Decoders go through a document from left to right,
so of several faults the first one counts.

* A variant without payload is written as its name, or as an object with the name and `null`; a
  variant with payload as an object with its name and the payload (`Variant`).
* A record is written as an object, with its members in any order and others among them, or as an
  array of its fields in order (`Record`).
-/

namespace RuleBlocks.Json

/-- Why a document is not the text of a value. -/
inductive Fault where
  | unknownVariant (name : String) (known : List String)
  | missingField (name : String)
  | duplicateField (name : String)
  /-- The text is no JSON text, or holds something of another kind than expected. -/
  | malformed
deriving DecidableEq, Repr, Inhabited

namespace Fault

/-- A name between grave accents. -/
def accented (name : String) : String := "`" ++ name ++ "`"

/-- Which variants there are. -/
def expectation : List String → String
  | [] => "there are no variants"
  | [only] => "expected " ++ accented only
  | [first, second] => "expected " ++ accented first ++ " or " ++ accented second
  | known => "expected one of " ++ ", ".intercalate (known.map accented)

/-- What is wrong with the fields or variants of a document. The text of a malformed document has
no explanation. -/
def message? : Fault → Option String
  | unknownVariant name known =>
    some ("unknown variant " ++ accented name ++ ", " ++ expectation known)
  | missingField name => some ("missing field " ++ accented name)
  | duplicateField name => some ("duplicate field " ++ accented name)
  | malformed => none

end Fault

/-- A way to read values of a type from documents, within a budget of brackets. -/
abbrev Decoder (α : Type) := Nat → Document → Except Fault α

/-- How many brackets may be open at once. -/
def nestingLimit : Nat := 127

/-- Read a text that holds one document and nothing else. -/
def decodeText {α : Type} (decode : Decoder α) (text : String) : Except Fault α := do
  let (document, atEnd) := Document.ofText text
  let value ← decode nestingLimit document
  if atEnd then pure value else throw .malformed

namespace Decoder

variable {α β : Type}

def map (f : α → β) (decode : Decoder α) : Decoder β := fun budget document =>
  (decode budget document).map f

/-! ## Single values -/

def text : Decoder String
  | _, .text (some content) => .ok content
  | _, _ => .error .malformed

def boolean : Decoder Bool
  | _, .boolean value => .ok value
  | _, _ => .error .malformed

/-- Read an integer in the range of words of 32 bits. -/
def word : Decoder Int32
  | _, .number (some value) =>
    match Text.Decimal.word? value with
    | some word => .ok word
    | none => .error .malformed
  | _, _ => .error .malformed

/-- Read a natural number below `2 ^ 32`. -/
def index : Decoder Nat
  | _, .number (some (.ofNat value)) => if value < 4294967296 then .ok value else .error .malformed
  | _, _ => .error .malformed

/-- Read `null` as nothing and every other document as a value. -/
def optional (decode : Decoder α) : Decoder (Option α)
  | _, .null => .ok none
  | budget, document => (decode budget document).map some

/-! ## Lists and maps -/

/-- Read one document after the other. -/
def each (decode : Document → Except Fault α) : List Document → Except Fault (List α)
  | [] => .ok []
  | item :: items => do
    let value ← decode item
    let values ← each decode items
    pure (value :: values)

def list (decode : Decoder α) : Decoder (List α)
  | budget + 1, .array items => each (decode budget) items
  | _, _ => .error .malformed

/-- Read one named document after the other. -/
def eachMember (decode : Document → Except Fault α) :
    List (Option String × Document) → Except Fault (List (String × α))
  | [] => .ok []
  | (none, _) :: _ => .error .malformed
  | (some name, member) :: members => do
    let value ← decode member
    let values ← eachMember decode members
    pure ((name, value) :: values)

/-- Read an object with any names. -/
def members (decode : Decoder α) : Decoder (List (String × α))
  | budget + 1, .object members => eachMember (decode budget) members
  | _, _ => .error .malformed

end Decoder

/-! ## Variants -/

/-- How a variant of a type is written after its name. -/
inductive Variant (α : Type) where
  | single (value : α)
  | payload (decode : Decoder α)

namespace Variant

variable {α : Type}

def find (variants : List (String × Variant α)) (name : String) : Except Fault (Variant α) :=
  match variants.lookup name with
  | some variant => .ok variant
  | none => .error (.unknownVariant name (variants.map Prod.fst))

def readPayload : Variant α → Decoder α
  | single value, _, .null => .ok value
  | single _, _, _ => .error .malformed
  | payload decode, budget, document => decode budget document

def decode (variants : List (String × Variant α)) : Decoder α
  | _, .text (some name) => do
    match ← find variants name with
    | single value => pure value
    | payload _ => throw .malformed
  | budget + 1, .object ((some name, document) :: others) => do
    let variant ← find variants name
    let value ← variant.readPayload budget document
    if others.isEmpty then pure value else throw .malformed
  | _, _ => .error .malformed

end Variant

/-! ## Records -/

/-- A fault together with the number of members that stand before it. -/
abbrev PlacedFault := Nat × Fault

/-- How the fields of a record are read, from the members of an object or from the first items of
an array. -/
structure Record (α : Type) where
  /-- The names of the fields, in order. -/
  names : List String
  ofMembers : Nat → List (Option String × Document) → Except PlacedFault α
  ofItems : Nat → List Document → Except Fault (α × List Document)

namespace Record

variable {α β : Type}

/-- The first member with a name, with the number of members before it. -/
def findMember (name : String) : Nat → List (Option String × Document) → Option (Nat × Document)
  | _, [] => none
  | before, (other, document) :: members =>
    if other = some name then some (before, document) else findMember name (before + 1) members

/-- Put two results together; of two faults the earlier one counts. -/
def together (f : Except PlacedFault (α → β)) (x : Except PlacedFault α) : Except PlacedFault β :=
  match f, x with
  | .ok f, .ok x => .ok (f x)
  | .ok _, .error fault => .error fault
  | .error fault, .ok _ => .error fault
  | .error fault, .error other => .error (if other.1 < fault.1 then other else fault)

def pure (value : α) : Record α where
  names := []
  ofMembers _ _ := .ok value
  ofItems _ items := .ok (value, items)

/-- Put a further record after the fields of one. -/
def and (f : Record (α → β)) (x : Record α) : Record β where
  names := f.names ++ x.names
  ofMembers budget members := together (f.ofMembers budget members) (x.ofMembers budget members)
  ofItems budget items := do
    let (f, items) ← f.ofItems budget items
    let (x, items) ← x.ofItems budget items
    return (f x, items)

def firstItem (decode : Decoder α) : Nat → List Document → Except Fault (α × List Document)
  | _, [] => .error .malformed
  | budget, item :: items => (decode budget item).map (·, items)

/-- A field that has to be there. -/
def field (name : String) (decode : Decoder α) : Record α where
  names := [name]
  ofMembers budget members :=
    match findMember name 0 members with
    | some (before, document) => (decode budget document).mapError (before, ·)
    | none => .error (members.length, .missingField name)
  ofItems := firstItem decode

/-- A field that may be absent from an object, or `null`. -/
def optionalField (name : String) (decode : Decoder α) : Record (Option α) where
  names := [name]
  ofMembers budget members :=
    match findMember name 0 members with
    | some (before, document) => (decode.optional budget document).mapError (before, ·)
    | none => .ok none
  ofItems := firstItem decode.optional

/-- The faults of an object that concern no field alone: a name that cannot be read, a field that is
there twice, and a broken member that is no field. -/
def checkMembers (names : List String) :
    (seen : List String) → Nat → List (Option String × Document) → Except PlacedFault Unit
  | _, _, [] => .ok ()
  | _, before, (none, _) :: _ => .error (before, .malformed)
  | seen, before, (some name, document) :: members =>
    if name ∈ names then
      if name ∈ seen then .error (before, .duplicateField name)
      else checkMembers names (name :: seen) (before + 1) members
    else if document.isWhole then checkMembers names seen (before + 1) members
    else .error (before, .malformed)

def decode (record : Record α) : Decoder α
  | budget + 1, .object members =>
    (together ((checkMembers record.names [] 0 members).map fun _ => id)
      (record.ofMembers budget members)).mapError Prod.snd
  | budget + 1, .array items => do
    let (value, others) ← record.ofItems budget items
    if others.isEmpty then return value else throw .malformed
  | _, _ => .error .malformed

end Record

end RuleBlocks.Json
