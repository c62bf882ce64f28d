import RuleBlocks.Json.Token
import RuleBlocks.Json.Value

/-!
# JSON documents

What a JSON text holds, as far as it can be read. Where the text goes wrong the document holds
`broken` in the place of what should stand there, and nothing after it. So a reader that goes
through a document from left to right meets the faults of the text in their order.

The document is built by a machine that takes one token after the other and keeps the brackets
that are still open as frames.
-/

namespace RuleBlocks.Json

/-- What a JSON text holds. Numbers that are not integers have no value, and texts with half of a
surrogate pair have no content. -/
inductive Document where
  | broken
  | null
  | boolean (value : Bool)
  | number (integer? : Option Int)
  | text (content? : Option String)
  | array (items : List Document)
  | object (members : List (Option String × Document))
deriving Repr, Inhabited

namespace Document

mutual

/-- Whether a document has no broken part. -/
def isWhole : Document → Bool
  | broken => false
  | array items => itemsAreWhole items
  | object members => membersAreWhole members
  | null | boolean _ | number _ | text _ => true

def itemsAreWhole : List Document → Bool
  | [] => true
  | item :: items => isWhole item && itemsAreWhole items

def membersAreWhole : List (Option String × Document) → Bool
  | [] => true
  | member :: members => memberIsWhole member && membersAreWhole members

def memberIsWhole : Option String × Document → Bool
  | (_, value) => isWhole value

end

mutual

/-- The document that a value is read as. -/
def ofJson : Json → Document
  | .null => null
  | .boolean value => boolean value
  | .integer value => number (some value)
  | .text value => text (some value)
  | .array items => array (ofItems items)
  | .object members => object (ofMembers members)

def ofItems : List Json → List Document
  | [] => []
  | item :: items => ofJson item :: ofItems items

def ofMembers : List (String × Json) → List (Option String × Document)
  | [] => []
  | member :: members => ofMember member :: ofMembers members

def ofMember : String × Json → Option String × Document
  | (name, value) => (some name, ofJson value)

end

/-! ## Building a document from tokens -/

/-- An open bracket around the value that is being read, with what stands before that value, the
last first. -/
inductive Frame where
  | array (items : List Document)
  | object (members : List (Option String × Document)) (name : Option String)
deriving Repr, Inhabited

/-- What has been read, with the frames around it from the innermost to the outermost. Items and
members are kept last one first. -/
inductive State where
  | beforeValue (frames : List Frame)
  | beforeFirstItem (frames : List Frame)
  | afterItem (items : List Document) (frames : List Frame)
  | beforeFirstName (frames : List Frame)
  | beforeName (members : List (Option String × Document)) (frames : List Frame)
  | afterName (members : List (Option String × Document)) (name : Option String)
      (frames : List Frame)
  | afterMember (members : List (Option String × Document)) (frames : List Frame)
  | complete (document : Document)
deriving Repr, Inhabited

/-- What has been read once a value is complete. -/
def put (value : Document) : List Frame → State
  | [] => .complete value
  | .array items :: frames => .afterItem (value :: items) frames
  | .object members name :: frames => .afterMember ((name, value) :: members) frames

/-- What has been read after the first token of a value, unless no value begins so. -/
def beginValue? (frames : List Frame) : Token → Option State
  | .openArray => some (.beforeFirstItem frames)
  | .openObject => some (.beforeFirstName frames)
  | .null => some (put null frames)
  | .boolean value => some (put (boolean value) frames)
  | .number integer? => some (put (number integer?) frames)
  | .text content? => some (put (text content?) frames)
  | .closeArray | .closeObject | .comma | .colon | .invalid => none

/-- What has been read after one more token, unless the token cannot stand here. -/
def step? (state : State) (token : Token) : Option State :=
  match state, token with
  | .beforeValue frames, token => beginValue? frames token
  | .beforeFirstItem frames, .closeArray => some (put (array []) frames)
  | .beforeFirstItem frames, token => beginValue? (.array [] :: frames) token
  | .afterItem items frames, .comma => some (.beforeValue (.array items :: frames))
  | .afterItem items frames, .closeArray => some (put (array items.reverse) frames)
  | .beforeFirstName frames, .closeObject => some (put (object []) frames)
  | .beforeFirstName frames, .text name => some (.afterName [] name frames)
  | .beforeName members frames, .text name => some (.afterName members name frames)
  | .afterName members name frames, .colon =>
    some (.beforeValue (.object members name :: frames))
  | .afterMember members frames, .comma => some (.beforeName members frames)
  | .afterMember members frames, .closeObject => some (put (object members.reverse) frames)
  | _, _ => none

/-- The document in which a part stands that ends too early: nothing follows it in the frames. -/
def enclose (part : Document) : List Frame → Document
  | [] => part
  | .array items :: frames => enclose (array (part :: items).reverse) frames
  | .object members name :: frames => enclose (object ((name, part) :: members).reverse) frames

/-- The document that has been read where a text goes wrong or ends. -/
def abandon : State → Document
  | .beforeValue frames => enclose broken frames
  | .beforeFirstItem frames => enclose (array [broken]) frames
  | .afterItem items frames => enclose (array (broken :: items).reverse) frames
  | .beforeFirstName frames => enclose (object [(none, broken)]) frames
  | .beforeName members frames => enclose (object ((none, broken) :: members).reverse) frames
  | .afterName members name frames =>
    enclose (object ((name, broken) :: members).reverse) frames
  | .afterMember members frames => enclose (object ((none, broken) :: members).reverse) frames
  | .complete document => document

/-- The document that the tokens after what has been read lead to, and whether the text is at its
end with the document. -/
def ofTokensFrom (state : State) : List Token → Document × Bool
  | [] =>
    match state with
    | .complete document => (document, true)
    | _ => (abandon state, false)
  | token :: tokens =>
    match step? state token with
    | some next => ofTokensFrom next tokens
    | none => (abandon state, false)

/-- The document of a text, and whether nothing stands after it. -/
def ofText (text : String) : Document × Bool := ofTokensFrom (.beforeValue []) (Token.scan text)

end Document

end RuleBlocks.Json
