import RuleBlocks.Text.Decimal

/-!
# JSON values and their text

The JSON values that programs are written as. Numbers are integers, and the members of an object
keep their order. A value is written with one item or member a line, each level indented by two
spaces more, and with empty brackets closed up.
-/

namespace RuleBlocks

/-- A JSON value whose numbers are integers. -/
inductive Json where
  | null
  | boolean (value : Bool)
  | integer (value : Int)
  | text (value : String)
  | array (items : List Json)
  | object (members : List (String × Json))
deriving Repr, Inhabited

namespace Json

/-- An object with one member, by which a variant with a payload is written. -/
def tagged (tag : String) (payload : Json) : Json := object [(tag, payload)]

/-- The payload of an optional value; `null` where there is none. -/
def optional {α : Type} (write : α → Json) : Option α → Json
  | none => null
  | some value => write value

/-! ## Text -/

/-- A control character as four hexadecimal digits after a backslash and `u`. -/
def controlEscape (char : Char) : List Char :=
  ['\\', 'u', '0', '0', Nat.digitChar (char.toNat / 16), Nat.digitChar (char.toNat % 16)]

/-- How a character is written in a text. -/
def escapedChar (char : Char) : List Char :=
  if char = '"' then ['\\', '"']
  else if char = '\\' then ['\\', '\\']
  else if char = '\x08' then ['\\', 'b']
  else if char = '\x0c' then ['\\', 'f']
  else if char = '\n' then ['\\', 'n']
  else if char = '\r' then ['\\', 'r']
  else if char = '\t' then ['\\', 't']
  else if char.toNat < 0x20 then controlEscape char
  else [char]

/-- A text between quotes. -/
def quotedChars (text : String) : List Char :=
  '"' :: (text.toList.flatMap escapedChar ++ ['"'])

/-- The start of a new line at a level of nesting. -/
def newLine (depth : Nat) : List Char := '\n' :: List.replicate (2 * depth) ' '

mutual

/-- The characters of a value that stands at a level of nesting. -/
def prettyChars (depth : Nat) : Json → List Char
  | null => ['n', 'u', 'l', 'l']
  | boolean true => ['t', 'r', 'u', 'e']
  | boolean false => ['f', 'a', 'l', 's', 'e']
  | integer value => Text.Decimal.writeInt value
  | text value => quotedChars value
  | array [] => ['[', ']']
  | array (item :: items) =>
    '[' :: (newLine (depth + 1) ++ prettyChars (depth + 1) item ++
      prettyItems (depth + 1) items ++ newLine depth ++ [']'])
  | object [] => ['{', '}']
  | object (member :: members) =>
    '{' :: (newLine (depth + 1) ++ prettyMember (depth + 1) member ++
      prettyMembers (depth + 1) members ++ newLine depth ++ ['}'])

def prettyItems (depth : Nat) : List Json → List Char
  | [] => []
  | item :: items =>
    ',' :: (newLine depth ++ prettyChars depth item ++ prettyItems depth items)

def prettyMembers (depth : Nat) : List (String × Json) → List Char
  | [] => []
  | member :: members =>
    ',' :: (newLine depth ++ prettyMember depth member ++ prettyMembers depth members)

def prettyMember (depth : Nat) : String × Json → List Char
  | (name, value) => quotedChars name ++ ':' :: ' ' :: prettyChars depth value

end

/-- The text of a value. -/
def pretty (value : Json) : String := String.ofList (prettyChars 0 value)

mutual

/-- How deep the brackets of a value are nested. -/
def depth : Json → Nat
  | array items => itemsDepth items + 1
  | object members => membersDepth members + 1
  | null | boolean _ | integer _ | text _ => 0

def itemsDepth : List Json → Nat
  | [] => 0
  | item :: items => max (depth item) (itemsDepth items)

def membersDepth : List (String × Json) → Nat
  | [] => 0
  | member :: members => max (memberDepth member) (membersDepth members)

def memberDepth : String × Json → Nat
  | (_, value) => depth value

end

end Json

end RuleBlocks
