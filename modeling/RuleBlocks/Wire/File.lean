import RuleBlocks.Wire.Statement

/-!
# Program files

A program file is a text in UTF-8 that holds a statement, or phases, and nothing else.
-/

namespace RuleBlocks

/-- What is found where a file should be. -/
inductive FileContent where
  /-- There is no file. -/
  | missing
  /-- The file cannot be read, for the given reason. -/
  | unreadable (reason : String)
  | bytes (content : ByteArray)

/-- Why a program cannot be loaded from a file. -/
inductive FileError where
  | unreadable (path reason : String)
  | malformed (fault : Json.Fault)
deriving DecidableEq, Repr, Inhabited

def FileError.message : FileError → String
  | unreadable path reason => "Could not read '" ++ path ++ "': " ++ reason
  | malformed fault =>
    "Failed to parse program JSON: " ++ fault.message?.getD "the text holds no program"

namespace FileContent

/-- The text of a file. -/
def text (path : String) : FileContent → Except FileError String
  | missing => .error (.unreadable path "No such file or directory (os error 2)")
  | unreadable reason => .error (.unreadable path reason)
  | bytes content =>
    match String.fromUTF8? content with
    | some text => .ok text
    | none => .error (.unreadable path "stream did not contain valid UTF-8")

/-- Read a value from a file. -/
def load {α : Type} (content : FileContent) (path : String) (decode : Json.Decoder α) :
    Except FileError α := do
  let text ← content.text path
  (Json.decodeText decode text).mapError .malformed

end FileContent

end RuleBlocks
