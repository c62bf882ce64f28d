/-!
# Blank characters

The characters with the White_Space property of Unicode, and texts without them at either end.
-/

namespace RuleBlocks.Text

/-- The ranges of the White_Space property. -/
def blankRanges : List (Nat × Nat) :=
  [(0x9, 0xd), (0x20, 0x20), (0x85, 0x85), (0xa0, 0xa0), (0x1680, 0x1680), (0x2000, 0x200a),
    (0x2028, 0x2029), (0x202f, 0x202f), (0x205f, 0x205f), (0x3000, 0x3000)]

/-- Whether a character is white space. -/
def isBlank (char : Char) : Bool :=
  blankRanges.any fun range => range.1 ≤ char.toNat && char.toNat ≤ range.2

/-- A list of characters without the blank ones at its end. -/
def trimEnd : List Char → List Char
  | [] => []
  | char :: rest =>
    match trimEnd rest with
    | [] => if isBlank char then [] else [char]
    | kept => char :: kept

/-- A text without the blank characters at its two ends. -/
def trim (text : String) : String := String.ofList (trimEnd (text.toList.dropWhile isBlank))

end RuleBlocks.Text
