/-!
# JSON tokens

The tokens of a JSON text: brackets, commas, colons, the three words, numbers and texts. The text
is cut into tokens by a machine that takes one character after the other, so that cutting is plain
recursion on the characters. The first character that no token can have ends the cutting with the
token `invalid`.

A number carries its value only if it is written as an integer, with neither fraction nor exponent
and not as negative zero. A text carries its content unless it names half of a surrogate pair.
-/

namespace RuleBlocks.Json

/-- A token of a JSON text. -/
inductive Token where
  | openArray
  | closeArray
  | openObject
  | closeObject
  | comma
  | colon
  | null
  | boolean (value : Bool)
  | number (integer? : Option Int)
  | text (content? : Option String)
  | invalid
deriving DecidableEq, Repr, Inhabited

namespace Token

/-! ## The content of a text -/

/-- Whether a code unit is the first half of a surrogate pair. -/
def isHighSurrogate (unit : Nat) : Bool := 0xd800 ≤ unit && unit < 0xdc00

/-- Whether a code unit is the second half of a surrogate pair. -/
def isLowSurrogate (unit : Nat) : Bool := 0xdc00 ≤ unit && unit < 0xe000

/-- The character that the two halves of a surrogate pair stand for. -/
def pairedChar (high low : Nat) : Char :=
  Char.ofNat (0x10000 + (high - 0xd800) * 0x400 + (low - 0xdc00))

/-- The characters that code units stand for, unless half of a surrogate pair stands alone. -/
def charsOfUnits? : List Nat → Option (List Char)
  | [] => some []
  | [unit] =>
    if isHighSurrogate unit || isLowSurrogate unit then none else some [Char.ofNat unit]
  | unit :: next :: rest =>
    if isHighSurrogate unit && isLowSurrogate next then
      (charsOfUnits? rest).map (pairedChar unit next :: ·)
    else if isHighSurrogate unit || isLowSurrogate unit then none
    else (charsOfUnits? (next :: rest)).map (Char.ofNat unit :: ·)

/-- The text token with the given code units, the last one first. -/
def ofUnits (units : List Nat) : Token :=
  .text ((charsOfUnits? units.reverse).map String.ofList)

/-! ## Numbers -/

/-- How much of a number has been read. -/
inductive NumberForm where
  | minus
  | zero
  | digits
  | point
  | fraction
  | exponent
  | exponentSign
  | exponentDigits
deriving DecidableEq, Repr, Inhabited

namespace NumberForm

/-- The form of a number after one more character, unless the character does not belong to it. -/
def next? (form : NumberForm) (char : Char) : Option NumberForm :=
  match form with
  | minus => if char = '0' then some zero else if char.isDigit then some digits else none
  | zero =>
    if char = '.' then some point else if char = 'e' ∨ char = 'E' then some exponent else none
  | digits =>
    if char.isDigit then some digits
    else if char = '.' then some point
    else if char = 'e' ∨ char = 'E' then some exponent
    else none
  | point => if char.isDigit then some fraction else none
  | fraction =>
    if char.isDigit then some fraction
    else if char = 'e' ∨ char = 'E' then some exponent
    else none
  | exponent =>
    if char = '+' ∨ char = '-' then some exponentSign
    else if char.isDigit then some exponentDigits
    else none
  | exponentSign => if char.isDigit then some exponentDigits else none
  | exponentDigits => if char.isDigit then some exponentDigits else none

/-- Whether a number may end here. -/
def mayEnd : NumberForm → Bool
  | zero | digits | fraction | exponentDigits => true
  | minus | point | exponent | exponentSign => false

end NumberForm

/-- The integer that the characters of a number stand for, the last one first. -/
def integerOfChars? (form : NumberForm) (chars : List Char) : Option Int :=
  match form, chars.reverse with
  | .zero, ['0'] => some 0
  | .digits, '-' :: digits => some (-(Nat.ofDigitChars 10 digits 0 : Nat))
  | .digits, digits => some (Nat.ofDigitChars 10 digits 0 : Nat)
  | _, _ => none

/-! ## Cutting a text into tokens -/

/-- What has been read of the token at hand. Characters and code units are kept last one first. -/
inductive State where
  | between
  | word (rest : List Char) (token : Token)
  | number (form : NumberForm) (chars : List Char)
  | text (units : List Nat)
  | escape (units : List Nat)
  | unicode (units : List Nat) (missing : Nat) (unit : Nat)
  | stopped
deriving Repr, Inhabited

/-- The value of a hexadecimal digit. -/
def hexDigit? (char : Char) : Option Nat :=
  if char.isDigit then some (char.toNat - '0'.toNat)
  else if 'a' ≤ char ∧ char ≤ 'f' then some (char.toNat - 'a'.toNat + 10)
  else if 'A' ≤ char ∧ char ≤ 'F' then some (char.toNat - 'A'.toNat + 10)
  else none

/-- The character that a letter after a backslash stands for. -/
def escaped? (char : Char) : Option Char :=
  match char with
  | '"' => some '"'
  | '\\' => some '\\'
  | '/' => some '/'
  | 'b' => some '\x08'
  | 'f' => some '\x0c'
  | 'n' => some '\n'
  | 'r' => some '\r'
  | 't' => some '\t'
  | _ => none

/-- The tokens that are complete with a character that stands between tokens, and what follows. -/
def start (char : Char) : List Token × State :=
  match char with
  | ' ' | '\t' | '\n' | '\r' => ([], .between)
  | '[' => ([openArray], .between)
  | ']' => ([closeArray], .between)
  | '{' => ([openObject], .between)
  | '}' => ([closeObject], .between)
  | ',' => ([comma], .between)
  | ':' => ([colon], .between)
  | '"' => ([], .text [])
  | 'n' => ([], .word ['u', 'l', 'l'] null)
  | 't' => ([], .word ['r', 'u', 'e'] (boolean true))
  | 'f' => ([], .word ['a', 'l', 's', 'e'] (boolean false))
  | '-' => ([], .number .minus ['-'])
  | '0' => ([], .number .zero ['0'])
  | _ => if char.isDigit then ([], .number .digits [char]) else ([invalid], .stopped)

/-- The tokens that are complete with the next character, and what has been read after them. -/
def step (state : State) (char : Char) : List Token × State :=
  match state with
  | .between => start char
  | .word [] token =>
    let (tokens, next) := start char
    (token :: tokens, next)
  | .word (expected :: rest) token =>
    if char = expected then
      if rest = [] then ([token], .between) else ([], .word rest token)
    else ([invalid], .stopped)
  | .number form chars =>
    match form.next? char with
    | some form => ([], .number form (char :: chars))
    | none =>
      if form.mayEnd then
        let (tokens, next) := start char
        (number (integerOfChars? form chars) :: tokens, next)
      else ([invalid], .stopped)
  | .text units =>
    if char = '"' then ([ofUnits units], .between)
    else if char = '\\' then ([], .escape units)
    else if char.toNat < 0x20 then ([invalid], .stopped)
    else ([], .text (char.toNat :: units))
  | .escape units =>
    if char = 'u' then ([], .unicode units 3 0)
    else
      match escaped? char with
      | some meant => ([], .text (meant.toNat :: units))
      | none => ([invalid], .stopped)
  | .unicode units missing unit =>
    match hexDigit? char with
    | some digit =>
      let unit := 16 * unit + digit
      match missing with
      | 0 => ([], .text (unit :: units))
      | missing + 1 => ([], .unicode units missing unit)
    | none => ([invalid], .stopped)
  | .stopped => ([], .stopped)

/-- The tokens that are complete where the text ends. -/
def finish : State → List Token
  | .between | .stopped => []
  | .word [] token => [token]
  | .number form chars =>
    if form.mayEnd then [number (integerOfChars? form chars)] else [invalid]
  | .word (_ :: _) _ | .text _ | .escape _ | .unicode _ _ _ => [invalid]

/-- The tokens of the characters that follow what has been read. -/
def scanFrom (state : State) : List Char → List Token
  | [] => finish state
  | char :: rest =>
    let (tokens, next) := step state char
    tokens ++ scanFrom next rest

/-- The tokens of a text. -/
def scan (text : String) : List Token := scanFrom .between text.toList

end Token

end RuleBlocks.Json
