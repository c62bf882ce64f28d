import RuleBlocks.Json.Document

/-!
# Written JSON values are read back

The text of a JSON value is cut into its tokens again, whatever follows it: words, texts with all
their escapes (`scanFrom_quoted`) and integers (`scanFrom_integer`). An integer is cut off only
where something follows that is no part of a number, as a comma, a new line and the end of the text
are. So the text of a value holds the document of the value and nothing after it
(`Document.ofText_pretty`).
-/

namespace RuleBlocks.Json

namespace Token

/-! ## Blanks and words -/

theorem scanFrom_blanks (count : Nat) (rest : List Char) :
    scanFrom .between (List.replicate count ' ' ++ rest) = scanFrom .between rest := by
  induction count with
  | zero => rfl
  | succ count ih => exact ih

theorem scanFrom_newLine (depth : Nat) (rest : List Char) :
    scanFrom .between (newLine depth ++ rest) = scanFrom .between rest :=
  scanFrom_blanks (2 * depth) rest

/-! ## Texts -/

theorem hexDigit?_digitChar {digit : Nat} (h : digit < 16) :
    hexDigit? (Nat.digitChar digit) = some digit := by
  have hAll : ∀ digit < 16, hexDigit? (Nat.digitChar digit) = some digit := by decide
  exact hAll digit h

/-- A control character is read from its four digits. -/
theorem scanFrom_controlEscape (units : List Nat) {char : Char} (hControl : char.toNat < 0x20)
    (rest : List Char) :
    scanFrom (.text units) (controlEscape char ++ rest) =
      scanFrom (.text (char.toNat :: units)) rest := by
  have hHigh : hexDigit? (Nat.digitChar (char.toNat / 16)) = some (char.toNat / 16) :=
    hexDigit?_digitChar (by omega)
  have hLow : hexDigit? (Nat.digitChar (char.toNat % 16)) = some (char.toNat % 16) :=
    hexDigit?_digitChar (by omega)
  have hZero : hexDigit? '0' = some 0 := rfl
  have hUnit : 16 * (char.toNat / 16) + char.toNat % 16 = char.toNat := Nat.div_add_mod _ _
  simp [controlEscape, scanFrom, step, hZero, hHigh, hLow, hUnit]

/-- A character is read from the way in which it is written. -/
theorem scanFrom_escapedChar (units : List Nat) (char : Char) (rest : List Char) :
    scanFrom (.text units) (escapedChar char ++ rest) =
      scanFrom (.text (char.toNat :: units)) rest := by
  by_cases hShort : char ∈ ['"', '\\', '\x08', '\x0c', '\n', '\r', '\t']
  · simp only [List.mem_cons, List.not_mem_nil, or_false] at hShort
    rcases hShort with rfl | rfl | rfl | rfl | rfl | rfl | rfl <;> rfl
  · simp only [List.mem_cons, List.not_mem_nil, or_false, not_or] at hShort
    obtain ⟨hQuote, hBackslash, hBack, hFeed, hLine, hReturn, hTab⟩ := hShort
    rw [escapedChar, if_neg hQuote, if_neg hBackslash, if_neg hBack, if_neg hFeed, if_neg hLine,
      if_neg hReturn, if_neg hTab]
    split
    · exact scanFrom_controlEscape units ‹_› rest
    · simp [scanFrom, step, *]

theorem scanFrom_escapedChars (units : List Nat) (chars rest : List Char) :
    scanFrom (.text units) (chars.flatMap escapedChar ++ rest) =
      scanFrom (.text ((chars.map Char.toNat).reverse ++ units)) rest := by
  induction chars generalizing units with
  | nil => rfl
  | cons char chars ih =>
    rw [List.flatMap_cons, List.append_assoc, scanFrom_escapedChar, ih, List.map_cons,
      List.reverse_cons, List.append_assoc, List.singleton_append]

/-- No character is half of a surrogate pair. -/
theorem not_isSurrogate (char : Char) :
    isHighSurrogate char.toNat = false ∧ isLowSurrogate char.toNat = false := by
  have hValid : char.toNat < 0xd800 ∨ 0xdfff < char.toNat ∧ char.toNat < 0x110000 := char.valid
  simp only [isHighSurrogate, isLowSurrogate, Bool.and_eq_false_iff, decide_eq_false_iff_not]
  omega

theorem charsOfUnits?_map_toNat (chars : List Char) :
    charsOfUnits? (chars.map Char.toNat) = some chars := by
  induction chars with
  | nil => rfl
  | cons char chars ih =>
    obtain ⟨hHigh, hLow⟩ := not_isSurrogate char
    cases chars with
    | nil => simp [charsOfUnits?, hHigh, hLow]
    | cons next chars =>
      rw [List.map_cons] at ih
      simp [charsOfUnits?, hHigh, hLow, ih]

/-- **A text is read from the way in which it is written.** -/
theorem scanFrom_quoted (content : String) (rest : List Char) :
    scanFrom .between (quotedChars content ++ rest) =
      text (some content) :: scanFrom .between rest := by
  have hStart : scanFrom .between (quotedChars content ++ rest) =
      scanFrom (.text []) (content.toList.flatMap escapedChar ++ '"' :: rest) := by
    rw [quotedChars, List.cons_append, List.append_assoc]
    rfl
  have hToken : ofUnits ((content.toList.map Char.toNat).reverse ++ []) = text (some content) := by
    rw [ofUnits, List.append_nil, List.reverse_reverse, charsOfUnits?_map_toNat, Option.map_some,
      String.ofList_toList]
  rw [hStart, scanFrom_escapedChars, ← hToken]
  rfl

/-! ## Integers -/

/-- What follows a value in a written text: nothing, a comma or a new line. -/
inductive Follows : List Char → Prop
  | nothing : Follows []
  | comma (rest : List Char) : Follows (',' :: rest)
  | newLine (rest : List Char) : Follows ('\n' :: rest)

theorem start_digit {char : Char} (hDigit : char.isDigit = true) (hZero : char ≠ '0') :
    start char = ([], .number .digits [char]) := by
  unfold start
  split <;> simp_all

theorem scanFrom_digits {digits : List Char} (hDigits : ∀ char ∈ digits, char.isDigit = true)
    (chars rest : List Char) :
    scanFrom (.number .digits chars) (digits ++ rest) =
      scanFrom (.number .digits (digits.reverse ++ chars)) rest := by
  induction digits generalizing chars with
  | nil => rfl
  | cons char digits ih =>
    obtain ⟨hDigit, hRest⟩ := List.forall_mem_cons.mp hDigits
    have hNext : NumberForm.digits.next? char = some .digits := by simp [NumberForm.next?, hDigit]
    rw [List.cons_append, scanFrom, step, hNext, List.reverse_cons, List.append_assoc]
    exact ih hRest _

/-- A number that may end does end where something follows that is no part of it. -/
theorem scanFrom_number {form : NumberForm} (hEnd : form.mayEnd = true) (chars : List Char)
    {rest : List Char} (hRest : Follows rest) :
    scanFrom (.number form chars) rest =
      number (integerOfChars? form chars) :: scanFrom .between rest := by
  cases hRest with
  | nothing => simp [scanFrom, finish, hEnd]
  | comma rest =>
    have hNext : form.next? ',' = none := by cases form <;> rfl
    simp [scanFrom, step, hNext, hEnd]
  | newLine rest =>
    have hNext : form.next? '\n' = none := by cases form <;> rfl
    simp [scanFrom, step, hNext, hEnd]

/-- The digits of a positive number start with another digit than zero. -/
theorem exists_toDigits_eq_cons {value : Nat} (hPos : 0 < value) :
    ∃ first digits, Nat.toDigits 10 value = first :: digits ∧ first ≠ '0' := by
  induction value using Nat.strongRecOn with
  | ind value ih =>
    by_cases hLt : value < 10
    · refine ⟨_, [], Nat.toDigits_of_lt_base hLt, ?_⟩
      rw [Ne, Nat.digitChar_eq_zero]
      omega
    · obtain ⟨first, digits, hDigits, hFirst⟩ := ih (value / 10) (by omega) (by omega)
      rw [Nat.toDigits_of_base_le (by omega) (by omega), hDigits]
      exact ⟨first, _, rfl, hFirst⟩

theorem scanFrom_cons {state next : State} {char : Char} (h : step state char = ([], next))
    (rest : List Char) : scanFrom state (char :: rest) = scanFrom next rest := by
  rw [scanFrom, h]
  rfl

/-- The digits of a positive number are read, whether after a minus sign or not. -/
theorem scanFrom_toDigits {value : Nat} (hPos : 0 < value) (sign : List Char) {state : State}
    {result : Int}
    (hStep : ∀ first, first.isDigit = true → first ≠ '0' →
      step state first = ([], .number .digits (first :: sign)))
    (hResult : ∀ first digits, first.isDigit = true →
      Nat.ofDigitChars 10 (first :: digits) 0 = value →
        integerOfChars? .digits (digits.reverse ++ first :: sign) = some result)
    {rest : List Char} (hRest : Follows rest) :
    scanFrom state (Nat.toDigits 10 value ++ rest) =
      number (some result) :: scanFrom .between rest := by
  have hAll : ∀ char ∈ Nat.toDigits 10 value, char.isDigit = true := fun char h =>
    Nat.isDigit_of_mem_toDigits (by omega) (by omega) h
  have hRead := Nat.ofDigitChars_ten_toDigits (n := value)
  obtain ⟨first, digits, hDigits, hZero⟩ := exists_toDigits_eq_cons hPos
  rw [hDigits] at hAll hRead
  obtain ⟨hFirst, hAll⟩ := List.forall_mem_cons.mp hAll
  rw [hDigits, List.cons_append, scanFrom_cons (hStep first hFirst hZero), scanFrom_digits hAll,
    scanFrom_number rfl _ hRest, hResult first digits hFirst hRead]

/-- **An integer is read from the way in which it is written.** -/
theorem scanFrom_integer (value : Int) {rest : List Char} (hRest : Follows rest) :
    scanFrom .between (Text.Decimal.writeInt value ++ rest) =
      number (some value) :: scanFrom .between rest := by
  match value with
  | .ofNat 0 => exact scanFrom_number rfl _ hRest
  | .ofNat (value + 1) =>
    refine scanFrom_toDigits value.succ_pos [] (fun _ => start_digit) ?_ hRest
    intro first digits hFirst hRead
    have hMinus : first ≠ '-' := by
      rintro rfl
      cases hFirst
    simp [integerOfChars?, hMinus, hRead]
  | .negSucc value =>
    rw [Text.Decimal.writeInt, List.cons_append, scanFrom_cons rfl]
    refine scanFrom_toDigits value.succ_pos ['-'] ?_ ?_ hRest
    · intro first hFirst hZero
      simp [step, NumberForm.next?, hFirst, hZero]
    · intro first digits _ hRead
      simp [integerOfChars?, hRead, Int.negSucc_eq]

end Token

namespace Document

open Token (Follows)

variable {state next : State} {frames : List Frame} {members : List (Option String × Document)}

/-! ## Whole values -/

/-- What the characters after a state are read as. -/
def ofCharsFrom (state : State) (chars : List Char) : Document × Bool :=
  ofTokensFrom state (Token.scanFrom .between chars)

theorem ofCharsFrom_of_scanFrom {token : Token} {chars rest : List Char}
    (hScan : Token.scanFrom .between chars = token :: Token.scanFrom .between rest)
    (hStep : step? state token = some next) : ofCharsFrom state chars = ofCharsFrom next rest := by
  rw [ofCharsFrom, hScan, ofTokensFrom, hStep]
  rfl

theorem ofCharsFrom_newLine (state : State) (depth : Nat) (rest : List Char) :
    ofCharsFrom state (newLine depth ++ rest) = ofCharsFrom state rest := by
  rw [ofCharsFrom, Token.scanFrom_newLine]
  rfl

theorem follows_newLine (depth : Nat) (rest : List Char) : Follows (newLine depth ++ rest) :=
  .newLine _

theorem follows_prettyItems (depth : Nat) (items : List Json) {rest : List Char}
    (hRest : Follows rest) : Follows (prettyItems depth items ++ rest) := by
  cases items with
  | nil => exact hRest
  | cons item items => exact .comma _

theorem follows_prettyMembers (depth : Nat) (members : List (String × Json)) {rest : List Char}
    (hRest : Follows rest) : Follows (prettyMembers depth members ++ rest) := by
  cases members with
  | nil => exact hRest
  | cons member members => exact .comma _

/-- A value may begin in a state, in the given frames. -/
def Begins (state : State) (frames : List Frame) : Prop :=
  ∀ token, token ≠ .closeArray → step? state token = beginValue? frames token

theorem begins_beforeValue (frames : List Frame) : Begins (.beforeValue frames) frames :=
  fun _ _ => rfl

theorem begins_beforeFirstItem (frames : List Frame) :
    Begins (.beforeFirstItem frames) (.array [] :: frames) := by
  intro token hToken
  cases token <;> first | rfl | exact absurd rfl hToken

mutual

/-- **A value is read from its text.** -/
theorem ofCharsFrom_value : ∀ (value : Json) (depth : Nat) {state : State} {frames : List Frame}
    {rest : List Char}, Begins state frames → Follows rest →
      ofCharsFrom state (prettyChars depth value ++ rest) =
        ofCharsFrom (put (ofJson value) frames) rest
  | .null, depth, state, frames, rest, hBegins, _ => by
    rw [prettyChars]
    exact ofCharsFrom_of_scanFrom rfl (hBegins .null nofun)
  | .boolean true, depth, state, frames, rest, hBegins, _ => by
    rw [prettyChars]
    exact ofCharsFrom_of_scanFrom rfl (hBegins (.boolean true) nofun)
  | .boolean false, depth, state, frames, rest, hBegins, _ => by
    rw [prettyChars]
    exact ofCharsFrom_of_scanFrom rfl (hBegins (.boolean false) nofun)
  | .integer value, depth, state, frames, rest, hBegins, hRest => by
    rw [prettyChars]
    exact ofCharsFrom_of_scanFrom (Token.scanFrom_integer value hRest)
      (hBegins (.number (some value)) nofun)
  | .text content, depth, state, frames, rest, hBegins, _ => by
    rw [prettyChars]
    exact ofCharsFrom_of_scanFrom (Token.scanFrom_quoted content rest)
      (hBegins (.text (some content)) nofun)
  | .array [], depth, state, frames, rest, hBegins, _ => by
    rw [prettyChars, List.cons_append, ofCharsFrom_of_scanFrom rfl (hBegins .openArray nofun)]
    exact ofCharsFrom_of_scanFrom rfl rfl
  | .array (item :: items), depth, state, frames, rest, hBegins, _ => by
    have hClose : Follows (newLine depth ++ ']' :: rest) := follows_newLine depth _
    have hItems := follows_prettyItems (depth + 1) items hClose
    rw [prettyChars, List.cons_append, ofCharsFrom_of_scanFrom rfl (hBegins .openArray nofun)]
    simp only [List.append_assoc, List.singleton_append]
    rw [ofCharsFrom_newLine, ofCharsFrom_value item _ (begins_beforeFirstItem frames) hItems, put,
      ofCharsFrom_items items _ _ _ hClose, ofCharsFrom_newLine]
    have hEnd : step? (.afterItem ((ofItems items).reverse ++ [ofJson item]) frames) .closeArray =
        some (put (ofJson (.array (item :: items))) frames) := by
      simp [step?, ofJson, ofItems]
    exact ofCharsFrom_of_scanFrom rfl hEnd
  | .object [], depth, state, frames, rest, hBegins, _ => by
    rw [prettyChars, List.cons_append, ofCharsFrom_of_scanFrom rfl (hBegins .openObject nofun)]
    exact ofCharsFrom_of_scanFrom rfl rfl
  | .object (member :: members), depth, state, frames, rest, hBegins, _ => by
    have hClose : Follows (newLine depth ++ '}' :: rest) := follows_newLine depth _
    have hMembers := follows_prettyMembers (depth + 1) members hClose
    rw [prettyChars, List.cons_append, ofCharsFrom_of_scanFrom rfl (hBegins .openObject nofun)]
    simp only [List.append_assoc, List.singleton_append]
    rw [ofCharsFrom_newLine, ofCharsFrom_member member _ (fun _ => rfl) hMembers,
      ofCharsFrom_members members _ _ _ hClose, ofCharsFrom_newLine]
    have hEnd : step? (.afterMember ((ofMembers members).reverse ++ [ofMember member]) frames)
        .closeObject = some (put (ofJson (.object (member :: members))) frames) := by
      simp [step?, ofJson, ofMembers]
    exact ofCharsFrom_of_scanFrom rfl hEnd

theorem ofCharsFrom_items : ∀ (items : List Json) (depth : Nat) (done : List Document)
    (frames : List Frame) {rest : List Char}, Follows rest →
      ofCharsFrom (.afterItem done frames) (prettyItems depth items ++ rest) =
        ofCharsFrom (.afterItem ((ofItems items).reverse ++ done) frames) rest
  | [], depth, done, frames, rest, _ => rfl
  | item :: items, depth, done, frames, rest, hRest => by
    have hItems := follows_prettyItems depth items hRest
    have hComma : step? (.afterItem done frames) .comma =
        some (.beforeValue (.array done :: frames)) := rfl
    rw [prettyItems, List.cons_append, ofCharsFrom_of_scanFrom rfl hComma, List.append_assoc,
      List.append_assoc, ofCharsFrom_newLine,
      ofCharsFrom_value item _ (begins_beforeValue _) hItems, put,
      ofCharsFrom_items items _ _ _ hRest, ofItems, List.reverse_cons, List.append_assoc,
      List.singleton_append]

theorem ofCharsFrom_members : ∀ (members : List (String × Json)) (depth : Nat)
    (done : List (Option String × Document)) (frames : List Frame) {rest : List Char},
    Follows rest → ofCharsFrom (.afterMember done frames) (prettyMembers depth members ++ rest) =
      ofCharsFrom (.afterMember ((ofMembers members).reverse ++ done) frames) rest
  | [], depth, done, frames, rest, _ => rfl
  | member :: members, depth, done, frames, rest, hRest => by
    have hMembers := follows_prettyMembers depth members hRest
    have hComma : step? (.afterMember done frames) .comma = some (.beforeName done frames) := rfl
    rw [prettyMembers, List.cons_append, ofCharsFrom_of_scanFrom rfl hComma, List.append_assoc,
      List.append_assoc, ofCharsFrom_newLine,
      ofCharsFrom_member member _ (fun _ => rfl) hMembers,
      ofCharsFrom_members members _ _ _ hRest, ofMembers, List.reverse_cons, List.append_assoc,
      List.singleton_append]

theorem ofCharsFrom_member : ∀ (member : String × Json) (depth : Nat) {state : State}
    {done : List (Option String × Document)} {frames : List Frame} {rest : List Char},
    (∀ name, step? state (.text name) = some (.afterName done name frames)) → Follows rest →
      ofCharsFrom state (prettyMember depth member ++ rest) =
        ofCharsFrom (.afterMember (ofMember member :: done) frames) rest
  | (name, value), depth, state, done, frames, rest, hBegins, hRest => by
    have hColon : step? (.afterName done (some name) frames) .colon =
        some (.beforeValue (.object done (some name) :: frames)) := rfl
    have hScan : Token.scanFrom .between (':' :: ' ' :: (prettyChars depth value ++ rest)) =
        .colon :: Token.scanFrom .between (prettyChars depth value ++ rest) := rfl
    rw [prettyMember, List.append_assoc,
      ofCharsFrom_of_scanFrom (Token.scanFrom_quoted name _) (hBegins (some name)),
      List.cons_append, List.cons_append, ofCharsFrom_of_scanFrom hScan hColon,
      ofCharsFrom_value value depth (begins_beforeValue _) hRest, put, ofMember]

end

/-- **The text of a value holds the value and nothing else.** -/
theorem ofText_pretty (value : Json) : ofText value.pretty = (ofJson value, true) := by
  have hRead := ofCharsFrom_value value 0 (begins_beforeValue []) .nothing
  rw [List.append_nil] at hRead
  rw [ofText, Token.scan, pretty, String.toList_ofList]
  exact hRead

end Document

end RuleBlocks.Json
