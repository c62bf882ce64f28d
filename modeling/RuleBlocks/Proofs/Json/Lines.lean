import Mathlib.Data.List.Chain
import RuleBlocks.Json.Value
import RuleBlocks.Proofs.Text

/-!
# The lines of written JSON values

A JSON value is written in lines, none of which is empty (`fullLines_prettyChars`): every line break
that is written is followed by an item, a member or a closing bracket, and a line break in a text is
written as an escape.
-/

namespace RuleBlocks.Json

/-- A text in lines, none of which is empty. -/
structure FullLines (chars : List Char) : Prop where
  apart : chars.IsChain fun before after => before = '\n' → after ≠ '\n'
  first : ∀ char ∈ chars.head?, char ≠ '\n'
  last : ∀ char ∈ chars.getLast?, char ≠ '\n'
  nonempty : chars ≠ []

variable {before after : List Char}

/-- A text in a single line. -/
theorem fullLines_of_forall_ne {chars : List Char} (hNil : chars ≠ [])
    (hLine : ∀ char ∈ chars, char ≠ '\n') : FullLines chars where
  apart := by
    refine List.Pairwise.isChain (List.pairwise_of_forall_mem_list ?_)
    exact fun _ _ other hOther _ => hLine other hOther
  first char hFirst := hLine char (List.mem_of_mem_head? hFirst)
  last char hLast := hLine char (List.mem_of_getLast? hLast)
  nonempty := hNil

theorem FullLines.append (hBefore : FullLines before) (hAfter : FullLines after) :
    FullLines (before ++ after) where
  apart := hBefore.apart.append hAfter.apart fun _ _ next hNext _ => hAfter.first next hNext
  first char hFirst := by
    rw [List.head?_append_of_ne_nil _ hBefore.nonempty] at hFirst
    exact hBefore.first char hFirst
  last char hLast := by
    rw [List.getLast?_append_of_ne_nil _ hAfter.nonempty] at hLast
    exact hAfter.last char hLast
  nonempty := List.append_ne_nil_of_left_ne_nil hBefore.nonempty _

/-- A text goes on in a new line. -/
theorem FullLines.newLine (hBefore : FullLines before) (hAfter : FullLines after) (depth : Nat) :
    FullLines (before ++ newLine depth ++ after) := by
  have hIndented : FullLines (List.replicate (2 * depth) ' ' ++ after) := by
    cases depth with
    | zero => exact hAfter
    | succ depth =>
      refine (fullLines_of_forall_ne (by simp) fun char hMem => ?_).append hAfter
      rw [List.eq_of_mem_replicate hMem]
      decide
  have hSplit : before ++ Json.newLine depth ++ after =
      before ++ '\n' :: (List.replicate (2 * depth) ' ' ++ after) := by simp [Json.newLine]
  rw [hSplit]
  refine ⟨?_, fun char hFirst => ?_, fun char hLast => ?_, by simp⟩
  · refine hBefore.apart.append (hIndented.apart.cons fun next hNext _ => ?_) ?_
    · exact hIndented.first next hNext
    · exact fun previous hPrevious _ _ hBreak => absurd hBreak (hBefore.last previous hPrevious)
  · rw [List.head?_append_of_ne_nil _ hBefore.nonempty] at hFirst
    exact hBefore.first char hFirst
  · rw [List.getLast?_append_of_ne_nil _ (List.cons_ne_nil _ _),
      List.getLast?_cons_of_ne_nil hIndented.nonempty] at hLast
    exact hIndented.last char hLast

/-! ## Values -/

theorem ne_of_mem_controlEscape {char other : Char} (hControl : char.toNat < 0x20)
    (h : other ∈ controlEscape char) : other ≠ '\n' := by
  have hDigit : ∀ digit < 16, Nat.digitChar digit ≠ '\n' := by decide
  have hHigh := hDigit (char.toNat / 16) (by omega)
  have hLow := hDigit (char.toNat % 16) (by omega)
  have hAll : ∀ other ∈ controlEscape char, other ≠ '\n' := by simp [controlEscape, hHigh, hLow]
  exact hAll other h

theorem ne_of_mem_escapedChar {char other : Char} (h : other ∈ escapedChar char) :
    other ≠ '\n' := by
  unfold escapedChar at h
  split_ifs at h with hQuote hSlash hBack hFeed hBreak hReturn hTab hControl
  on_goal 8 => exact ne_of_mem_controlEscape hControl h
  on_goal 8 =>
    rw [List.mem_singleton.mp h]
    exact hBreak
  all_goals
    rw [List.mem_cons, List.mem_singleton] at h
    rcases h with rfl | rfl <;> decide

theorem fullLines_quotedChars (text : String) : FullLines (quotedChars text) := by
  refine fullLines_of_forall_ne (List.cons_ne_nil _ _) fun char hMem => ?_
  rw [quotedChars, List.mem_cons, List.mem_append, List.mem_flatMap, List.mem_singleton] at hMem
  rcases hMem with rfl | ⟨content, -, hContent⟩ | rfl
  · decide
  · exact ne_of_mem_escapedChar hContent
  · decide

theorem fullLines_writeInt (value : Int) : FullLines (Text.Decimal.writeInt value) := by
  refine fullLines_of_forall_ne ?_ fun char hMem hBreak => ?_
  · cases value with
    | ofNat value => exact Nat.toDigits_ne_nil
    | negSucc value => exact List.cons_ne_nil _ _
  · have hBlank := Text.Decimal.isBlank_of_mem_writeInt hMem
    rw [hBreak] at hBlank
    exact absurd hBlank (by decide)

theorem fullLines_singleton {char : Char} (h : char ≠ '\n') : FullLines [char] :=
  fullLines_of_forall_ne (List.cons_ne_nil _ _) fun other hMem => by
    rwa [List.mem_singleton.mp hMem]

mutual

theorem fullLines_prettyChars : ∀ (value : Json) (depth : Nat), FullLines (prettyChars depth value)
  | .null, depth => by
    rw [prettyChars]
    exact fullLines_of_forall_ne (by simp) (by simp)
  | .boolean true, depth => by
    rw [prettyChars]
    exact fullLines_of_forall_ne (by simp) (by simp)
  | .boolean false, depth => by
    rw [prettyChars]
    exact fullLines_of_forall_ne (by simp) (by simp)
  | .integer value, depth => by
    rw [prettyChars]
    exact fullLines_writeInt value
  | .text value, depth => by
    rw [prettyChars]
    exact fullLines_quotedChars value
  | .array [], depth => by
    rw [prettyChars]
    exact fullLines_of_forall_ne (by simp) (by simp)
  | .array (item :: items), depth => by
    have hOpen : FullLines ['['] := fullLines_singleton (by decide)
    have hItems := fullLines_append_prettyItems items (depth + 1)
      (hOpen.newLine (fullLines_prettyChars item (depth + 1)) (depth + 1))
    have hClosed := hItems.newLine (fullLines_singleton (show ']' ≠ '\n' by decide)) depth
    rw [prettyChars]
    simpa using hClosed
  | .object [], depth => by
    rw [prettyChars]
    exact fullLines_of_forall_ne (by simp) (by simp)
  | .object (member :: members), depth => by
    have hOpen : FullLines ['{'] := fullLines_singleton (by decide)
    have hMembers := fullLines_append_prettyMembers members (depth + 1)
      (hOpen.newLine (fullLines_prettyMember member (depth + 1)) (depth + 1))
    have hClosed := hMembers.newLine (fullLines_singleton (show '}' ≠ '\n' by decide)) depth
    rw [prettyChars]
    simpa using hClosed

theorem fullLines_append_prettyItems : ∀ (items : List Json) (depth : Nat) {before : List Char},
    FullLines before → FullLines (before ++ prettyItems depth items)
  | [], depth, before, hBefore => by
    rwa [prettyItems, List.append_nil]
  | item :: items, depth, before, hBefore => by
    have hComma := hBefore.append (fullLines_singleton (show ',' ≠ '\n' by decide))
    have hItems := fullLines_append_prettyItems items depth
      (hComma.newLine (fullLines_prettyChars item depth) depth)
    rw [prettyItems]
    simpa using hItems

theorem fullLines_append_prettyMembers : ∀ (members : List (String × Json)) (depth : Nat)
    {before : List Char}, FullLines before → FullLines (before ++ prettyMembers depth members)
  | [], depth, before, hBefore => by
    rwa [prettyMembers, List.append_nil]
  | member :: members, depth, before, hBefore => by
    have hComma := hBefore.append (fullLines_singleton (show ',' ≠ '\n' by decide))
    have hMembers := fullLines_append_prettyMembers members depth
      (hComma.newLine (fullLines_prettyMember member depth) depth)
    rw [prettyMembers]
    simpa using hMembers

theorem fullLines_prettyMember : ∀ (member : String × Json) (depth : Nat),
    FullLines (prettyMember depth member)
  | (name, value), depth => by
    have hColon : FullLines [':', ' '] := fullLines_of_forall_ne (by simp) (by simp)
    have hMember := ((fullLines_quotedChars name).append hColon).append
      (fullLines_prettyChars value depth)
    rw [prettyMember]
    simpa using hMember

end

end RuleBlocks.Json
