import RuleBlocks.Program.Category
import RuleBlocks.Text.Blank
import RuleBlocks.Text.Decimal

/-!
# Texts without blanks

A text without blank characters is left alone by trimming. Decimal numbers and the tags of
categories are such texts.
-/

namespace RuleBlocks.Text

theorem trimEnd_of_not_isBlank {chars : List Char} (h : ∀ char ∈ chars, isBlank char = false) :
    trimEnd chars = chars := by
  induction chars with
  | nil => rfl
  | cons char rest ih =>
    have hFirst : isBlank char = false := h char List.mem_cons_self
    rw [trimEnd, ih fun other hMem => h other (List.mem_cons_of_mem _ hMem)]
    cases rest with
    | nil => simp [hFirst]
    | cons second rest => rfl

theorem trim_of_not_isBlank {text : String} (h : ∀ char ∈ text.toList, isBlank char = false) :
    trim text = text := by
  have hStart : text.toList.dropWhile isBlank = text.toList := by
    cases hChars : text.toList with
    | nil => rfl
    | cons char rest =>
      rw [List.dropWhile_cons_of_neg]
      simp [h char (hChars ▸ List.mem_cons_self)]
  rw [trim, hStart, trimEnd_of_not_isBlank h, String.ofList_toList]

theorem isBlank_of_isDigit {char : Char} (h : char.isDigit = true) : isBlank char = false := by
  have hRange : 48 ≤ char.toNat ∧ char.toNat ≤ 57 := by
    simpa [Char.isDigit, UInt32.le_iff_toNat_le] using h
  simp only [isBlank, blankRanges, List.any_cons, List.any_nil, Bool.or_false, Bool.or_eq_false_iff,
    Bool.and_eq_false_iff, decide_eq_false_iff_not]
  omega

namespace Decimal

theorem isBlank_of_mem_writeInt {value : Int} {char : Char} (h : char ∈ writeInt value) :
    isBlank char = false := by
  have hDigits : ∀ n, char ∈ Nat.toDigits 10 n → isBlank char = false := fun n hMem =>
    isBlank_of_isDigit (Nat.isDigit_of_mem_toDigits (by omega) (by omega) hMem)
  cases value with
  | ofNat n => exact hDigits n h
  | negSucc n =>
    rcases List.mem_cons.mp h with rfl | hMem
    · decide
    · exact hDigits _ hMem

@[simp] theorem trim_writeWord (word : Int32) : trim (writeWord word) = writeWord word := by
  refine trim_of_not_isBlank fun char hMem => ?_
  rw [writeWord, String.toList_ofList] at hMem
  exact isBlank_of_mem_writeInt hMem

theorem writeWord_ne_empty (word : Int32) : writeWord word ≠ "" := by
  intro hEmpty
  have hRead := readWord?_writeWord word
  rw [hEmpty] at hRead
  exact absurd hRead (by simp [readWord?, readInt?, readNat?])

end Decimal

end RuleBlocks.Text

namespace RuleBlocks

theorem Category.trim_tag (category : Category) : Text.trim category.tag = category.tag := by
  have hBlank : category.tag.toList.any Text.isBlank = false := by cases category <;> decide
  exact Text.trim_of_not_isBlank fun char hMem => by
    simpa using List.any_eq_false.mp hBlank char hMem

end RuleBlocks
