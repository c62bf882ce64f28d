/-!
# Decimal integers

How integers of 32 bits are written and read in decimal. They are written with the fewest digits
and a sign only where they are negative. Reading also takes a plus sign and leading zeros, and
refuses everything that is not in range.

The main statement is that what is written is read back: `readWord?_writeWord`.
-/

namespace RuleBlocks.Text.Decimal

/-- The digits of an integer, after a minus sign if it is negative. -/
def writeInt : Int → List Char
  | .ofNat n => Nat.toDigits 10 n
  | .negSucc n => '-' :: Nat.toDigits 10 (n + 1)

/-- The number that a non-empty list of digits stands for. -/
def readNat? (digits : List Char) : Option Nat :=
  if digits ≠ [] ∧ digits.all Char.isDigit then some (Nat.ofDigitChars 10 digits 0) else none

/-- The integer that digits after an optional sign stand for. -/
def readInt? : List Char → Option Int
  | '-' :: digits => (readNat? digits).map fun n => -(n : Int)
  | '+' :: digits => (readNat? digits).map fun n => (n : Int)
  | digits => (readNat? digits).map fun n => (n : Int)

/-- The word of 32 bits that has the value of an integer. -/
def word? (value : Int) : Option Int32 :=
  if -2147483648 ≤ value ∧ value < 2147483648 then some (Int32.ofInt value) else none

/-- The text of a word. -/
def writeWord (word : Int32) : String := String.ofList (writeInt word.toInt)

/-- The word that a text stands for. -/
def readWord? (text : String) : Option Int32 := (readInt? text.toList).bind word?

theorem readNat?_toDigits (n : Nat) : readNat? (Nat.toDigits 10 n) = some n := by
  have hDigits : (Nat.toDigits 10 n).all Char.isDigit = true :=
    List.all_eq_true.mpr fun char h => Nat.isDigit_of_mem_toDigits (by omega) (by omega) h
  rw [readNat?, if_pos ⟨Nat.toDigits_ne_nil, hDigits⟩, Nat.ofDigitChars_ten_toDigits]

theorem readInt?_writeInt (value : Int) : readInt? (writeInt value) = some value := by
  cases value with
  | negSucc n => simp [writeInt, readInt?, readNat?_toDigits]; omega
  | ofNat n =>
    have hRead := readNat?_toDigits n
    have hDigits : ∀ char ∈ Nat.toDigits 10 n, char.isDigit = true := fun char h =>
      Nat.isDigit_of_mem_toDigits (by omega) (by omega) h
    rw [writeInt, readInt?, hRead]
    · rfl
    · rintro digits hEq
      exact absurd (hDigits '-' (by simp [hEq])) (by decide)
    · rintro digits hEq
      exact absurd (hDigits '+' (by simp [hEq])) (by decide)

theorem word?_toInt (word : Int32) : word? word.toInt = some word := by
  have hLe := word.le_toInt
  have hLt := word.toInt_lt
  rw [word?, if_pos ⟨by omega, by omega⟩, Int32.ofInt_toInt]

theorem readWord?_writeWord (word : Int32) : readWord? (writeWord word) = some word := by
  simp [readWord?, writeWord, readInt?_writeInt, word?_toInt]

end RuleBlocks.Text.Decimal
