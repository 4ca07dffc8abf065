import Mathlib.Data.Int.Basic
import Mathlib.Tactic.Common

/-!
# Decimal numerals

Reading a decimal numeral, and that printing an integer and reading it back gives the
integer.
-/

namespace Decimal

/-- The value of a non-empty string of digits. -/
def readNat (digits : List Char) : Option ℕ :=
  if digits ≠ [] ∧ digits.all Char.isDigit then some (Nat.ofDigitChars 10 digits 0) else none

/-- The value of a string of digits, perhaps after a minus sign. -/
def read : List Char → Option ℤ
  | '-' :: digits => (readNat digits).map fun n : ℕ => -(n : ℤ)
  | digits => (readNat digits).map fun n : ℕ => (n : ℤ)

/-- A character of a decimal numeral. -/
def IsNumeral (c : Char) : Prop := c = '-' ∨ c.isDigit

/-- A natural number is printed with digits. -/
theorem isDigit_of_mem_repr {n : ℕ} {c : Char} (h : c ∈ n.repr.toList) : c.isDigit := by
  rw [Nat.toList_repr] at h
  exact Nat.isDigit_of_mem_toDigits (b := 10) (by decide) (by decide) h

/-- Printing a natural number gives digits, and reading them gives the number. -/
theorem readNat_repr (n : ℕ) : readNat n.repr.toList = some n := by
  rw [Nat.toList_repr, readNat, if_pos, Nat.ofDigitChars_ten_toDigits]
  refine ⟨Nat.toDigits_ne_nil, List.all_eq_true.mpr fun c hc => ?_⟩
  exact isDigit_of_mem_repr (by rwa [Nat.toList_repr])

/-- Digits do not start with a minus sign. -/
theorem read_repr (n : ℕ) : read n.repr.toList = some (n : ℤ) := by
  have hread := readNat_repr n
  unfold read
  split
  · rename_i digits hminus
    have hmem : '-' ∈ n.repr.toList := by
      rw [hminus]
      exact List.mem_cons_self
    exact absurd (isDigit_of_mem_repr hmem) (by decide)
  · rw [hread]
    rfl

/-- Printing an integer and reading it back gives the integer. -/
theorem read_toString (v : ℤ) : read (toString v).toList = some v := by
  rw [Int.toString_eq_repr, Int.repr_eq_if]
  split
  · rw [read_repr, Int.toNat_of_nonneg ‹_›]
  · have hminus : ("-" ++ (-v).toNat.repr).toList = '-' :: (-v).toNat.repr.toList := by
      simp
    rw [hminus]
    simp only [read, readNat_repr, Option.map_some, Option.some.injEq]
    omega

/-- An integer is printed with digits and a minus sign. -/
theorem isNumeral_of_mem_toString {v : ℤ} {c : Char} (h : c ∈ (toString v).toList) :
    IsNumeral c := by
  rw [Int.toString_eq_repr, Int.repr_eq_if] at h
  split at h
  · exact .inr (isDigit_of_mem_repr h)
  · simp only [String.toList_append, List.mem_append] at h
    rcases h with hminus | hrest
    · exact .inl (by simpa using hminus)
    · exact .inr (isDigit_of_mem_repr hrest)

/-- An integer is printed with at least one character. -/
theorem toString_ne_nil (v : ℤ) : (toString v).toList ≠ [] := by
  intro h
  have hread := read_toString v
  rw [h] at hread
  cases hread

/-- The characters of a numeral are ASCII characters other than NUL. -/
theorem IsNumeral.ascii {c : Char} (h : IsNumeral c) : 0 < c.toNat ∧ c.toNat < 128 := by
  rcases h with rfl | h
  · decide
  · simp only [Char.isDigit, Bool.and_eq_true, decide_eq_true_eq] at h
    have hlow : 48 ≤ c.toNat := h.1
    have hhigh : c.toNat ≤ 57 := h.2
    omega

end Decimal
