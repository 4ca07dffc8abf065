import Mathlib.Algebra.Order.Ring.Nat
import Mathlib.Tactic.Common
import Mathlib.Tactic.Ring

/-!
# Hexadecimal numerals

A reader that takes the digits in front of anything else. What it reads is the number of a
numeral, the longest one that the text starts with.
-/

namespace Hexadecimal

/-- The number of a digit, small or capital. -/
def value (c : UInt8) : Option ℕ :=
  if 48 ≤ c ∧ c ≤ 57 then some (c.toNat - 48)
  else if 97 ≤ c ∧ c ≤ 102 then some (c.toNat - 87)
  else if 65 ≤ c ∧ c ≤ 70 then some (c.toNat - 55)
  else none

/-- Read digits up to the first other symbol, behind those that made up `n`. -/
def read (n : ℕ) : List UInt8 → ℕ
  | [] => n
  | c :: rest => match value c with
    | some d => read (n * 16 + d) rest
    | none => n

/-- The text consists of digits, and these make up the number. -/
def Numeral : List UInt8 → ℕ → Prop
  | [], n => n = 0
  | c :: text, n => ∃ d m, value c = some d ∧ Numeral text m ∧ n = d * 16 ^ text.length + m

/-- The text does not start with a digit. -/
def Stops (text : List UInt8) : Prop := ∀ c ∈ text.head?, value c = none

/-- A digit is below 16. -/
theorem value_lt {c : UInt8} {d : ℕ} (h : value c = some d) : d < 16 := by
  unfold value at h
  simp only [UInt8.le_iff_toNat_le, UInt8.reduceToNat] at h
  split_ifs at h
  all_goals
    simp only [Option.some.injEq] at h
    omega

/-- There is one digit for zero. -/
theorem eq_of_value_zero {c : UInt8} (h : value c = some 0) : c = 48 := by
  unfold value at h
  simp only [UInt8.le_iff_toNat_le, UInt8.reduceToNat] at h
  apply UInt8.toNat_inj.mp
  simp only [UInt8.reduceToNat]
  split_ifs at h
  all_goals
    simp only [Option.some.injEq] at h
    omega

/-- All symbols of a numeral are digits. -/
theorem Numeral.value_ne_none {text : List UInt8} {n : ℕ} (h : Numeral text n) {c : UInt8}
    (hc : c ∈ text) : value c ≠ none := by
  induction text generalizing n with
  | nil => exact absurd hc List.not_mem_nil
  | cons b text ih =>
    obtain ⟨d, m, hvalue, hrest, _⟩ := h
    rcases List.mem_cons.mp hc with rfl | hc
    · rw [hvalue]
      exact Option.some_ne_none d
    · exact ih hrest hc

/-- A symbol that is no digit is in no numeral. -/
theorem Numeral.not_mem {text : List UInt8} {n : ℕ} (h : Numeral text n) {c : UInt8}
    (hc : value c = none) : c ∉ text := fun hmem => h.value_ne_none hmem hc

/-- A numeral bounds its number. -/
theorem Numeral.lt {text : List UInt8} {n : ℕ} (h : Numeral text n) : n < 16 ^ text.length := by
  induction text generalizing n with
  | nil =>
    have hzero : n = 0 := h
    simp [hzero]
  | cons c text ih =>
    obtain ⟨d, m, hvalue, hrest, rfl⟩ := h
    have hd := value_lt hvalue
    have hm := ih hrest
    have hpow : d * 16 ^ text.length ≤ 15 * 16 ^ text.length := Nat.mul_le_mul_right _ (by omega)
    rw [List.length_cons, pow_succ]
    omega

/-- Reading a numeral appends its digits to those read before. -/
theorem read_numeral {text : List UInt8} {n : ℕ} (h : Numeral text n) (m : ℕ)
    (rest : List UInt8) : read m (text ++ rest) = read (m * 16 ^ text.length + n) rest := by
  induction text generalizing n m with
  | nil =>
    have hzero : n = 0 := h
    simp [hzero]
  | cons c text ih =>
    obtain ⟨d, k, hvalue, hrest, rfl⟩ := h
    have hnumber : (m * 16 + d) * 16 ^ text.length + k =
        m * 16 ^ (text.length + 1) + (d * 16 ^ text.length + k) := by ring
    rw [List.cons_append, read, hvalue]
    simp only [ih hrest, hnumber, List.length_cons]

/-- Nothing is read where no digit stands. -/
theorem read_of_stops {rest : List UInt8} (h : Stops rest) (m : ℕ) : read m rest = m := by
  cases rest with
  | nil => rfl
  | cons c rest => rw [read, h c rfl]

/-- So a numeral in front of anything else is read as its number. -/
theorem read_eq {text rest : List UInt8} {n : ℕ} (h : Numeral text n) (hstops : Stops rest) :
    read 0 (text ++ rest) = n := by
  rw [read_numeral h, read_of_stops hstops, Nat.zero_mul, Nat.zero_add]

/-- Every text starts with a numeral, which may be empty, and which it does not go on. -/
theorem exists_numeral (text : List UInt8) :
    ∃ digits rest n, text = digits ++ rest ∧ Numeral digits n ∧ Stops rest := by
  induction text with
  | nil => exact ⟨[], [], 0, rfl, rfl, fun c hc => by cases hc⟩
  | cons c text ih =>
    cases hvalue : value c with
    | none =>
      refine ⟨[], c :: text, 0, rfl, rfl, fun b hb => ?_⟩
      rw [← Option.some.inj hb]
      exact hvalue
    | some d =>
      obtain ⟨digits, rest, n, rfl, hdigits, hstops⟩ := ih
      exact ⟨c :: digits, rest, _, rfl, ⟨d, n, hvalue, hdigits, rfl⟩, hstops⟩

/-- A text of digits is a numeral of what is read. -/
theorem numeral_read {text : List UInt8} (h : ∀ c ∈ text, value c ≠ none) :
    Numeral text (read 0 text) := by
  obtain ⟨digits, rest, n, rfl, hdigits, hstops⟩ := exists_numeral text
  rw [read_eq hdigits hstops]
  cases rest with
  | nil => rwa [List.append_nil]
  | cons c rest => exact absurd (hstops c rfl) (h c (by simp))

end Hexadecimal
