import Mathlib.Data.Nat.Digits.Defs
import Mathlib.Tactic.Common

/-!
# Numbers in 16-bit words

A number is stored in a fixed number of words, low word first, and numbers of one width
are stored one after the other. The lemmas here relate the two directions, and tell that
a block of words is the same as the list of its numbers.
-/

namespace Words

/-- The number that words denote, low word first. -/
def value (ws : List UInt16) : ℕ := Nat.ofDigits (2 ^ 16) (ws.map UInt16.toNat)

@[simp] theorem value_nil : value [] = 0 := rfl

@[simp] theorem value_cons (w : UInt16) (ws : List UInt16) :
    value (w :: ws) = w.toNat + 2 ^ 16 * value ws := by
  simp [value, Nat.ofDigits_cons]

/-- Words are digits in base `2 ^ 16`. -/
theorem digit_lt (ws : List UInt16) : ∀ d ∈ ws.map UInt16.toNat, d < 2 ^ 16 := by
  intro d hd
  obtain ⟨w, _, rfl⟩ := List.mem_map.mp hd
  exact w.toNat_lt

/-- A number is as wide as its words. -/
theorem value_lt (ws : List UInt16) : value ws < (2 ^ 16) ^ ws.length := by
  have hlt := Nat.ofDigits_lt_base_pow_length (by decide) (digit_lt ws)
  rwa [List.length_map] at hlt

/-- Equally many words are determined by the number that they denote. -/
theorem value_inj {ws ws' : List UInt16} (hlength : ws.length = ws'.length)
    (hvalue : value ws = value ws') : ws = ws' := by
  have hmaps : (ws.map UInt16.toNat).length = (ws'.map UInt16.toNat).length := by
    rw [List.length_map, List.length_map, hlength]
  have hdigits := Nat.ofDigits_inj_of_len_eq (by decide : 1 < 2 ^ 16) hmaps
    (digit_lt ws) (digit_lt ws') hvalue
  exact (List.map_inj_right fun _ _ h => UInt16.toNat_inj.mp h).mp hdigits

/-- The low `k` words of a number, low word first. -/
def split : ℕ → ℕ → List UInt16
  | 0, _ => []
  | k + 1, v => UInt16.ofNat v :: split k (v / 2 ^ 16)

@[simp] theorem length_split (k v : ℕ) : (split k v).length = k := by
  induction k generalizing v with
  | zero => rfl
  | succ k ih => rw [split, List.length_cons, ih]

/-- A number that fits in its words is found there again. -/
theorem value_split {k v : ℕ} (h : v < (2 ^ 16) ^ k) : value (split k v) = v := by
  induction k generalizing v with
  | zero =>
    rw [pow_zero] at h
    rw [split, value_nil]
    omega
  | succ k ih =>
    have hhigh : v / 2 ^ 16 < (2 ^ 16) ^ k := by
      rw [pow_succ] at h
      exact Nat.div_lt_of_lt_mul (by omega)
    rw [split, value_cons, ih hhigh, UInt16.toNat_ofNat']
    exact Nat.mod_add_div v (2 ^ 16)

/-- The word at a place of a block, which is 0 behind its end. -/
def word (l : List UInt16) (k : ℕ) : ℕ := (l[k]?.getD 0).toNat

theorem word_of_lt {l : List UInt16} {k : ℕ} (h : k < l.length) : word l k = l[k].toNat := by
  rw [word, List.getElem?_eq_getElem h, Option.getD_some]

theorem word_lt (l : List UInt16) (k : ℕ) : word l k < 2 ^ 16 := (l[k]?.getD 0).toNat_lt

/-- Two's complement reading of a number of `k` bits. -/
def twosComplement (k : ℕ) (v : ℤ) : ℤ := if v < 2 ^ (k - 1) then v else v - 2 ^ k

/-- Wrapping a number of `k` bits reads it in two's complement. -/
theorem bmod_eq_twosComplement {k : ℕ} (hk : 0 < k) {v : ℤ} (hnonneg : 0 ≤ v) (hlt : v < 2 ^ k) :
    Int.bmod v (2 ^ k) = twosComplement k v := by
  have hdouble : (2 : ℤ) ^ k = 2 * 2 ^ (k - 1) := by
    rw [← pow_succ', Nat.sub_add_cancel hk]
  have hmod : v % ((2 ^ k : ℕ) : ℤ) = v := by
    push_cast
    exact Int.emod_eq_of_lt hnonneg hlt
  rw [Int.bmod_def, hmod, twosComplement]
  push_cast
  rw [hdouble] at hlt ⊢
  generalize (2 : ℤ) ^ (k - 1) = half at hlt ⊢
  split <;> split <;> omega

/-- Numbers below the modulus are told apart when they are wrapped. -/
theorem eq_of_bmod_eq {m v v' : ℕ} (hv : v < m) (hv' : v' < m)
    (h : Int.bmod v m = Int.bmod v' m) : v = v' := by
  have hmod := congrArg (fun x => x % (m : ℤ)) h
  simp only [Int.bmod_emod] at hmod
  rw [Int.emod_eq_of_lt (by omega) (by omega), Int.emod_eq_of_lt (by omega) (by omega)] at hmod
  omega

/-! ## Blocks -/

variable {α β : Type*}

/-- The `i`-th group of `w` elements. -/
def chunk (w i : ℕ) (l : List α) : List α := (l.drop (i * w)).take w

/-- An element of a group. -/
theorem getElem?_chunk {w i k : ℕ} (h : k < w) (l : List α) :
    (chunk w i l)[k]? = l[i * w + k]? := by
  rw [chunk, List.getElem?_take_of_lt h, List.getElem?_drop]

/-- A group within the list is a whole one. -/
theorem length_chunk {w i : ℕ} {l : List α} (h : i * w + w ≤ l.length) :
    (chunk w i l).length = w := by
  rw [chunk, List.length_take, List.length_drop]
  omega

/-- The groups of a beginning. -/
theorem chunk_append {w i : ℕ} {l : List α} (h : i * w + w ≤ l.length) (rest : List α) :
    chunk w i (l ++ rest) = chunk w i l := by
  have hdrop : w ≤ (l.drop (i * w)).length := by
    rw [List.length_drop]
    omega
  rw [chunk, List.drop_append_of_le_length (by omega), List.take_append_of_le_length hdrop, chunk]

/-- The number in a group of one word. -/
theorem value_chunk_one {l : List UInt16} {i : ℕ} (h : i < l.length) :
    value (chunk 1 i l) = word l i := by
  rw [chunk, Nat.mul_one, List.drop_eq_getElem_cons h, List.take_succ_cons, List.take_zero,
    value_cons, value_nil, word_of_lt h]
  omega

/-- The number in a group of two words. -/
theorem value_chunk_two {l : List UInt16} {i : ℕ} (h : 2 * i + 1 < l.length) :
    value (chunk 2 i l) = word l (2 * i) + 2 ^ 16 * word l (2 * i + 1) := by
  have hlow : 2 * i < l.length := by omega
  rw [chunk, Nat.mul_comm, List.drop_eq_getElem_cons hlow, List.take_succ_cons,
    List.drop_eq_getElem_cons h, List.take_succ_cons, List.take_zero, value_cons, value_cons,
    value_nil, word_of_lt hlow, word_of_lt h]
  omega

/-- Lists of whole groups are the same if their groups are. -/
theorem eq_of_chunks {w n : ℕ} {l l' : List α} (hl : l.length = w * n) (hl' : l'.length = w * n)
    (h : ∀ i < n, chunk w i l = chunk w i l') : l = l' := by
  apply List.ext_getElem?
  intro k
  rcases Nat.lt_or_ge k (w * n) with hk | hk
  · have hw : 0 < w := Nat.pos_of_mul_pos_right (Nat.zero_lt_of_lt hk)
    have hi : k / w < n := Nat.div_lt_of_lt_mul hk
    have hindex : k / w * w + k % w = k := Nat.div_add_mod' k w
    have hget := congrArg (fun group => group[k % w]?) (h (k / w) hi)
    simpa only [getElem?_chunk (Nat.mod_lt k hw), hindex] using hget
  · rw [List.getElem?_eq_none (by omega), List.getElem?_eq_none (by omega)]

/-- The groups of a block are its elements, each written out. -/
theorem chunk_flatMap {w i : ℕ} {f : α → List β} (hf : ∀ a, (f a).length = w) {l : List α} {a : α}
    (h : l[i]? = some a) (rest : List β) : chunk w i (l.flatMap f ++ rest) = f a := by
  induction l generalizing i with
  | nil => cases h
  | cons b l ih =>
    rcases i with _ | i
    · obtain rfl : b = a := Option.some.inj h
      rw [chunk, Nat.zero_mul, List.drop_zero, List.flatMap_cons, List.append_assoc]
      exact List.take_left' (hf b)
    · have hskip : (i + 1) * w = (f b).length + i * w := by rw [hf, Nat.succ_mul, Nat.add_comm]
      rw [chunk, List.flatMap_cons, List.append_assoc, hskip, ← List.drop_drop, List.drop_left]
      exact ih h

end Words
