import PyModules.Runtime
import PyModules.Library.Overlap

/-!
# The string search of the LTE module

`KMP_GetNext` and `KMP_Match` of `me909s.c`, with every array access checked and
every loop bounded by a counter; `none` stands for an access out of bounds or an
exhausted counter. A C string is the list of its bytes, and the byte after the
last is its NUL. The search is shown to be total on the patterns the module uses
and to return the first occurrence inside the received length.
-/

namespace PyModules.Lte

open Overlap

/-- `MAX_RECV_BUF_SIZE` -/
def maxRecvBufSize : ℕ := 256

/-- `des[k]` of a C string: its bytes, then its NUL, then nothing. -/
def charAt (des : List UInt8) (k : ℕ) : Option UInt8 := (des ++ [0])[k]?

/-- `next[j] = k` -/
def store (next : List ℕ) (j k : ℕ) : Option (List ℕ) :=
  if j < next.length then some (next.set j k) else none

/-- `while ((k > 0) && (c != des[k])) k = next[k - 1];`, the loop both functions
run, for at most `fuel` tests of its condition. -/
def fallBack (des : List UInt8) (next : List ℕ) (c : UInt8) : ℕ → ℕ → Option ℕ
  | 0, _ => none
  | fuel + 1, k => do
    if 0 < k then
      let d ← charAt des k
      if c ≠ d then
        let k' ← next[k - 1]?
        fallBack des next c fuel k'
      else return k
    else return k

/-- The `for` loop of `KMP_GetNext` from index `j` on, `todo` iterations. -/
def kmpGetNextFrom (des : List UInt8) : ℕ → ℕ → ℕ → List ℕ → Option (List ℕ)
  | 0, _, _, next => some next
  | todo + 1, j, k, next => do
    let c ← charAt des j
    let k ← fallBack des next c (k + 1) k
    let d ← charAt des k
    let k := if c = d then k + 1 else k
    let next ← store next j k
    kmpGetNextFrom des todo (j + 1) k next

/-- `KMP_GetNext(des, next)` -/
def kmpGetNext (des : List UInt8) (next : List ℕ) : Option (List ℕ) := do
  let next ← store next 0 0
  kmpGetNextFrom des (des.length - 1) 1 0 next

/-- The `for` loop of `KMP_Match` from index `i` on, `todo` iterations. -/
def kmpMatchFrom (src des : List UInt8) (next : List ℕ) : ℕ → ℕ → ℕ → Option ℤ
  | 0, _, _ => some (-1)
  | todo + 1, i, j => do
    let c ← src[i]?
    let j ← fallBack des next c (j + 1) j
    let d ← charAt des j
    let j := if c = d then j + 1 else j
    if j = des.length then return (i : ℤ) - des.length + 1
    else kmpMatchFrom src des next todo (i + 1) j

/-- `KMP_Match(src, des, len)` -/
def kmpMatch (src des : List UInt8) (len : ℤ) : Option ℤ := do
  let next ← kmpGetNext des (List.replicate maxRecvBufSize 0)
  kmpMatchFrom src des next len.toNat 0 0

/-! ## The failure links -/

/-- The first `m` entries of `next` are the greatest proper overlaps of the
pattern's beginnings with themselves. -/
def LinksUpTo (des : List UInt8) (next : List ℕ) (m : ℕ) : Prop :=
  ∀ i < m, ∃ k, next[i]? = some k ∧ IsLongest des (des.take (i + 1)).tail k

/-- Inside the pattern, `des[k]` is the pattern's byte. -/
theorem charAt_of_lt {des : List UInt8} {k : ℕ} (h : k < des.length) :
    charAt des k = some des[k] := by
  simp [charAt, List.getElem?_append_left, h]

/-- The comparison `c == des[k]` asks whether the pattern continues with `c`. -/
theorem getElem?_eq_some_iff_eq {des : List UInt8} {k : ℕ} {c : UInt8} (h : k < des.length) :
    des[k]? = some c ↔ c = des[k] := by
  rw [List.getElem?_eq_getElem h, Option.some.injEq]
  exact eq_comm

/-- The `while` loop ends within its counter, and leaves a candidate that covers
the symbol read: extended by it, or empty. Each turn follows a failure link, which
is shorter than the candidate it replaces. -/
theorem fallBack_covers {des : List UInt8} {next : List ℕ} {t : List UInt8} {c : UInt8} {m : ℕ}
    (hlinks : LinksUpTo des next m) {fuel k : ℕ} (hfuel : k < fuel) (hkm : k ≤ m)
    (hk : k < des.length) (hcov : Covers des t c k) :
    ∃ k', fallBack des next c fuel k = some k' ∧ k' ≤ k ∧ Covers des t c k' ∧
      (k' = 0 ∨ des[k']? = some c) := by
  induction fuel generalizing k with
  | zero => omega
  | succ fuel ih =>
    by_cases hpos : 0 < k
    · by_cases hc : c = des[k]
      · refine ⟨k, ?_, le_rfl, hcov, Or.inr ((getElem?_eq_some_iff_eq hk).mpr hc)⟩
        simp [fallBack, charAt_of_lt hk, hpos, hc]
      · obtain ⟨link, hlink, hlongest⟩ := hlinks (k - 1) (by omega)
        rw [Nat.sub_add_cancel hpos] at hlongest
        have hlt : link < k := hlongest.overlaps.lt_of_tail hpos
        have hfall : Covers des t c link :=
          hcov.fall hpos (fun h => hc ((getElem?_eq_some_iff_eq hk).mp h)) hlongest
        obtain ⟨k', hrun, hle, hcov', hend⟩ := ih (by omega) (by omega) (by omega) hfall
        refine ⟨k', ?_, by omega, hcov', hend⟩
        simpa [fallBack, charAt_of_lt hk, hpos, hc, hlink] using hrun
    · have hk0 : k = 0 := by omega
      subst hk0
      exact ⟨0, by simp [fallBack], le_rfl, hcov, Or.inl rfl⟩

/-- One iteration of either `for` loop: from the greatest overlap with the text
read so far, the `while` loop and the comparison after it give the greatest
overlap with the text and one more symbol. -/
theorem advance_isLongest {des : List UInt8} {next : List ℕ} {t : List UInt8} {m : ℕ}
    (hlinks : LinksUpTo des next m) {k : ℕ} (hkm : k ≤ m) (hk : k < des.length)
    (hlong : IsLongest des t k) (c : UInt8) :
    ∃ k' d, fallBack des next c (k + 1) k = some k' ∧ k' ≤ k ∧ charAt des k' = some d ∧
      IsLongest des (t ++ [c]) (if c = d then k' + 1 else k') := by
  obtain ⟨k', hrun, hle, hcov, hend⟩ :=
    fallBack_covers hlinks (Nat.lt_succ_self k) hkm hk (hlong.covers c)
  have hk' : k' < des.length := by omega
  refine ⟨k', des[k'], hrun, hle, charAt_of_lt hk', ?_⟩
  by_cases hc : c = des[k']
  · rw [if_pos hc]
    exact hcov.isLongest_succ ((getElem?_eq_some_iff_eq hk').mpr hc)
  · have hne : des[k']? ≠ some c := fun h => hc ((getElem?_eq_some_iff_eq hk').mp h)
    rw [if_neg hc]
    have hzero : k' = 0 := hend.resolve_right hne
    subst hzero
    exact hcov.isLongest_zero hne

/-- Storing the next link keeps the earlier ones. -/
theorem LinksUpTo.set {des : List UInt8} {next : List ℕ} {m k : ℕ} (h : LinksUpTo des next m)
    (hm : m < next.length) (hk : IsLongest des (des.take (m + 1)).tail k) :
    LinksUpTo des (next.set m k) (m + 1) := by
  intro i hi
  by_cases heq : i = m
  · subst heq
    exact ⟨k, by simp [hm], hk⟩
  · obtain ⟨l, hl, hlong⟩ := h i (by omega)
    exact ⟨l, by rw [List.getElem?_set_ne (by omega)]; exact hl, hlong⟩

/-- The text that `KMP_GetNext` has read before index `j` is the pattern's
beginning without its first symbol; one iteration appends `des[j]`. -/
theorem tail_take_succ {des : List UInt8} {j : ℕ} (h0 : 0 < j) (h : j < des.length) :
    (des.take (j + 1)).tail = (des.take j).tail ++ [des[j]] := by
  rw [List.take_succ_eq_append_getElem h, List.tail_append_of_ne_nil]
  rw [ne_eq, ← List.length_eq_zero_iff, List.length_take]
  omega

/-- The loop of `KMP_GetNext` terminates without an access out of bounds and
completes the failure links. -/
theorem kmpGetNextFrom_links {des : List UInt8} {todo j k : ℕ} {next : List ℕ}
    (hj : 0 < j) (htodo : j + todo = des.length) (hlen : des.length ≤ next.length)
    (hlinks : LinksUpTo des next j) (hlong : IsLongest des (des.take j).tail k) :
    ∃ next', kmpGetNextFrom des todo j k next = some next' ∧ next'.length = next.length ∧
      LinksUpTo des next' des.length := by
  induction todo generalizing j k next with
  | zero =>
    have hend : j = des.length := by omega
    exact ⟨next, rfl, rfl, hend ▸ hlinks⟩
  | succ todo ih =>
    have hjd : j < des.length := by omega
    have hkj : k < j := hlong.overlaps.lt_of_tail hj
    obtain ⟨k', d, hrun, hle, hd, hnew⟩ :=
      advance_isLongest hlinks hkj.le (by omega) hlong des[j]
    rw [← tail_take_succ hj hjd] at hnew
    have hjn : j < next.length := by omega
    obtain ⟨next', hrest, hlen', hall⟩ :=
      ih (Nat.succ_pos j) (by omega) (by simpa using hlen) (hlinks.set hjn hnew) hnew
    refine ⟨next', ?_, by simpa using hlen', hall⟩
    simpa [kmpGetNextFrom, charAt_of_lt hjd, hrun, hd, store, hjn] using hrest

/-- The store before the loop of `KMP_GetNext` is the first link, and nothing has been
read yet. -/
theorem firstLink (des : List UInt8) {next : List ℕ} (hn : 0 < next.length) :
    LinksUpTo des (next.set 0 0) 1 ∧ IsLongest des (des.take 1).tail 0 := by
  have htake : (des.take 1).tail = [] := by
    rw [← List.length_eq_zero_iff, List.length_tail, List.length_take]
    omega
  have hzero : IsLongest des (des.take 1).tail 0 := by
    rw [htake]
    exact isLongest_nil des
  exact ⟨LinksUpTo.set (fun i hi => absurd hi (Nat.not_lt_zero i)) hn hzero, hzero⟩

/-- `KMP_GetNext` returns the failure links of a non-empty pattern that fits
the table. -/
theorem kmpGetNext_links {des : List UInt8} {next : List ℕ} (hpos : 0 < des.length)
    (hlen : des.length ≤ next.length) :
    ∃ next', kmpGetNext des next = some next' ∧ next'.length = next.length ∧
      LinksUpTo des next' des.length := by
  have hn : 0 < next.length := by omega
  obtain ⟨hlinks, hzero⟩ := firstLink des hn
  obtain ⟨next', hrun, hlen', hall⟩ := kmpGetNextFrom_links (k := 0) Nat.one_pos
    (show 1 + (des.length - 1) = des.length by omega) (by simpa using hlen) hlinks hzero
  refine ⟨next', ?_, by simpa using hlen', hall⟩
  simpa [kmpGetNext, store, hn] using hrun

/-! ## The search -/

/-- The value `KMP_Match` reports for an optional position. -/
def position : Option ℕ → ℤ
  | some p => p
  | none => -1

/-- No occurrence of the pattern ends within the first `i` bytes. -/
def NoneEndsBy (des t : List UInt8) (i : ℕ) : Prop := ∀ n ≤ i, ¬des <:+ t.take n

/-- The first occurrence is the one that ends first. -/
theorem firstOccurrence_of_first_end {des t : List UInt8} {i : ℕ} (hdes : des ≠ [])
    (hi : i < t.length) (hnone : NoneEndsBy des t i) (hend : des <:+ t.take (i + 1)) :
    firstOccurrence des t = some (i + 1 - des.length) := by
  have hlen := hend.length_le
  rw [List.length_take] at hlen
  have hat : i + 1 - des.length + des.length = i + 1 := by omega
  rw [firstOccurrence_eq_some]
  refine ⟨by omega, (occursAt_iff_suffix (by omega)).mpr (by rwa [hat]), fun j hj hocc => ?_⟩
  have hjlen := hocc.le_length hdes
  exact hnone (j + des.length) (by omega) ((occursAt_iff_suffix hjlen).mp hocc)

/-- Where no occurrence has ended, none has been found. -/
theorem firstOccurrence_of_none_ends {des t : List UInt8} (hdes : des ≠ [])
    (hnone : NoneEndsBy des t t.length) : firstOccurrence des t = none := by
  rw [firstOccurrence_eq_none, ← exists_occursAt_iff]
  rintro ⟨i, hocc⟩
  have hlen := hocc.le_length hdes
  exact hnone _ hlen ((occursAt_iff_suffix hlen).mp hocc)

/-- The loop of `KMP_Match` searches the rest of the text: with no occurrence
ended so far and `j` the greatest overlap, it reports the first occurrence. -/
theorem kmpMatchFrom_eq {src des t : List UInt8} {next : List ℕ} (hdes : des ≠ [])
    (hlinks : LinksUpTo des next des.length) (ht : t <+: src) {todo i j : ℕ}
    (htodo : i + todo = t.length) (hj : j < des.length)
    (hlong : IsLongest des (t.take i) j) (hnone : NoneEndsBy des t i) :
    kmpMatchFrom src des next todo i j = some (position (firstOccurrence des t)) := by
  induction todo generalizing i j with
  | zero =>
    have hi : i = t.length := by omega
    subst hi
    rw [firstOccurrence_of_none_ends hdes hnone]
    rfl
  | succ todo ih =>
    have hit : i < t.length := by omega
    have hsrc : src[i]? = some t[i] := by
      rw [← List.getElem?_eq_getElem hit]
      exact (List.prefix_iff_getElem?.mp ht i hit).trans (List.getElem?_eq_getElem hit).symm
    obtain ⟨k, d, hrun, hle, hd, hnew⟩ := advance_isLongest hlinks hj.le hj hlong t[i]
    rw [← List.take_succ_eq_append_getElem hit] at hnew
    have hiter : kmpMatchFrom src des next (todo + 1) i j =
        if (if t[i] = d then k + 1 else k) = des.length then some ((i : ℤ) - des.length + 1)
        else kmpMatchFrom src des next todo (i + 1) (if t[i] = d then k + 1 else k) := by
      simp [kmpMatchFrom, hsrc, hrun, hd]
    rw [hiter]
    generalize (if t[i] = d then k + 1 else k) = j' at hnew ⊢
    split
    · rename_i hfull
      have hend := hnew.eq_length_iff.mp hfull
      have hlen := hend.length_le
      rw [List.length_take] at hlen
      rw [firstOccurrence_of_first_end hdes hit hnone hend]
      congr 1
      simp only [position]
      omega
    · rename_i hpart
      have hbound := hnew.overlaps.1
      refine ih (by omega) (by omega) hnew fun n hn hsuf => ?_
      by_cases hni : n = i + 1
      · subst hni
        exact hpart (hnew.eq_length_iff.mpr hsuf)
      · exact hnone n (by omega) hsuf

/-- `KMP_Match` is total on non-empty patterns of at most 256 bytes and a length
inside the buffer, and reports the first occurrence among the first `len` bytes. -/
theorem kmpMatch_eq {src des : List UInt8} {len : ℤ} (hpos : des ≠ [])
    (hdes : des.length ≤ maxRecvBufSize) (hlen : len ≤ src.length) :
    kmpMatch src des len = some (position (firstOccurrence des (src.take len.toNat))) := by
  have hd : 0 < des.length := List.length_pos_iff.mpr hpos
  have hroom : des.length ≤ (List.replicate maxRecvBufSize (0 : ℕ)).length := by
    rwa [List.length_replicate]
  obtain ⟨next, hnext, _, hlinks⟩ := kmpGetNext_links hd hroom
  have htlen : (src.take len.toNat).length = len.toNat := by
    rw [List.length_take]
    omega
  simp only [kmpMatch, hnext, Option.bind_eq_bind, Option.bind_some]
  refine kmpMatchFrom_eq hpos hlinks (List.take_prefix _ _) (by omega) hd ?_ ?_
  · simpa using isLongest_nil des
  · intro n hn hsuf
    have hzero : n = 0 := by omega
    subst hzero
    exact hpos (List.suffix_nil.mp (by simpa using hsuf))

/-- The pattern stands at position `p` of the first `len` bytes. -/
def MatchesAt (src des : List UInt8) (len : ℤ) (p : ℕ) : Prop :=
  p + des.length ≤ len ∧ (src.drop p).take des.length = des

/-- A match is an occurrence in the received bytes. -/
theorem matchesAt_iff {src des : List UInt8} {len : ℤ} (hpos : des ≠ [])
    (hlen : len ≤ src.length) (p : ℕ) :
    MatchesAt src des len p ↔ OccursAt des (src.take len.toNat) p := by
  have hroom : (src.take len.toNat).length = len.toNat := by
    rw [List.length_take]
    omega
  constructor
  · rintro ⟨hend, hmatch⟩
    rw [OccursAt, List.prefix_iff_eq_take, List.drop_take, List.take_take,
      Nat.min_eq_left (by omega)]
    exact hmatch.symm
  · intro hocc
    have hend := hocc.le_length hpos
    have hsome := List.length_pos_iff.mpr hpos
    rw [OccursAt, List.prefix_iff_eq_take, List.drop_take, List.take_take,
      Nat.min_eq_left (by omega)] at hocc
    exact ⟨by omega, hocc.symm⟩

/-- `KMP_Match` returns the smallest position at which the pattern stands inside the received
length, and -1 precisely when there is none. -/
theorem kmpMatch_smallest {src des : List UInt8} {len : ℤ} (hpos : 1 ≤ des.length)
    (hdes : des.length ≤ 256) (hlen : len ≤ src.length) :
    ∃ r, kmpMatch src des len = some r ∧ -1 ≤ r ∧
      (r = -1 ↔ ∀ p, ¬MatchesAt src des len p) ∧
      ∀ p : ℕ, r = p → MatchesAt src des len p ∧ ∀ q < p, ¬MatchesAt src des len q := by
  have hne : des ≠ [] := List.length_pos_iff.mp hpos
  simp only [matchesAt_iff hne hlen]
  rw [kmpMatch_eq hne hdes hlen]
  refine ⟨_, rfl, ?_⟩
  rcases hfirst : firstOccurrence des (src.take len.toNat) with _ | q
  · have hnone : ∀ p, ¬OccursAt des (src.take len.toNat) p := by
      rw [firstOccurrence_eq_none, ← exists_occursAt_iff, not_exists] at hfirst
      exact hfirst
    simp only [position]
    refine ⟨by omega, by simpa using hnone, fun p hp => ?_⟩
    omega
  · obtain ⟨_, hocc, hleast⟩ := firstOccurrence_eq_some.mp hfirst
    simp only [position]
    refine ⟨by omega, ?_, fun p hp => ?_⟩
    · refine iff_of_false (by omega) fun hnone => hnone q hocc
    · have heq : q = p := by omega
      subst heq
      exact ⟨hocc, hleast⟩

/-- A match after an overlapping false start, among bytes with a NUL. -/
theorem kmpMatch_smallest_aab :
    ∃ r, kmpMatch [0, 97, 97, 97, 98, 97, 97, 98] [97, 97, 98] 8 = some r ∧ -1 ≤ r ∧
      (r = -1 ↔ ∀ p, ¬MatchesAt [0, 97, 97, 97, 98, 97, 97, 98] [97, 97, 98] 8 p) ∧
      ∀ p : ℕ, r = p → MatchesAt [0, 97, 97, 97, 98, 97, 97, 98] [97, 97, 98] 8 p ∧
        ∀ q < p, ¬MatchesAt [0, 97, 97, 97, 98, 97, 97, 98] [97, 97, 98] 8 q :=
  kmpMatch_smallest (by decide) (by decide) (by decide)

end PyModules.Lte
