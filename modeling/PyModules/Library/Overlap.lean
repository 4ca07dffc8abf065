import Mathlib.Data.List.Basic
import Mathlib.Data.List.Infix
import Mathlib.Order.Bounds.Basic

/-!
# Overlaps of a pattern with the end of a text

The failure-link method of string search keeps, after each symbol read, the
greatest number of pattern symbols that end the text read so far. The lemmas
here are the whole of its correctness argument, for any alphabet: how overlaps
grow by one symbol, and that the shorter overlaps of a text are exactly the
overlaps of the pattern with its own matched part.
-/

namespace Overlap

variable {α : Type*}

/-- The first `k` symbols of the pattern `p` end the text `t`. -/
def Overlaps (p t : List α) (k : ℕ) : Prop := k ≤ p.length ∧ p.take k <:+ t

/-- `k` is the greatest overlap of the pattern `p` with the end of `t`. -/
structure IsLongest (p t : List α) (k : ℕ) : Prop where
  /-- The overlap itself. -/
  overlaps : Overlaps p t k
  /-- Every other overlap is at most as long. -/
  longest : ∀ k', Overlaps p t k' → k' ≤ k

/-- `k` overlaps `t`, and every overlap of `t` that the symbol `c` extends is at
most `k`: what remains to be found while failure links are followed. -/
structure Covers (p t : List α) (c : α) (k : ℕ) : Prop where
  /-- The candidate overlap. -/
  overlaps : Overlaps p t k
  /-- No overlap that `c` extends has been passed over. -/
  covered : ∀ k', Overlaps p t k' → p[k']? = some c → k' ≤ k

/-- The empty overlap always exists. -/
theorem overlaps_zero (p t : List α) : Overlaps p t 0 := by
  simp [Overlaps]

/-- Only the empty overlap exists before anything is read. -/
theorem isLongest_nil (p : List α) : IsLongest p [] 0 := by
  refine ⟨overlaps_zero p [], fun k hk => ?_⟩
  have hlen := hk.2.length_le
  simp only [List.length_take, List.length_nil] at hlen
  have := hk.1
  omega

/-- Reading one symbol extends an overlap by exactly that pattern symbol. -/
theorem overlaps_concat_succ {p t : List α} {c : α} {k : ℕ} :
    Overlaps p (t ++ [c]) (k + 1) ↔ Overlaps p t k ∧ p[k]? = some c := by
  by_cases hk : k < p.length
  · have htake : p.take (k + 1) = p.take k ++ [p[k]] := List.take_succ_eq_append_getElem hk
    simp only [Overlaps, htake, List.getElem?_eq_getElem hk, Option.some.injEq]
    constructor
    · rintro ⟨_, s, hs⟩
      rw [← List.append_assoc] at hs
      obtain ⟨hs, hc⟩ := List.append_inj' hs rfl
      exact ⟨⟨hk.le, s, hs⟩, by simpa using hc⟩
    · rintro ⟨⟨_, s, hs⟩, hc⟩
      exact ⟨hk, s, by rw [← List.append_assoc, hs, hc]⟩
  · constructor
    · rintro ⟨hle, _⟩
      omega
    · rintro ⟨_, hc⟩
      rw [List.getElem?_eq_none (by omega)] at hc
      cases hc

/-- The overlaps of a text that are shorter than a known one are the overlaps of
the matched part of the pattern, its first symbol left out. -/
theorem Overlaps.shorter_iff {p t : List α} {k k' : ℕ} (h : Overlaps p t k) (hlt : k' < k) :
    Overlaps p t k' ↔ Overlaps p (p.take k).tail k' := by
  obtain ⟨hk, hsuffix⟩ := h
  have htail : (p.take k).tail <:+ t := (List.tail_suffix _).trans hsuffix
  have hlen : (p.take k').length ≤ (p.take k).tail.length := by
    simp only [List.length_take, List.length_tail]
    omega
  constructor
  · rintro ⟨hk', hs⟩
    exact ⟨hk', List.suffix_of_suffix_length_le hs htail hlen⟩
  · rintro ⟨hk', hs⟩
    exact ⟨hk', hs.trans htail⟩

/-- An overlap of the matched part without its first symbol is strictly shorter:
following a failure link always makes progress. -/
theorem Overlaps.lt_of_tail {p : List α} {k k' : ℕ} (h : Overlaps p (p.take k).tail k')
    (hk : 0 < k) : k' < k := by
  have hlen := h.2.length_le
  have := h.1
  simp only [List.length_take, List.length_tail] at hlen
  omega

/-- The first `k` symbols of a word, not all of them, also end it. -/
def IsBorder (t : List α) (k : ℕ) : Prop := k < t.length ∧ t.take k <:+ t

/-- The borders of the matched part are its overlaps with itself, the first symbol
left out. -/
theorem overlaps_tail_iff_border {p : List α} {i k : ℕ} (h0 : 0 < i) (hi : i ≤ p.length) :
    Overlaps p (p.take i).tail k ↔ IsBorder (p.take i) k := by
  have hlen : (p.take i).length = i := by
    rw [List.length_take]
    omega
  have htake : k < i → (p.take i).take k = p.take k := by
    intro hk
    rw [List.take_take, Nat.min_eq_left hk.le]
  constructor
  · intro hov
    have hk := hov.lt_of_tail h0
    refine ⟨by omega, ?_⟩
    rw [htake hk]
    exact hov.2.trans (List.tail_suffix _)
  · rintro ⟨hk, hsuffix⟩
    rw [hlen] at hk
    rw [htake hk] at hsuffix
    refine ⟨by omega, List.suffix_of_suffix_length_le hsuffix (List.tail_suffix _) ?_⟩
    simp only [List.length_take, List.length_tail]
    omega

/-- A failure link is the longest border of the matched part. -/
theorem IsLongest.isGreatest_border {p : List α} {i k : ℕ} (h0 : 0 < i) (hi : i ≤ p.length)
    (h : IsLongest p (p.take i).tail k) : IsGreatest {k | IsBorder (p.take i) k} k := by
  constructor
  · exact (overlaps_tail_iff_border h0 hi).mp h.overlaps
  · intro k' hk'
    exact h.longest k' ((overlaps_tail_iff_border h0 hi).mpr hk')

/-- The longest overlap covers every continuation. -/
theorem IsLongest.covers {p t : List α} {k : ℕ} (h : IsLongest p t k) (c : α) :
    Covers p t c k :=
  ⟨h.overlaps, fun k' hk' _ => h.longest k' hk'⟩

/-- A failure link passes over no overlap that the next symbol could extend. -/
theorem Covers.fall {p t : List α} {c : α} {k k' : ℕ} (h : Covers p t c k) (hk : 0 < k)
    (hne : p[k]? ≠ some c) (hlink : IsLongest p (p.take k).tail k') : Covers p t c k' := by
  have hlt := hlink.overlaps.lt_of_tail hk
  refine ⟨(h.overlaps.shorter_iff hlt).mpr hlink.overlaps, fun j hj hc => ?_⟩
  have hjk : j < k := by
    have hle := h.covered j hj hc
    have hjne : j ≠ k := by
      rintro rfl
      exact hne hc
    omega
  exact hlink.longest j ((h.overlaps.shorter_iff hjk).mp hj)

/-- The candidate extended by the symbol read is the longest overlap of the
longer text. -/
theorem Covers.isLongest_succ {p t : List α} {c : α} {k : ℕ} (h : Covers p t c k)
    (hc : p[k]? = some c) : IsLongest p (t ++ [c]) (k + 1) := by
  refine ⟨overlaps_concat_succ.mpr ⟨h.overlaps, hc⟩, fun k' hk' => ?_⟩
  cases k' with
  | zero => omega
  | succ k' =>
    obtain ⟨hov, hget⟩ := overlaps_concat_succ.mp hk'
    have := h.covered k' hov hget
    omega

/-- When even the empty candidate is not extended, nothing overlaps. -/
theorem Covers.isLongest_zero {p t : List α} {c : α} (h : Covers p t c 0)
    (hc : p[0]? ≠ some c) : IsLongest p (t ++ [c]) 0 := by
  refine ⟨overlaps_zero _ _, fun k' hk' => ?_⟩
  cases k' with
  | zero => exact le_rfl
  | succ k' =>
    obtain ⟨hov, hget⟩ := overlaps_concat_succ.mp hk'
    have hk0 : k' = 0 := by
      have := h.covered k' hov hget
      omega
    subst hk0
    exact absurd hget hc

/-- The whole pattern ends the text precisely when the longest overlap is the
pattern's length. -/
theorem IsLongest.eq_length_iff {p t : List α} {k : ℕ} (h : IsLongest p t k) :
    k = p.length ↔ p <:+ t := by
  constructor
  · rintro rfl
    simpa using h.overlaps.2
  · intro hp
    have hle := h.longest p.length ⟨le_rfl, by simpa using hp⟩
    have := h.overlaps.1
    omega

/-- The pattern occurs in the text at position `i`. -/
def OccursAt (p t : List α) (i : ℕ) : Prop := p <+: t.drop i

instance OccursAt.decidable [DecidableEq α] (p t : List α) (i : ℕ) : Decidable (OccursAt p t i) :=
  inferInstanceAs (Decidable (p <+: t.drop i))

/-- The least position at which the pattern occurs. -/
def firstOccurrence [DecidableEq α] (p t : List α) : Option ℕ :=
  (List.range (t.length + 1)).find? fun i => decide (OccursAt p t i)

/-- An occurrence at `i` is an overlap of the whole pattern with the first
`i + |p|` symbols. -/
theorem occursAt_iff_suffix {p t : List α} {i : ℕ} (h : i + p.length ≤ t.length) :
    OccursAt p t i ↔ p <:+ t.take (i + p.length) := by
  have hsplit : t.take (i + p.length) = t.take i ++ (t.drop i).take p.length := by
    rw [List.take_add]
  have hlen : ((t.drop i).take p.length).length = p.length := by
    simp only [List.length_take, List.length_drop]
    omega
  rw [OccursAt, hsplit, List.prefix_iff_eq_take]
  constructor
  · intro hp
    rw [← hp]
    exact List.suffix_append _ _
  · rintro ⟨s, hs⟩
    exact (List.append_inj' hs hlen.symm).2

/-- An occurrence lies inside the text. -/
theorem OccursAt.le_length {p t : List α} {i : ℕ} (h : OccursAt p t i) (hp : p ≠ []) :
    i + p.length ≤ t.length := by
  have hlen := h.length_le
  have hpos := List.length_pos_iff.mpr hp
  simp only [List.length_drop] at hlen
  omega

/-- A pattern occurs at some position precisely when it is an infix. -/
theorem exists_occursAt_iff {p t : List α} : (∃ i, OccursAt p t i) ↔ p <:+: t := by
  constructor
  · rintro ⟨i, h⟩
    exact h.isInfix.trans (List.drop_suffix i t).isInfix
  · rintro ⟨s, u, rfl⟩
    exact ⟨s.length, by simp [OccursAt]⟩

/-- A pattern without the symbol `c` that ends a text stands behind every `c` in it. -/
theorem suffix_of_append_eq {p u x y : List α} {c : α} (hc : c ∉ p)
    (h : u ++ p = x ++ c :: y) : p <:+ y := by
  rcases List.append_eq_append_iff.mp h with ⟨a, _, hp⟩ | ⟨a, _, hcy⟩
  · exact absurd (by simp [hp]) hc
  · cases a with
    | nil =>
      have hp : c :: y = p := hcy
      exact absurd (hp ▸ List.mem_cons_self) hc
    | cons d a =>
      obtain ⟨_, hy⟩ := List.cons.inj hcy
      exact ⟨a, hy.symm⟩

/-- A pattern without the symbol `c` occurs on one side of a `c`. -/
theorem infix_append_cons_iff {p x y : List α} {c : α} (hc : c ∉ p) :
    p <:+: x ++ c :: y ↔ p <:+: x ∨ p <:+: y := by
  constructor
  · rintro ⟨u, v, h⟩
    rcases List.append_eq_append_iff.mp h with ⟨a, hx, _⟩ | ⟨a, hup, hrest⟩
    · exact .inl ⟨u, a, hx.symm⟩
    · cases a with
      | nil => exact .inl ⟨u, [], by rw [hup, List.append_nil, List.append_nil]⟩
      | cons d a =>
        obtain ⟨rfl, hy⟩ := List.cons.inj hrest
        have hpa := suffix_of_append_eq hc hup
        exact .inr (hy ▸ hpa.isInfix.trans (List.prefix_append a v).isInfix)
  · rintro (h | h)
    · exact h.trans (List.prefix_append x _).isInfix
    · exact h.trans ((List.suffix_cons c y).trans (List.suffix_append x _)).isInfix

/-- A separator without borders that stands before and behind a piece of a text
occurs in the piece, unless that is empty. -/
theorem infix_of_append_eq {sep a x y : List α} (hsep : ∀ k, IsBorder sep k → k = 0)
    (h : sep ++ x = a ++ (sep ++ y)) : a = [] ∨ sep <:+: a := by
  rcases List.append_eq_append_iff.mp h with ⟨b, ha, _⟩ | ⟨b, hab, hb⟩
  · exact .inr (ha ▸ (List.prefix_append sep b).isInfix)
  · by_cases hnil : a = []
    · exact .inl hnil
    · have hlen : sep.length = a.length + b.length := by rw [hab, List.length_append]
      have hpos := List.length_pos_iff.mpr hnil
      have hbegin : b <+: sep ++ y := by
        rw [hb]
        exact List.prefix_append b x
      have hprefix : b <+: sep :=
        List.prefix_of_prefix_length_le hbegin (List.prefix_append sep y) (by omega)
      have hborder : IsBorder sep b.length := by
        refine ⟨by omega, ?_⟩
        rw [← List.prefix_iff_eq_take.mp hprefix]
        exact ⟨a, hab.symm⟩
      have hb0 : b = [] := List.length_eq_zero_iff.mp (hsep _ hborder)
      rw [hb0, List.append_nil] at hab
      exact .inr (hab ▸ List.infix_rfl)

/-- A separator without borders ends the part of a text before its first occurrence in
one way only. -/
theorem separated_unique {sep l l' x x' : List α} (hsep : ∀ k, IsBorder sep k → k = 0)
    (hl : ¬sep <:+: l) (hl' : ¬sep <:+: l') (h : l ++ (sep ++ x) = l' ++ (sep ++ x')) :
    l = l' ∧ x = x' := by
  have heq : l = l' := by
    rcases List.append_eq_append_iff.mp h with ⟨a, ha, hx⟩ | ⟨a, ha, hx⟩
    · rcases infix_of_append_eq hsep hx with rfl | hin
      · rw [ha, List.append_nil]
      · exact absurd (ha ▸ hin.trans (List.suffix_append l a).isInfix) hl'
    · rcases infix_of_append_eq hsep hx with rfl | hin
      · rw [ha, List.append_nil]
      · exact absurd (ha ▸ hin.trans (List.suffix_append l' a).isInfix) hl
  subst heq
  exact ⟨rfl, List.append_cancel_left (List.append_cancel_left h)⟩

variable [DecidableEq α]

/-- The first occurrence is an occurrence with none before it. -/
theorem firstOccurrence_eq_some {p t : List α} {i : ℕ} :
    firstOccurrence p t = some i ↔
      i ≤ t.length ∧ OccursAt p t i ∧ ∀ j < i, ¬OccursAt p t j := by
  rw [firstOccurrence, List.find?_range_eq_some]
  simp only [decide_eq_true_eq, Bool.not_eq_true', decide_eq_false_iff_not, List.mem_range,
    Nat.lt_succ_iff]
  tauto

/-- There is no first occurrence precisely when the pattern is not an infix. -/
theorem firstOccurrence_eq_none {p t : List α} :
    firstOccurrence p t = none ↔ ¬p <:+: t := by
  rw [firstOccurrence, List.find?_eq_none, ← exists_occursAt_iff]
  simp only [List.mem_range, decide_eq_true_eq, not_exists]
  constructor
  · intro h i hi
    by_cases hle : i < t.length + 1
    · exact h i hle hi
    · have hlen := hi.length_le
      rw [List.length_drop] at hlen
      have hp : p = [] := List.length_eq_zero_iff.mp (by omega)
      exact h 0 (by omega) (by simp [OccursAt, hp])
  · exact fun h i _ => h i

end Overlap
