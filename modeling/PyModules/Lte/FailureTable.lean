import PyModules.Lte.Kmp

/-!
# The accesses of the failure table

`KMP_GetNext` reads the pattern and both reads and writes the table that it fills.
Here it runs once more with every access recorded, in the order of the source, in
order to say that none leaves the pattern's own indices and what the table holds
afterwards.
-/

namespace PyModules.Lte

open Overlap

/-! ## Recorded accesses -/

/-- An access of `KMP_GetNext` to one of its two arrays. -/
inductive Access
  | des (i : ℕ)
  | next (i : ℕ)
  deriving DecidableEq, Repr

/-- The index that an access uses. -/
def Access.index : Access → ℕ
  | .des i => i
  | .next i => i

/-- A computation that keeps its accesses, the latest first; `none` as in the plain
functions. -/
abbrev Traced := StateT (List Access) Option

/-- Take note of an access. -/
def record (a : Access) : Traced Unit := modify fun accesses => a :: accesses

/-- Read `des[k]`. -/
def readDes (des : List UInt8) (k : ℕ) : Traced UInt8 := do
  record (.des k)
  charAt des k

/-- Read `next[i]`. -/
def readNext (next : List ℕ) (i : ℕ) : Traced ℕ := do
  record (.next i)
  next[i]?

/-- `next[j] = k` -/
def writeNext (next : List ℕ) (j k : ℕ) : Traced (List ℕ) := do
  record (.next j)
  store next j k

/-- `while ((k > 0) && (des[j] != des[k])) k = next[k - 1];`, for at most `fuel` tests of
its condition. -/
def fallBackTraced (des : List UInt8) (next : List ℕ) (j : ℕ) : ℕ → ℕ → Traced ℕ
  | 0, _ => failure
  | fuel + 1, k => do
    if 0 < k then
      let c ← readDes des j
      let d ← readDes des k
      if c ≠ d then
        let k' ← readNext next (k - 1)
        fallBackTraced des next j fuel k'
      else return k
    else return k

/-- The `for` loop of `KMP_GetNext` from index `j` on, `todo` iterations. -/
def kmpGetNextFromTraced (des : List UInt8) : ℕ → ℕ → ℕ → List ℕ → Traced (List ℕ)
  | 0, _, _, next => return next
  | todo + 1, j, k, next => do
    let k ← fallBackTraced des next j (k + 1) k
    let c ← readDes des j
    let d ← readDes des k
    let k := if c = d then k + 1 else k
    let next ← writeNext next j k
    kmpGetNextFromTraced des todo (j + 1) k next

/-- `KMP_GetNext(des, next)` -/
def kmpGetNextTraced (des : List UInt8) (next : List ℕ) : Traced (List ℕ) := do
  let next ← writeNext next 0 0
  kmpGetNextFromTraced des (des.length - 1) 1 0 next

/-! ## Computations that stay below a bound -/

/-- The computation returns `v`, and the accesses it adds have indices below `m`. -/
def StaysBelow {α : Type} (m : ℕ) (x : Traced α) (v : α) : Prop :=
  ∀ accesses, ∃ added, x.run accesses = some (v, added ++ accesses) ∧
    ∀ a ∈ added, a.index < m

/-- Returning accesses nothing. -/
theorem StaysBelow.pure {α : Type} (m : ℕ) (v : α) : StaysBelow m (pure v) v :=
  fun _ => ⟨[], rfl, by simp⟩

/-- A sequence stays below the bound when its parts do. -/
theorem StaysBelow.bind {α β : Type} {m : ℕ} {x : Traced α} {f : α → Traced β} {v : α} {w : β}
    (hx : StaysBelow m x v) (hf : StaysBelow m (f v) w) : StaysBelow m (x >>= f) w := by
  intro accesses
  obtain ⟨added, hrun, hadded⟩ := hx accesses
  obtain ⟨more, hrest, hmore⟩ := hf (added ++ accesses)
  refine ⟨more ++ added, ?_, ?_⟩
  · simpa [hrun] using hrest
  · intro a ha
    rcases List.mem_append.mp ha with ha | ha
    · exact hmore a ha
    · exact hadded a ha

/-- Reading inside the pattern. -/
theorem readDes_staysBelow {des : List UInt8} {m k : ℕ} (hk : k < des.length) (hm : k < m) :
    StaysBelow m (readDes des k) des[k] := by
  intro accesses
  refine ⟨[.des k], ?_, by simpa [Access.index] using hm⟩
  simp [readDes, record, charAt_of_lt hk]

/-- Reading an entry of the table. -/
theorem readNext_staysBelow {next : List ℕ} {m i k : ℕ} (hi : next[i]? = some k) (hm : i < m) :
    StaysBelow m (readNext next i) k := by
  intro accesses
  refine ⟨[.next i], ?_, by simpa [Access.index] using hm⟩
  simp [readNext, record, hi]

/-- Writing an entry of the table. -/
theorem writeNext_staysBelow {next : List ℕ} {m j : ℕ} (hj : j < next.length) (hm : j < m)
    (k : ℕ) : StaysBelow m (writeNext next j k) (next.set j k) := by
  intro accesses
  refine ⟨[.next j], ?_, by simpa [Access.index] using hm⟩
  simp [writeNext, record, store, hj]

/-! ## The loops -/

/-- The `while` loop ends where the plain one does. It reads `des` at `j` and at candidates
no longer than the first, and the table one place before them. -/
theorem fallBackTraced_staysBelow {des : List UInt8} {next : List ℕ} {j : ℕ}
    (hlinks : LinksUpTo des next j) (hj : j < des.length) {fuel k k' : ℕ} (hk : k ≤ j)
    (hrun : fallBack des next des[j] fuel k = some k') :
    StaysBelow des.length (fallBackTraced des next j fuel k) k' := by
  induction fuel generalizing k with
  | zero => simp [fallBack] at hrun
  | succ fuel ih =>
    have hkd : k < des.length := by omega
    rw [fallBackTraced]
    by_cases hpos : 0 < k
    · rw [if_pos hpos]
      apply (readDes_staysBelow hj hj).bind
      apply (readDes_staysBelow hkd hkd).bind
      by_cases hc : des[j] ≠ des[k]
      · obtain ⟨link, hlink, hlongest⟩ := hlinks (k - 1) (by omega)
        rw [Nat.sub_add_cancel hpos] at hlongest
        have hlt : link < k := hlongest.overlaps.lt_of_tail hpos
        rw [if_pos hc]
        apply (readNext_staysBelow hlink (by omega)).bind
        apply ih (by omega)
        simpa [fallBack, charAt_of_lt hkd, hpos, hc, hlink] using hrun
      · rw [if_neg hc]
        have hend : k = k' := by
          simpa [fallBack, charAt_of_lt hkd, hpos, not_not.mp hc] using hrun
        rw [hend]
        exact .pure _ k'
    · rw [if_neg hpos]
      have hend : k = k' := by simpa [fallBack, hpos] using hrun
      rw [hend]
      exact .pure _ k'

/-- The `for` loop fills the table as the plain one does. -/
theorem kmpGetNextFromTraced_staysBelow {des : List UInt8} {todo j k : ℕ} {next next' : List ℕ}
    (hj : 0 < j) (htodo : j + todo = des.length) (hroom : des.length ≤ next.length)
    (hlinks : LinksUpTo des next j) (hlong : IsLongest des (des.take j).tail k)
    (hrun : kmpGetNextFrom des todo j k next = some next') :
    StaysBelow des.length (kmpGetNextFromTraced des todo j k next) next' := by
  induction todo generalizing j k next with
  | zero =>
    have hend : next = next' := by simpa [kmpGetNextFrom] using hrun
    rw [hend]
    exact .pure _ next'
  | succ todo ih =>
    have hjd : j < des.length := by omega
    have hjn : j < next.length := by omega
    have hkj : k < j := hlong.overlaps.lt_of_tail hj
    obtain ⟨k', d, hfall, hle, hd, hnew⟩ :=
      advance_isLongest hlinks hkj.le (by omega) hlong des[j]
    have hk' : k' < des.length := by omega
    have hd' : d = des[k'] := by
      rw [charAt_of_lt hk', Option.some.injEq] at hd
      exact hd.symm
    rw [← tail_take_succ hj hjd] at hnew
    rw [kmpGetNextFromTraced]
    apply (fallBackTraced_staysBelow hlinks hjd hkj.le hfall).bind
    apply (readDes_staysBelow hjd hjd).bind
    apply (readDes_staysBelow hk' hk').bind
    rw [← hd']
    apply (writeNext_staysBelow hjn hjd _).bind
    apply ih (Nat.succ_pos j) (by omega) (by simpa using hroom) (hlinks.set hjn hnew) hnew
    simpa [kmpGetNextFrom, charAt_of_lt hjd, hfall, charAt_of_lt hk', hd', store, hjn] using hrun

/-- Recorded or not, `KMP_GetNext` fills the same table; it accesses only indices of the
pattern. -/
theorem kmpGetNextTraced_staysBelow {des : List UInt8} {next next' : List ℕ}
    (hpos : 0 < des.length) (hroom : des.length ≤ next.length)
    (hrun : kmpGetNext des next = some next') :
    StaysBelow des.length (kmpGetNextTraced des next) next' := by
  have hn : 0 < next.length := by omega
  obtain ⟨hlinks, hzero⟩ := firstLink des hn
  rw [kmpGetNextTraced]
  apply (writeNext_staysBelow hn hpos 0).bind
  apply kmpGetNextFromTraced_staysBelow Nat.one_pos (by omega) (by simpa using hroom) hlinks hzero
  simpa [kmpGetNext, store, hn] using hrun

/-! ## The table -/

/-- On a non-empty pattern and a table with room for it, `KMP_GetNext` terminates, accesses
both arrays at indices of the pattern only, and leaves in `next[j]` the length of the
longest proper prefix of `des[0..j]` that is also its suffix. -/
theorem kmpGetNext_table {des : List UInt8} {next : List ℕ} (hpos : 1 ≤ des.length)
    (hroom : des.length ≤ next.length) :
    ∃ next' accesses, (kmpGetNextTraced des next).run [] = some (next', accesses) ∧
      kmpGetNext des next = some next' ∧
      (∀ a ∈ accesses, a.index < des.length) ∧
      ∀ j < des.length, ∃ k, next'[j]? = some k ∧
        IsGreatest {k | IsBorder (des.take (j + 1)) k} k := by
  obtain ⟨next', hrun, _, hlinks⟩ := kmpGetNext_links hpos hroom
  obtain ⟨accesses, htraced, hbelow⟩ := kmpGetNextTraced_staysBelow hpos hroom hrun []
  rw [List.append_nil] at htraced
  refine ⟨next', accesses, htraced, hrun, hbelow, fun j hj => ?_⟩
  obtain ⟨k, hk, hlong⟩ := hlinks j hj
  exact ⟨k, hk, hlong.isGreatest_border (Nat.succ_pos j) hj⟩

example : kmpGetNext (lit "aabaaa") [9, 9, 9, 9, 9, 9, 9] = some [0, 1, 0, 1, 2, 2, 9] := by
  decide

/-- A pattern whose last entry is found by falling back, with the table of `KMP_Match`. -/
theorem kmpGetNext_table_aabaaa :
    ∃ next' accesses,
      (kmpGetNextTraced (lit "aabaaa") (List.replicate maxRecvBufSize 0)).run [] =
        some (next', accesses) ∧
      kmpGetNext (lit "aabaaa") (List.replicate maxRecvBufSize 0) = some next' ∧
      (∀ a ∈ accesses, a.index < (lit "aabaaa").length) ∧
      ∀ j < (lit "aabaaa").length, ∃ k, next'[j]? = some k ∧
        IsGreatest {k | IsBorder ((lit "aabaaa").take (j + 1)) k} k :=
  kmpGetNext_table (by decide) (by decide +kernel)

end PyModules.Lte
