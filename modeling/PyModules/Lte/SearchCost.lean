import PyModules.Library.Spends
import PyModules.Lte.FailureTable

/-!
# The accesses of a search

`KMP_Match` runs here with every access of its loops recorded, those of `KMP_GetNext` included.
A candidate grows by at most one with each symbol read, and each turn of a `while` loop makes it
shorter, so that the accesses are linear in the lengths of the pattern and of the text.
-/

namespace PyModules.Lte

open Overlap

/-! ## Recorded accesses -/

/-- An access of `KMP_Match`: to the text, or to one of the arrays of the pattern. -/
inductive SearchAccess
  | src (i : ℕ)
  | pattern (a : Access)
  deriving DecidableEq, Repr

/-- A search that keeps its accesses, the latest first. -/
abbrev Search := StateT (List SearchAccess) Option

/-- An access is inside the received bytes, or inside the pattern. -/
def SearchAccess.Inside (len : ℤ) (m : ℕ) : SearchAccess → Prop
  | .src i => (i : ℤ) < len
  | .pattern a => a.index < m

/-- Read `src[i]`. -/
def readSrc (src : List UInt8) (i : ℕ) : Search UInt8 :=
  fun accesses => src[i]?.map fun c => (c, .src i :: accesses)

/-- `while ((k > 0) && (c != des[k])) k = next[k - 1];` for any way to read the three. -/
def fallBackWith {ω : Type} (readC : StateT (List ω) Option UInt8)
    (readD : ℕ → StateT (List ω) Option UInt8) (readN : ℕ → StateT (List ω) Option ℕ) :
    ℕ → ℕ → StateT (List ω) Option ℕ
  | 0, _ => failure
  | fuel + 1, k => do
    if 0 < k then
      let c ← readC
      let d ← readD k
      if c ≠ d then
        let k' ← readN (k - 1)
        fallBackWith readC readD readN fuel k'
      else return k
    else return k

/-- Read an array of the pattern. -/
def inPattern {α : Type} (x : Traced α) : Search α := Spends.within .pattern x

/-- The `for` loop of `KMP_Match` from index `i` on, `todo` iterations. -/
def kmpMatchFromTraced (src des : List UInt8) (next : List ℕ) : ℕ → ℕ → ℕ → Search ℤ
  | 0, _, _ => return -1
  | todo + 1, i, j => do
    let j ← fallBackWith (readSrc src i) (fun k => inPattern (readDes des k))
      (fun k => inPattern (readNext next k)) (j + 1) j
    let c ← readSrc src i
    let d ← inPattern (readDes des j)
    let j := if c = d then j + 1 else j
    if j = des.length then return (i : ℤ) - des.length + 1
    else kmpMatchFromTraced src des next todo (i + 1) j

/-- `KMP_Match(src, des, len)` -/
def kmpMatchTraced (src des : List UInt8) (len : ℤ) : Search ℤ := do
  let next ← inPattern (kmpGetNextTraced des (List.replicate maxRecvBufSize 0))
  kmpMatchFromTraced src des next len.toNat 0 0

/-! ## Single accesses -/

/-- Accesses to the pattern and its table stay inside the pattern. -/
abbrev InPattern (m : ℕ) (a : Access) : Prop := a.index < m

/-- Reading inside the pattern. -/
theorem readDes_spends {des : List UInt8} {k : ℕ} (hk : k < des.length) :
    Spends (InPattern des.length) (readDes des k) des[k] 1 := by
  refine Spends.one (a := .des k) hk fun log => ?_
  simp [readDes, record, charAt_of_lt hk]

/-- Reading an entry of the table. -/
theorem readNext_spends {next : List ℕ} {m i l : ℕ} (hi : next[i]? = some l) (hm : i < m) :
    Spends (InPattern m) (readNext next i) l 1 := by
  refine Spends.one (a := .next i) hm fun log => ?_
  simp [readNext, record, hi]

/-- Writing an entry of the table. -/
theorem writeNext_spends {next : List ℕ} {m j : ℕ} (hj : j < next.length) (hm : j < m) (k : ℕ) :
    Spends (InPattern m) (writeNext next j k) (next.set j k) 1 := by
  refine Spends.one (a := .next j) hm fun log => ?_
  simp [writeNext, record, store, hj]

/-- Reading a received byte. -/
theorem readSrc_spends {src : List UInt8} {len : ℤ} {m i : ℕ} (hi : i < src.length)
    (hlen : (i : ℤ) < len) :
    Spends (SearchAccess.Inside len m) (readSrc src i) src[i] 1 := by
  refine Spends.one (a := .src i) hlen fun log => ?_
  change src[i]?.map _ = _
  rw [List.getElem?_eq_getElem hi]
  rfl

/-- An access to the pattern's arrays is one of the search. -/
theorem inPattern_spends {α : Type} {x : Traced α} {v : α} {m n : ℕ}
    (hx : Spends (InPattern m) x v n) (len : ℤ) :
    Spends (SearchAccess.Inside len m) (inPattern x) v n :=
  Spends.of_within hx fun _ h => h

/-! ## The loops -/

/-- The `while` loop makes three accesses for each turn, which shortens the candidate, and two
for its last test. -/
theorem fallBackWith_spends {ω : Type} {allowed : ω → Prop} {des : List UInt8} {next : List ℕ}
    {m : ℕ} (hlinks : LinksUpTo des next m) {readC : StateT (List ω) Option UInt8}
    {readD : ℕ → StateT (List ω) Option UInt8} {readN : ℕ → StateT (List ω) Option ℕ} {c : UInt8}
    (hC : Spends allowed readC c 1)
    (hD : ∀ k, (hk : k < des.length) → Spends allowed (readD k) des[k] 1)
    (hN : ∀ i < m, ∀ l, next[i]? = some l → Spends allowed (readN i) l 1)
    {fuel k k' : ℕ} (hkm : k ≤ m) (hk : k < des.length)
    (hrun : fallBack des next c fuel k = some k') :
    k' ≤ k ∧ Spends allowed (fallBackWith readC readD readN fuel k) k' (3 * (k - k') + 2) := by
  induction fuel generalizing k with
  | zero => simp [fallBack] at hrun
  | succ fuel ih =>
    rw [fallBackWith]
    by_cases hpos : 0 < k
    · rw [if_pos hpos]
      by_cases hc : c = des[k]
      · have hend : k = k' := by simpa [fallBack, charAt_of_lt hk, hpos, hc] using hrun
        subst hend
        refine ⟨le_rfl, hC.bind (by omega) ((hD k hk).bind (by omega) ?_)⟩
        rw [if_neg (not_not.mpr hc)]
        exact .pure k _
      · obtain ⟨link, hlink, hlongest⟩ := hlinks (k - 1) (by omega)
        rw [Nat.sub_add_cancel hpos] at hlongest
        have hlt : link < k := hlongest.overlaps.lt_of_tail hpos
        have hrest : fallBack des next c fuel link = some k' := by
          simpa [fallBack, charAt_of_lt hk, hpos, hc, hlink] using hrun
        obtain ⟨hle, hspends⟩ := ih (by omega) (by omega) hrest
        refine ⟨by omega, hC.bind (by omega) ((hD k hk).bind (by omega) ?_)⟩
        rw [if_pos hc]
        exact (hN (k - 1) (by omega) link hlink).bind (by omega) (hspends.mono (by omega))
    · rw [if_neg hpos]
      have hend : k = k' := by simpa [fallBack, hpos] using hrun
      exact ⟨hend.ge, hend ▸ .pure k _⟩

/-- The loop of `KMP_GetNext` that was recorded before is the one with its own readers. -/
theorem fallBackTraced_eq (des : List UInt8) (next : List ℕ) (j fuel k : ℕ) :
    fallBackTraced des next j fuel k =
      fallBackWith (readDes des j) (readDes des) (readNext next) fuel k := by
  induction fuel generalizing k with
  | zero => rfl
  | succ fuel ih => simp only [fallBackTraced, fallBackWith, ih]

/-- The loop of `KMP_GetNext` makes at most eight accesses for each symbol, if what the candidate
has grown is paid for when it is shortened. -/
theorem kmpGetNextFromTraced_spends {des : List UInt8} {todo j k : ℕ} {next next' : List ℕ}
    (hj : 0 < j) (htodo : j + todo = des.length) (hroom : des.length ≤ next.length)
    (hlinks : LinksUpTo des next j) (hlong : IsLongest des (des.take j).tail k)
    (hrun : kmpGetNextFrom des todo j k next = some next') :
    Spends (InPattern des.length) (kmpGetNextFromTraced des todo j k next) next'
      (8 * todo + 3 * k) := by
  induction todo generalizing j k next with
  | zero =>
    have hend : next = next' := by simpa [kmpGetNextFrom] using hrun
    rw [hend]
    exact .pure next' _
  | succ todo ih =>
    have hjd : j < des.length := by omega
    have hjn : j < next.length := by omega
    have hkj : k < j := hlong.overlaps.lt_of_tail hj
    obtain ⟨k', d, hfall, hle, hd, hnew⟩ :=
      advance_isLongest hlinks hkj.le (by omega) hlong des[j]
    have hk' : k' < des.length := by omega
    have hd' : d = des[k'] := by
      rw [charAt_of_lt hk', Option.some.injEq] at hd
      exact hd.symm
    rw [← tail_take_succ hj hjd] at hnew
    obtain ⟨_, hloop⟩ := fallBackWith_spends hlinks (readDes_spends hjd)
      (fun k hk => readDes_spends hk) (fun i hi l hl => readNext_spends hl (by omega)) hkj.le
      (by omega) hfall
    rw [← fallBackTraced_eq] at hloop
    have hnext := ih (Nat.succ_pos j) (by omega) (by simpa using hroom) (hlinks.set hjn hnew) hnew
      (by simpa [kmpGetNextFrom, charAt_of_lt hjd, hfall, charAt_of_lt hk', hd', store, hjn]
        using hrun)
    have hgrown : (if des[j] = d then k' + 1 else k') ≤ k' + 1 := by
      split <;> omega
    rw [kmpGetNextFromTraced]
    refine hloop.bind (by omega) ((readDes_spends hjd).bind (by omega) ?_)
    refine (readDes_spends hk').bind (by omega) ?_
    rw [← hd']
    exact (writeNext_spends hjn hjd _).bind (by omega) (hnext.mono (by omega))

/-- `KMP_GetNext` makes at most eight accesses for each symbol of the pattern. -/
theorem kmpGetNextTraced_spends {des : List UInt8} {next next' : List ℕ} (hpos : 0 < des.length)
    (hroom : des.length ≤ next.length) (hrun : kmpGetNext des next = some next') :
    Spends (InPattern des.length) (kmpGetNextTraced des next) next' (8 * des.length) := by
  have hn : 0 < next.length := by omega
  obtain ⟨hlinks, hzero⟩ := firstLink des hn
  have hloop := kmpGetNextFromTraced_spends Nat.one_pos
    (show 1 + (des.length - 1) = des.length by omega) (by simpa using hroom) hlinks hzero
    (by simpa [kmpGetNext, store, hn] using hrun)
  rw [kmpGetNextTraced]
  exact (writeNext_spends hn hpos 0).bind (by omega) (hloop.mono (by omega))

/-- The loop of `KMP_Match` makes at most seven accesses for each symbol of the text, if what the
candidate has grown is paid for when it is shortened. -/
theorem kmpMatchFromTraced_spends {src des t : List UInt8} {next : List ℕ} {len : ℤ} {r : ℤ}
    (hlinks : LinksUpTo des next des.length) (ht : t <+: src)
    (hlen : ∀ i < t.length, (i : ℤ) < len) {todo i j : ℕ} (htodo : i + todo = t.length)
    (hj : j < des.length) (hlong : IsLongest des (t.take i) j)
    (hrun : kmpMatchFrom src des next todo i j = some r) :
    Spends (SearchAccess.Inside len des.length) (kmpMatchFromTraced src des next todo i j) r
      (7 * todo + 3 * j) := by
  induction todo generalizing i j with
  | zero =>
    have hend : -1 = r := by simpa [kmpMatchFrom] using hrun
    rw [← hend]
    exact .pure _ _
  | succ todo ih =>
    have hit : i < t.length := by omega
    have hsrc : i < src.length := hit.trans_le ht.length_le
    have hsame : src[i] = t[i] := (ht.getElem hit).symm
    obtain ⟨k, d, hfall, hle, hd, hnew⟩ := advance_isLongest hlinks hj.le hj hlong t[i]
    rw [← List.take_succ_eq_append_getElem hit] at hnew
    have hk : k < des.length := by omega
    have hd' : d = des[k] := by
      rw [charAt_of_lt hk, Option.some.injEq] at hd
      exact hd.symm
    have hread : Spends (SearchAccess.Inside len des.length) (readSrc src i) t[i] 1 := by
      rw [← hsame]
      exact readSrc_spends hsrc (hlen i hit)
    obtain ⟨_, hloop⟩ := fallBackWith_spends hlinks hread
      (fun k hk => inPattern_spends (readDes_spends hk) len)
      (fun i hi l hl => inPattern_spends (readNext_spends hl hi) len) hj.le hj hfall
    have hrest : (if (if t[i] = d then k + 1 else k) = des.length
        then some ((i : ℤ) - des.length + 1)
        else kmpMatchFrom src des next todo (i + 1) (if t[i] = d then k + 1 else k)) = some r := by
      rw [← hrun]
      simp [kmpMatchFrom, List.getElem?_eq_getElem hsrc, hsame, hfall, hd]
    have hgrown : (if t[i] = d then k + 1 else k) ≤ k + 1 := by
      split <;> omega
    rw [kmpMatchFromTraced]
    refine hloop.bind (by omega) (hread.bind (by omega) ?_)
    refine (inPattern_spends (readDes_spends hk) len).bind (by omega) ?_
    rw [← hd']
    generalize (if t[i] = d then k + 1 else k) = j' at hrest hgrown hnew ⊢
    change Spends _ (if j' = des.length then _ else _) _ _
    split
    · rename_i hfull
      rw [if_pos hfull, Option.some.injEq] at hrest
      rw [← hrest]
      exact .pure _ _
    · rename_i hpart
      rw [if_neg hpart] at hrest
      have hbound := hnew.overlaps.1
      exact (ih (by omega) (by omega) hnew hrest).mono (by omega)

/-- A search for a pattern of 1 to 256 bytes returns what `KMP_Match` returns. Its loops read the
text below the received length only, read and write the arrays of the pattern at the pattern's
indices only, and make at most eight accesses for each byte of the pattern and seven for each
byte of the text. -/
theorem kmpMatch_linear {src des : List UInt8} {len : ℤ} (hpos : 1 ≤ des.length)
    (hdes : des.length ≤ 256) (hlen : len ≤ src.length) :
    ∃ r accesses, (kmpMatchTraced src des len).run [] = some (r, accesses) ∧
      kmpMatch src des len = some r ∧
      (∀ a ∈ accesses, a.Inside len des.length) ∧
      accesses.length ≤ 8 * des.length + 7 * len.toNat := by
  have hroom : des.length ≤ (List.replicate maxRecvBufSize (0 : ℕ)).length := by
    rwa [List.length_replicate]
  obtain ⟨next, hnext, _, hlinks⟩ := kmpGetNext_links hpos hroom
  have htable := inPattern_spends (kmpGetNextTraced_spends hpos hroom hnext) len
  have hmatch := kmpMatch_eq (List.length_pos_iff.mp hpos) hdes hlen
  generalize position (firstOccurrence des (src.take len.toNat)) = r at hmatch
  have hfrom : kmpMatchFrom src des next len.toNat 0 0 = some r := by
    rw [← hmatch]
    simp [kmpMatch, hnext]
  have htext : (src.take len.toNat).length = len.toNat := by
    rw [List.length_take]
    omega
  have hsearch : Spends (SearchAccess.Inside len des.length) (kmpMatchTraced src des len) r
      (8 * des.length + 7 * len.toNat) := by
    rw [kmpMatchTraced]
    refine htable.bind (by omega) ?_
    refine (kmpMatchFromTraced_spends hlinks (List.take_prefix len.toNat src) (by omega)
      (by omega) hpos ?_ hfrom).mono (by omega)
    simpa using isLongest_nil des
  obtain ⟨accesses, hrun, hinside, hlength⟩ := hsearch []
  rw [List.append_nil] at hrun
  exact ⟨r, accesses, hrun, hmatch, hinside, hlength⟩

/-- `aab` is found in `␀aaabaab` with at most 80 accesses. -/
theorem kmpMatch_linear_aab :
    ∃ r accesses, (kmpMatchTraced [0, 97, 97, 97, 98, 97, 97, 98] [97, 97, 98] 8).run [] =
        some (r, accesses) ∧
      kmpMatch [0, 97, 97, 97, 98, 97, 97, 98] [97, 97, 98] 8 = some r ∧
      (∀ a ∈ accesses, a.Inside 8 3) ∧ accesses.length ≤ 8 * 3 + 7 * 8 :=
  kmpMatch_linear (by decide) (by decide) (by decide)

end PyModules.Lte
