import Mathlib.Data.List.TakeWhile
import PyModules.Pwm.Reports

/-!
# The kernel driver behind the attribute files

The driver accepts a period or a duty cycle if the pair it would then have is valid.
`attrs` and `rate` write a duty cycle of 0, the period, and the duty cycle; this order is
accepted whatever the channel was set to before.
-/

namespace PyModules.Pwm

/-- The settings of a channel, in nanoseconds. -/
structure Driver where
  period : ℤ
  dutyCycle : ℤ
  deriving DecidableEq, Repr

/-- The rule of the driver. -/
def Driver.Valid (d : Driver) : Prop := 0 < d.period ∧ 0 ≤ d.dutyCycle ∧ d.dutyCycle ≤ d.period

instance (d : Driver) : Decidable d.Valid := inferInstanceAs (Decidable (_ ∧ _ ∧ _))

/-- The number that a string written to an attribute denotes, up to its first NUL. -/
def number (data : List UInt8) : Option ℤ :=
  Decimal.read ((data.takeWhile (· ≠ 0)).map fun b => Char.ofNat b.toNat)

/-- The settings that a write to a file of the channel asks for. -/
def Driver.request (chip : ℤ) (d : Driver) (w : Write) : Option Driver := do
  let v ← number w.data
  if w.path = chipPath chip "pwm0/period" then some { d with period := v }
  else if w.path = chipPath chip "pwm0/duty_cycle" then some { d with dutyCycle := v }
  else none

/-- One write, which is refused unless it asks for valid settings. The rule decides, not the
answer that the log recorded. -/
def Driver.store (chip : ℤ) (d : Driver) (w : Write) : Option Driver :=
  (d.request chip w).filter fun d' => d'.Valid

/-- The settings after a list of writes, if none is refused. -/
def Driver.storeAll (chip : ℤ) (d : Driver) (ws : List Write) : Option Driver :=
  ws.foldlM (Driver.store chip) d

/-- The driver takes the writes one after the other, with valid settings in between, and
three of them bring it to the target. -/
structure Driver.Takes (chip : ℤ) (d : Driver) (ws : List Write) (target : Driver) : Prop where
  accepted : ∀ n, ∃ d', d.storeAll chip (ws.take n) = some d' ∧ d'.Valid
  final : ws.length = 3 → d.storeAll chip ws = some target

/-- The names that `attrs` and `rate` use are those of the chip. -/
structure Paths.Names (vars : Paths) (chip : ℤ) : Prop where
  period : vars.periodpath = chipPath chip "pwm0/period"
  cycles : vars.cyclespath = chipPath chip "pwm0/duty_cycle"

/-- Calls of `attrs` and `rate`, and the settings they ask for. -/
inductive Targets (longBits : ℕ) : Call → ReconfigureEnv → Driver → Prop
  | attrs {a b : PyAtom} {period dutyCycle : ℤ} {env : ReconfigureEnv}
      (ha : a.intValue = some period) (hb : b.intValue = some dutyCycle) (hpos : 0 < period)
      (hduty : 0 ≤ dutyCycle) (hle : dutyCycle ≤ period)
      (hfits : period * 10 ^ 6 < 2 ^ (longBits - 1)) :
    Targets longBits (.attrs [.atom a, .atom b] env) env ⟨period * 10 ^ 6, dutyCycle * 10 ^ 6⟩
  | rate {a : PyAtom} {r : ℤ} {env : ReconfigureEnv} (ha : a.intValue = some r) (hpos : 1 ≤ r)
      (hle : r ≤ 10 ^ 9) :
    Targets longBits (.rate [.atom a] env) env ⟨10 ^ 9 / r, 10 ^ 9 / r / 2⟩

/-! ## Numbers in attribute files -/

/-- The bytes of an ASCII string without NUL, up to a NUL after them, give the string back. -/
theorem number_eq_read {s : String} (h : ∀ c ∈ s.toList, 0 < c.toNat ∧ c.toNat < 128)
    (data : List UInt8) (hdata : data.takeWhile (· ≠ 0) = (lit s).takeWhile (· ≠ 0)) :
    number data = Decimal.read s.toList := by
  have hbyte : ∀ c ∈ s.toList, c.toNat.toUInt8.toNat = c.toNat := by
    intro c hc
    have hrange := h c hc
    simp [Nat.toUInt8, UInt8.toNat_ofNat']
    omega
  have hnul : ∀ b ∈ lit s, b ≠ 0 := by
    intro b hb hzero
    obtain ⟨c, hc, rfl⟩ := List.mem_map.mp hb
    have hpos := (h c hc).1
    rw [← hbyte c hc, hzero] at hpos
    exact absurd hpos (by decide)
  have hwhole : (lit s).takeWhile (· ≠ 0) = lit s := by
    rw [List.takeWhile_eq_self_iff]
    simpa using hnul
  have hchars : (lit s).map (fun b => Char.ofNat b.toNat) = s.toList := by
    rw [lit, List.map_map]
    refine (List.map_congr_left fun c hc => ?_).trans (List.map_id _)
    simp [hbyte c hc]
  rw [number, hdata, hwhole, hchars]

/-- The driver reads the number that was printed. -/
theorem number_decimal (v : ℤ) : number (decimal v) = some v := by
  have hascii := fun c hc => (Decimal.isNumeral_of_mem_toString (v := v) (c := c) hc).ascii
  rw [number_eq_read hascii (decimal v) rfl, Decimal.read_toString]

/-- The driver reads a decimal literal, with its NUL, as its number. -/
theorem number_cstr (v : ℤ) : number (cstr (toString v)) = some v := by
  have hascii := fun c hc => (Decimal.isNumeral_of_mem_toString (v := v) (c := c) hc).ascii
  have hdata : (cstr (toString v)).takeWhile (· ≠ 0) = (lit (toString v)).takeWhile (· ≠ 0) := by
    rw [cstr, List.takeWhile_append]
    split
    · rename_i hall
      rw [(List.takeWhile_prefix _).eq_of_length hall]
      simp
    · rfl
  rw [number_eq_read hascii _ hdata, Decimal.read_toString]

/-- The driver reads `"0"` as 0. -/
theorem number_zero : number (cstr "0") = some 0 := number_cstr 0

/-! ## The driver and the three writes -/

/-- Files of a chip differ if their names in its directory do. -/
theorem chipPath_ne_chipPath {chip : ℤ} {file file' : String} (h : file ≠ file') :
    chipPath chip file ≠ chipPath chip file' := by
  intro heq
  unfold chipPath at heq
  have hlist := congrArg String.toList heq
  simp only [String.toList_append, List.append_assoc] at hlist
  have hrest := List.append_cancel_left (List.append_cancel_left (List.append_cancel_left hlist))
  exact h (String.toList_injective hrest)

/-- An accepted write of the period. -/
theorem store_period (chip : ℤ) {v : ℤ} {d : Driver} {data : List UInt8}
    (hnumber : number data = some v) (hvalid : (Driver.mk v d.dutyCycle).Valid)
    (accepted : Bool) :
    d.store chip ⟨chipPath chip "pwm0/period", data, accepted⟩ = some ⟨v, d.dutyCycle⟩ := by
  simp [Driver.store, Driver.request, hnumber, hvalid]

/-- An accepted write of the duty cycle. -/
theorem store_dutyCycle (chip : ℤ) {v : ℤ} {d : Driver} {data : List UInt8}
    (hnumber : number data = some v) (hvalid : (Driver.mk d.period v).Valid) (accepted : Bool) :
    d.store chip ⟨chipPath chip "pwm0/duty_cycle", data, accepted⟩ = some ⟨d.period, v⟩ := by
  have hne : chipPath chip "pwm0/duty_cycle" ≠ chipPath chip "pwm0/period" :=
    chipPath_ne_chipPath (by decide)
  simp [Driver.store, Driver.request, hnumber, hvalid, hne]

/-- Accepted writes lead to valid settings. -/
theorem valid_of_store {chip : ℤ} {d d' : Driver} {w : Write} (h : d.store chip w = some d') :
    d'.Valid := by
  simpa using (Option.filter_eq_some_iff.mp h).2

/-- Writes are all accepted if the first one is, and the others after it. -/
theorem storeAll_cons_eq_some {chip : ℤ} {d d' : Driver} {w : Write} {ws : List Write} :
    d.storeAll chip (w :: ws) = some d' ↔
      ∃ d1, d.store chip w = some d1 ∧ d1.storeAll chip ws = some d' := by
  simp only [Driver.storeAll, List.foldlM_cons, Option.bind_eq_bind, Option.bind_eq_some_iff]

/-- Writes that are all accepted lead through valid settings only. -/
theorem valid_of_storeAll {chip : ℤ} {ws : List Write} {d d' : Driver} (hd : d.Valid)
    (h : d.storeAll chip ws = some d') (n : ℕ) :
    ∃ d1, d.storeAll chip (ws.take n) = some d1 ∧ d1.Valid := by
  induction ws generalizing d n with
  | nil => exact ⟨d, by simp [Driver.storeAll], hd⟩
  | cons w ws ih =>
    cases n with
    | zero => exact ⟨d, by simp [Driver.storeAll], hd⟩
    | succ n =>
      obtain ⟨d1, hstore, hrest⟩ := storeAll_cons_eq_some.mp h
      obtain ⟨d2, htake, hvalid⟩ := ih (valid_of_store hstore) hrest n
      exact ⟨d2, storeAll_cons_eq_some.mpr ⟨d1, hstore, htake⟩, hvalid⟩

/-- The three writes of `attrs` and `rate` bring the driver from any valid settings to any
valid target. -/
theorem storeAll_reconfigureLog {vars : Paths} {chip : ℤ} (hvars : vars.Names chip) {d : Driver}
    (hd : d.Valid) {target : Driver} (htarget : target.Valid) (env : ReconfigureEnv) :
    d.storeAll chip (reconfigureLog vars target.period target.dutyCycle env) = some target := by
  obtain ⟨hperiod, hnonneg, hle⟩ := htarget
  -- A duty cycle of 0 is valid with the old period and with the new one.
  have hcleared : (Driver.mk d.period 0).Valid := ⟨hd.1, le_rfl, hd.1.le⟩
  have hlengthened : (Driver.mk target.period 0).Valid := ⟨hperiod, le_rfl, hperiod.le⟩
  have hfirst := store_dutyCycle chip number_zero hcleared env.cleared.accepts
  have hsecond := store_period chip (d := ⟨d.period, 0⟩)
    (number_decimal target.period) hlengthened env.period.accepts
  have hthird := store_dutyCycle chip (d := ⟨target.period, 0⟩)
    (number_decimal target.dutyCycle) ⟨hperiod, hnonneg, hle⟩ env.dutyCycle.accepts
  simp [Driver.storeAll, reconfigureLog, hvars.period, hvars.cycles, hfirst, hsecond, hthird]

/-! ## The numbers that `attrs` and `rate` write -/

/-- An `unsigned long` ranges over twice the non-negative values of `long`. -/
theorem two_pow_eq_double {longBits : ℕ} (hbits : 32 ≤ longBits) :
    (2 : ℤ) ^ longBits = 2 * 2 ^ (longBits - 1) := by
  rw [← pow_succ', Nat.sub_add_cancel (by omega)]

/-- A number in the range of `long` is not wrapped. -/
theorem toLong_of_fits {longBits : ℕ} (hbits : 32 ≤ longBits) {v : ℤ} (hnonneg : 0 ≤ v)
    (hfits : v < 2 ^ (longBits - 1)) : toLong longBits v = v := by
  have hhalf := two_pow_eq_double hbits
  refine Int.bmod_eq_of_le_mul_two ?_ ?_ <;> push_cast <;> omega

/-- A non-negative number in the range of `long` is converted unchanged. -/
theorem convertLong_of_fits {longBits : ℕ} (hbits : 32 ≤ longBits) {a : PyAtom} {v : ℤ}
    (ha : a.intValue = some v) (hnonneg : 0 ≤ v) (hfits : v < 2 ^ (longBits - 1)) :
    convertLong longBits (.atom a) = some v := by
  have hhalf := two_pow_eq_double hbits
  have hmod : v % 2 ^ longBits = v := Int.emod_eq_of_lt hnonneg (by omega)
  simp [convertLong, convertULong, ha, hmod, toLong_of_fits hbits hnonneg hfits]

/-- Scaling within the range of `long`. -/
theorem scale_of_fits {longBits : ℕ} (hbits : 32 ≤ longBits) {v : ℤ} (hnonneg : 0 ≤ v)
    (hfits : v * 10 ^ 6 < 2 ^ (longBits - 1)) : scale longBits v = v * 10 ^ 6 := by
  have hthousand : toLong longBits (v * 1000) = v * 1000 :=
    toLong_of_fits hbits (by omega) (by omega)
  rw [scale, hthousand, toLong_of_fits hbits (by omega) (by omega)]
  omega

/-- The call is a `reconfigure` with the target as its values, and the target is valid. -/
theorem Targets.body_eq {longBits : ℕ} (hbits : 32 ≤ longBits) {c : Call} {env : ReconfigureEnv}
    {target : Driver} (h : Targets longBits c env target) :
    c.body longBits = reconfigure target.period target.dutyCycle env ∧ target.Valid := by
  cases h with
  | @attrs a b period dutyCycle env ha hb hpos hduty hle hfits =>
    have hconvert : parseAttrs longBits [.atom a, .atom b] = some (period, dutyCycle) := by
      simp [parseAttrs, convertLong_of_fits hbits ha (by omega) (by omega),
        convertLong_of_fits hbits hb hduty (by omega)]
    constructor
    · simp only [Call.body, Pwm.attrs, hconvert, scale_of_fits hbits (by omega) hfits,
        scale_of_fits hbits hduty (by omega)]
    · refine ⟨?_, ?_, ?_⟩ <;> simp only <;> omega
  | @rate a r env ha hpos hle =>
    have hlong : (2 : ℤ) ^ 31 ≤ 2 ^ (longBits - 1) := by
      exact_mod_cast Nat.pow_le_pow_right (by omega) (by omega)
    have hconvert : parseOne (convertLong longBits) [.atom a] = some r := by
      simp only [parseOne]
      exact convertLong_of_fits hbits ha (by omega) (by omega)
    have hquotient : 1 ≤ (10 : ℤ) ^ 9 / r := Int.le_ediv_of_mul_le (by omega) (by omega)
    constructor
    · have hdiv : Int.tdiv (1000 * 1000 * 1000) r = 10 ^ 9 / r :=
        Int.tdiv_eq_ediv_of_nonneg (by omega)
      have hhalf : Int.tdiv (10 ^ 9 / r) 2 = 10 ^ 9 / r / 2 :=
        Int.tdiv_eq_ediv_of_nonneg (by omega)
      simp only [Call.body, Pwm.rate, hconvert, if_neg (show ¬r ≤ 0 by omega), hdiv, hhalf]
    · refine ⟨?_, ?_, ?_⟩ <;> simp only <;> omega

/-- `attrs` and `rate` write in an order that the driver accepts from any valid settings:
every write is accepted, the settings in between are valid, and the last are the target. -/
theorem reconfigure_taken {longBits : ℕ} (hbits : 32 ≤ longBits) {mem : Mem} {chip : ℤ}
    (hvars : mem.vars.Names chip) {d : Driver} (hd : d.Valid) {c : Call} {env : ReconfigureEnv}
    {target : Driver} (htarget : Targets longBits c env target) (hopens : env.Opens mem.vars) :
    ∃ r s' ws, exec longBits mem c = .ok (r, s') ∧ s'.mem.log = mem.log ++ ws ∧
      d.Takes chip ws target ∧ (env.Buffers → r = pyTrue ∧ ws.length = 3) := by
  obtain ⟨hbody, hvalid⟩ := htarget.body_eq hbits
  obtain ⟨r, s', n, hrun, hlog, hall⟩ :=
    run_reconfigure (s := ⟨none, mem⟩) hopens target.period target.dutyCycle
  have hwhole := storeAll_reconfigureLog hvars hd hvalid env
  refine ⟨r, s', _, by rw [exec, hbody, hrun], hlog, ⟨fun m => ?_, fun hthree => ?_⟩, ?_⟩
  · rw [List.take_take]
    exact valid_of_storeAll hd hwhole _
  · have hn : 3 ≤ n := by
      rw [List.length_take] at hthree
      omega
    rw [List.take_of_length_le hn]
    exact hwhole
  · intro hbuffers
    obtain ⟨hr, _, rfl⟩ := hall hbuffers
    exact ⟨hr, rfl⟩

/-- The memory with the names of the first chip. -/
def namedFirst : Mem := ⟨Paths.of 0, Heap.empty, Heap.empty, []⟩

/-- Files that work, for each of the three writes of `attrs` and `rate`. -/
def ReconfigureEnv.works : ReconfigureEnv := ⟨.works, .works, .works⟩

/-- The files of the first chip open. -/
theorem works_opens_namedFirst : ReconfigureEnv.works.Opens namedFirst.vars := by
  have hopens : ∀ file, FileOutcome.works.Opens (chipPath 0 file) := fun _ => by
    simp [FileOutcome.works]
  exact ⟨hopens _, hopens _, hopens _⟩

/-- From the defaults of `new_pwm`, `attrs(20, 10)` brings the channel to 20 ms and 10 ms. -/
theorem attrs_taken_from_defaults :
    ∃ s' ws, exec 32 namedFirst
        (.attrs [.atom (.int 20), .atom (.int 10)] ⟨.works, .works, .works⟩) = .ok (pyTrue, s') ∧
      s'.mem.log = ws ∧ ws.length = 3 ∧
      (Driver.mk 1000000000 500000000).Takes 0 ws ⟨20 * 10 ^ 6, 10 * 10 ^ 6⟩ := by
  have htarget : Targets 32
      (.attrs [.atom (.int 20), .atom (.int 10)] ⟨.works, .works, .works⟩)
      ⟨.works, .works, .works⟩ ⟨20 * 10 ^ 6, 10 * 10 ^ 6⟩ :=
    .attrs rfl rfl (by decide) (by decide) (by decide) (by decide)
  have hvars : namedFirst.vars.Names 0 := ⟨rfl, rfl⟩
  have hdefaults : (Driver.mk 1000000000 500000000).Valid := by decide
  obtain ⟨r, s', ws, hrun, hlog, htakes, hall⟩ := reconfigure_taken le_rfl hvars hdefaults htarget
    works_opens_namedFirst
  obtain ⟨rfl, hlength⟩ := hall ⟨rfl, rfl, rfl⟩
  exact ⟨s', ws, hrun, hlog, hlength, htakes⟩

end PyModules.Pwm
