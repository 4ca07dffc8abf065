import PyModules.Pwm.Driver

/-!
# The numbers that `attrs` and `rate` write

On the 32-bit target, arguments are kept modulo `2 ^ 32`, read back as a signed `long`,
and multiplied twice. The strings in the attribute files then denote the numbers that the
caller means only as long as nothing wraps.
-/

namespace PyModules.Pwm

/-- The files that were written, and the numbers that the strings denote. -/
def numbers (ws : List Write) : List (String × Option ℤ) := ws.map fun w => (w.path, number w.data)

/-- The call writes its three values, and the strings denote a duty cycle of 0, the period,
and the duty cycle of the target. -/
def WritesExactly (longBits : ℕ) (mem : Mem) (c : Call) (target : Driver) : Prop :=
  ∃ s' ws, exec longBits mem c = .ok (pyTrue, s') ∧ s'.mem.log = mem.log ++ ws ∧
    numbers ws = [(mem.vars.cyclespath, some 0), (mem.vars.periodpath, some target.period),
      (mem.vars.cyclespath, some target.dutyCycle)]

/-- The strings denote the numbers that were printed. -/
theorem numbers_reconfigureLog (vars : Paths) (period dutyCycle : ℤ) (env : ReconfigureEnv) :
    numbers (reconfigureLog vars period dutyCycle env) =
      [(vars.cyclespath, some 0), (vars.periodpath, some period),
        (vars.cyclespath, some dutyCycle)] := by
  simp [numbers, reconfigureLog, number_zero, number_decimal]

/-- With files that open and buffer, a `reconfigure` writes the target precisely when it is
given the target. -/
theorem writesExactly_iff {longBits : ℕ} {mem : Mem} {c : Call} {period dutyCycle : ℤ}
    {env : ReconfigureEnv} (hbody : c.body longBits = reconfigure period dutyCycle env)
    (hopens : env.Opens mem.vars) (hbuffers : env.Buffers) (target : Driver) :
    WritesExactly longBits mem c target ↔
      period = target.period ∧ dutyCycle = target.dutyCycle := by
  obtain ⟨r, s', n, hrun, hlog, hall⟩ :=
    run_reconfigure (s := ⟨none, mem⟩) hopens period dutyCycle
  obtain ⟨rfl, _, rfl⟩ := hall hbuffers
  rw [← hbody] at hrun
  have hwrites := numbers_reconfigureLog mem.vars period dutyCycle env
  rw [List.take_of_length_le (by simp [reconfigureLog])] at hlog
  constructor
  · rintro ⟨s1, ws, hrun1, hlog1, hnumbers⟩
    rw [exec, hrun] at hrun1
    obtain rfl : s' = s1 := by simpa using hrun1
    have hws := List.append_cancel_left (hlog.symm.trans hlog1)
    rw [← hws, hwrites] at hnumbers
    simpa using hnumbers
  · rintro ⟨rfl, rfl⟩
    exact ⟨s', _, hrun, hlog, hwrites⟩

/-- Results of scaling are in the range of `long`. -/
theorem scale_lt (v : ℤ) : scale 32 v < 2 ^ 31 := by
  have hlt := Int.bmod_lt (x := toLong 32 (v * 1000) * 1000) (m := 2 ^ 32) (by omega)
  unfold scale toLong at *
  omega

/-- A number of milliseconds is converted and scaled exactly if it fits in a `long`. -/
theorem scale_exact_iff {a : PyAtom} {v : ℤ} (ha : a.intValue = some v) (hnonneg : 0 ≤ v) :
    ∃ w, convertLong 32 (.atom a) = some w ∧ (scale 32 w = v * 10 ^ 6 ↔ v * 10 ^ 6 < 2 ^ 31) := by
  by_cases hfits : v * 10 ^ 6 < 2 ^ 31
  · refine ⟨v, convertLong_of_fits le_rfl ha hnonneg (by omega), ?_⟩
    exact iff_of_true (scale_of_fits le_rfl hnonneg (by omega)) hfits
  · refine ⟨toLong 32 (v % 2 ^ 32), by simp [convertLong, convertULong, ha], ?_⟩
    have hlt := scale_lt (toLong 32 (v % 2 ^ 32))
    exact iff_of_false (fun heq => hfits (heq ▸ hlt)) hfits

/-- `attrs` is exact if both numbers, scaled, fit in a `long`. -/
theorem attrs_exact_iff {mem : Mem} {env : ReconfigureEnv} (hopens : env.Opens mem.vars)
    (hbuffers : env.Buffers) {a b : PyAtom} {period dutyCycle : ℤ}
    (ha : a.intValue = some period) (hb : b.intValue = some dutyCycle) (hperiod : 0 ≤ period)
    (hduty : 0 ≤ dutyCycle) :
    WritesExactly 32 mem (.attrs [.atom a, .atom b] env) ⟨period * 10 ^ 6, dutyCycle * 10 ^ 6⟩ ↔
      period * 10 ^ 6 < 2 ^ 31 ∧ dutyCycle * 10 ^ 6 < 2 ^ 31 := by
  obtain ⟨p, hp, hpexact⟩ := scale_exact_iff ha hperiod
  obtain ⟨d, hd, hdexact⟩ := scale_exact_iff hb hduty
  have hbody : (Call.attrs [.atom a, .atom b] env).body 32 =
      reconfigure (scale 32 p) (scale 32 d) env := by
    simp [Call.body, Pwm.attrs, parseAttrs, hp, hd]
  rw [writesExactly_iff hbody hopens hbuffers, hpexact, hdexact]

/-- A positive quotient has a positive divisor that is not greater than the dividend. -/
theorem rate_range_of_quotient {r : ℤ} (h : 1 ≤ Int.fdiv (10 ^ 9) r) : 1 ≤ r ∧ r ≤ 10 ^ 9 := by
  have hpos : 0 < r := by
    by_contra hle
    have := Int.fdiv_nonpos_of_nonneg_of_nonpos (a := 10 ^ 9) (by omega) (not_lt.mp hle)
    omega
  rw [Int.fdiv_eq_ediv_of_nonneg _ hpos.le, Int.le_ediv_iff_mul_le hpos] at h
  omega

/-- `rate` writes the quotients of the number passed, and a positive period, if the number is
between 1 and `10 ^ 9`. -/
theorem rate_exact_iff {mem : Mem} {env : ReconfigureEnv} (hopens : env.Opens mem.vars)
    (hbuffers : env.Buffers) {a : PyAtom} {r : ℤ} (ha : a.intValue = some r) :
    WritesExactly 32 mem (.rate [.atom a] env)
        ⟨Int.fdiv (10 ^ 9) r, Int.fdiv (Int.fdiv (10 ^ 9) r) 2⟩ ∧ 1 ≤ Int.fdiv (10 ^ 9) r ↔
      1 ≤ r ∧ r ≤ 10 ^ 9 := by
  constructor
  · rintro ⟨_, hquotient⟩
    exact rate_range_of_quotient hquotient
  · rintro ⟨hpos, hle⟩
    have htarget : Targets 32 (.rate [.atom a] env) env ⟨10 ^ 9 / r, 10 ^ 9 / r / 2⟩ :=
      .rate ha hpos hle
    have hfloor : Int.fdiv (10 ^ 9) r = 10 ^ 9 / r := Int.fdiv_eq_ediv_of_nonneg _ (by omega)
    have hhalf : Int.fdiv (10 ^ 9 / r) 2 = 10 ^ 9 / r / 2 :=
      Int.fdiv_eq_ediv_of_nonneg _ (by omega)
    obtain ⟨hbody, hvalid⟩ := htarget.body_eq le_rfl
    rw [hfloor, hhalf, writesExactly_iff hbody hopens hbuffers]
    exact ⟨⟨rfl, rfl⟩, hvalid.1⟩

/-- On the 32-bit target, with files that open and buffer: `attrs` writes the exact numbers
for non-negative arguments precisely when both products fit in a `long`, and a `rate` that
passes its check is exact, with a positive period, precisely for 1 to `10 ^ 9`. -/
theorem arithmetic_exact_iff {mem : Mem} {env : ReconfigureEnv} (hopens : env.Opens mem.vars)
    (hbuffers : env.Buffers) :
    (∀ a b period dutyCycle, PyAtom.intValue a = some period →
        PyAtom.intValue b = some dutyCycle → 0 ≤ period → 0 ≤ dutyCycle →
        (WritesExactly 32 mem (.attrs [.atom a, .atom b] env)
            ⟨period * 10 ^ 6, dutyCycle * 10 ^ 6⟩ ↔
          period * 10 ^ 6 < 2 ^ 31 ∧ dutyCycle * 10 ^ 6 < 2 ^ 31)) ∧
      ∀ a r, PyAtom.intValue a = some r → 0 < toLong 32 (r % 2 ^ 32) →
        (WritesExactly 32 mem (.rate [.atom a] env)
              ⟨Int.fdiv (10 ^ 9) r, Int.fdiv (Int.fdiv (10 ^ 9) r) 2⟩ ∧
            1 ≤ Int.fdiv (10 ^ 9) r ↔
          1 ≤ r ∧ r ≤ 10 ^ 9) := by
  constructor
  · intro a b period dutyCycle ha hb hperiod hduty
    exact attrs_exact_iff hopens hbuffers ha hb hperiod hduty
  · intro a r ha _
    exact rate_exact_iff hopens hbuffers ha

/-- `attrs(20, 10)` and `rate(50)` are exact. -/
theorem attrs_20_rate_50_exact :
    WritesExactly 32 namedFirst (.attrs [.atom (.int 20), .atom (.int 10)] .works)
        ⟨20 * 10 ^ 6, 10 * 10 ^ 6⟩ ∧
      WritesExactly 32 namedFirst (.rate [.atom (.int 50)] .works)
        ⟨Int.fdiv (10 ^ 9) 50, Int.fdiv (Int.fdiv (10 ^ 9) 50) 2⟩ := by
  obtain ⟨hattrs, hrate⟩ := arithmetic_exact_iff works_opens_namedFirst ⟨rfl, rfl, rfl⟩
  constructor
  · exact (hattrs _ _ 20 10 rfl rfl (by decide) (by decide)).mpr (by decide)
  · exact ((hrate _ 50 rfl (by decide)).mpr (by decide)).1

/-- `attrs(4295, 0)` asks for 4295 ms, and writes 32704 ns. -/
theorem attrs_4295_wraps :
    ¬WritesExactly 32 namedFirst (.attrs [.atom (.int 4295), .atom (.int 0)] .works)
      ⟨4295 * 10 ^ 6, 0 * 10 ^ 6⟩ := by
  rw [attrs_exact_iff works_opens_namedFirst ⟨rfl, rfl, rfl⟩ rfl rfl (by decide) (by decide)]
  decide

end PyModules.Pwm
