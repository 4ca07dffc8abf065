import PyModules.Pwm.Driver

/-!
# The defaults of `new_pwm`

`new_pwm` writes a period of one second before a duty cycle of half a second, and no duty
cycle of 0 before that. On a channel that is in use, the driver accepts this order only
while the duty cycle it has is at most one second.
-/

namespace PyModules.Pwm

/-- The settings that `new_pwm` writes. -/
def Driver.defaults : Driver := ⟨1000000000, 500000000⟩

/-- The settings after one write, which changes nothing if it is refused. -/
def Driver.take (chip : ℤ) (d : Driver) (w : Write) : Driver := (d.store chip w).getD d

/-- The settings after a list of writes. -/
def Driver.settle (chip : ℤ) (d : Driver) (ws : List Write) : Driver :=
  ws.foldl (Driver.take chip) d

/-- A module together with the driver behind the channel of one chip. -/
structure Plant where
  mem : Mem
  driver : Driver

/-- One call, with its writes handed to the driver. -/
def plantStep (longBits : ℕ) (chip : ℤ) (p : Plant) (c : Call) : Except Fault Plant :=
  (exec longBits p.mem c).map fun r =>
    ⟨r.2.mem, p.driver.settle chip (r.2.mem.log.drop p.mem.log.length)⟩

/-- A `new_pwm` for an exported channel of the chip whose files all work. -/
structure Reopens (chip : ℤ) (args : List PyObject) (env : NewEnv) : Prop where
  channel : channel args = some chip
  exported : env.exported
  exportOpens : env.exportFile.opens
  unexportOpens : env.unexportFile.opens
  period : env.WritesPeriod
  duty : env.WritesDuty

/-- A `new_pwm` for an exported channel has every write accepted, and ends with the defaults. -/
def Establishes (longBits : ℕ) (chip : ℤ) (p : Plant) (c : Call) : Prop :=
  ∀ args env, c = .newPwm args env → Reopens chip args env →
    ∃ s' ws, exec longBits p.mem c = .ok (pyTrue, s') ∧ s'.mem.log = p.mem.log ++ ws ∧
      p.driver.storeAll chip ws = some Driver.defaults

/-- A `new_pwm` for an exported channel finds a duty cycle of at most one second. -/
def FindsShortDuty (chip : ℤ) (p : Plant) (c : Call) : Prop :=
  ∀ args env, c = .newPwm args env → Reopens chip args env → p.driver.dutyCycle ≤ 10 ^ 9

/-- One write keeps the settings valid. -/
theorem valid_take {chip : ℤ} {d : Driver} (hd : d.Valid) (w : Write) : (d.take chip w).Valid := by
  unfold Driver.take
  rcases hstore : d.store chip w with _ | d'
  · exact hd
  · exact valid_of_store hstore

/-- Settings stay valid, whatever is written. -/
theorem valid_settle {chip : ℤ} {d : Driver} (hd : d.Valid) (ws : List Write) :
    (d.settle chip ws).Valid := by
  induction ws generalizing d with
  | nil => exact hd
  | cons w ws ih => exact ih (valid_take hd w)

/-- The driver takes the two defaults, the period first, precisely if its duty cycle is at most
the default period. -/
theorem storeAll_defaults_iff {chip : ℤ} {d : Driver} (hd : d.Valid) (env : NewEnv) :
    d.storeAll chip [periodWrite chip env, dutyWrite chip env] = some Driver.defaults ↔
      d.dutyCycle ≤ 10 ^ 9 := by
  have hperiod : number (cstr "1000000000") = some 1000000000 := number_cstr 1000000000
  have hduty : number (cstr "500000000") = some 500000000 := number_cstr 500000000
  constructor
  · intro htaken
    obtain ⟨d1, hstore, _⟩ := storeAll_cons_eq_some.mp htaken
    have hvalid := valid_of_store hstore
    have hrequest := (Option.filter_eq_some_iff.mp hstore).1
    obtain rfl : (⟨1000000000, d.dutyCycle⟩ : Driver) = d1 := by
      simpa [Driver.request, periodWrite, hperiod] using hrequest
    exact hvalid.2.2
  · intro hle
    have hlengthened : (Driver.mk 1000000000 d.dutyCycle).Valid := ⟨by simp, hd.2.1, hle⟩
    have hdefaults : (Driver.mk 1000000000 500000000).Valid := by decide
    have hfirst := store_period chip hperiod hlengthened env.periods.accepts
    have hsecond := store_dutyCycle chip (d := ⟨1000000000, d.dutyCycle⟩) hduty hdefaults
      env.dutyCycles.accepts
    simp [Driver.storeAll, periodWrite, dutyWrite, hfirst, hsecond, Driver.defaults]

/-- With working files and an exported channel, `new_pwm` writes the two defaults only. -/
theorem exec_newPwm_of_reopens {chip : ℤ} {args : List PyObject} {env : NewEnv}
    (h : Reopens chip args env) (longBits : ℕ) (mem : Mem) :
    ∃ s', exec longBits mem (.newPwm args env) = .ok (pyTrue, s') ∧
      s'.mem.log = mem.log ++ [periodWrite chip env, dutyWrite chip env] := by
  have hexports : env.Exports := ⟨h.exportOpens, h.unexportOpens, .inl h.exported⟩
  obtain ⟨r, s', hrun, houtcome⟩ := run_newPwm h.channel env ⟨none, mem⟩
  cases houtcome with
  | noExport hno => exact absurd hexports hno
  | noPeriod _ hno => exact absurd h.period hno
  | noDuty _ _ hno => exact absurd h.duty hno
  | opened _ _ _ files dirs =>
    refine ⟨_, hrun, ?_⟩
    simp [exportLog, h.exported]

/-- On valid settings, a call establishes the defaults precisely if it finds a short duty
cycle. -/
theorem establishes_iff {longBits : ℕ} {chip : ℤ} {p : Plant} (hvalid : p.driver.Valid)
    (c : Call) : Establishes longBits chip p c ↔ FindsShortDuty chip p c := by
  unfold Establishes FindsShortDuty
  refine forall_congr' fun args => forall_congr' fun env => ?_
  refine imp_congr_right fun hc => imp_congr_right fun hreopens => ?_
  subst hc
  obtain ⟨s', hrun, hlog⟩ := exec_newPwm_of_reopens hreopens longBits p.mem
  rw [← storeAll_defaults_iff hvalid env]
  constructor
  · rintro ⟨s1, ws, hrun1, hlog1, htaken⟩
    rw [hrun] at hrun1
    obtain rfl : s' = s1 := by simpa using hrun1
    have hws := List.append_cancel_left (hlog.symm.trans hlog1)
    rwa [hws]
  · intro htaken
    exact ⟨s', _, hrun, hlog, htaken⟩

/-- From any valid settings, every `new_pwm` for an exported channel establishes its defaults
precisely along the runs in which each of them finds a duty cycle of at most one second. -/
theorem defaults_established_iff (longBits : ℕ) (chip : ℤ) (mem : Mem) {d : Driver}
    (hd : d.Valid) (calls : List Call) :
    Runs.Always (plantStep longBits chip) (Establishes longBits chip) ⟨mem, d⟩ calls ↔
      Runs.Always (plantStep longBits chip) (FindsShortDuty chip) ⟨mem, d⟩ calls := by
  refine Runs.always_iff_always (I := fun p => p.driver.Valid) ?_ ?_ hd calls
  · intro p c hvalid
    exact establishes_iff hvalid c
  · intro p c p' hvalid _ hstep
    obtain ⟨r, _, rfl⟩ := map_eq_ok.mp hstep
    exact valid_settle hvalid _

/-! ## A channel in use -/

/-- Writes that are all accepted settle where they lead. -/
theorem settle_of_storeAll {chip : ℤ} {ws : List Write} {d d' : Driver}
    (h : d.storeAll chip ws = some d') : d.settle chip ws = d' := by
  induction ws generalizing d with
  | nil => exact Option.some.inj h
  | cons w ws ih =>
    obtain ⟨d1, hstore, hrest⟩ := storeAll_cons_eq_some.mp h
    have htake : d.take chip w = d1 := by simp [Driver.take, hstore]
    rw [Driver.settle, List.foldl_cons, htake]
    exact ih hrest

/-- `attrs` and `rate` leave the driver at their target. -/
theorem plantStep_of_targets {longBits : ℕ} (hbits : 32 ≤ longBits) {chip : ℤ} {p : Plant}
    (hvars : p.mem.vars.Names chip) (hvalid : p.driver.Valid) {c : Call} {env : ReconfigureEnv}
    {target : Driver} (htarget : Targets longBits c env target) (hopens : env.Opens p.mem.vars)
    (hbuffers : env.Buffers) :
    ∃ mem, plantStep longBits chip p c = .ok ⟨mem, target⟩ := by
  obtain ⟨r, s', ws, hrun, hlog, htakes, hall⟩ :=
    reconfigure_taken hbits hvars hvalid htarget hopens
  obtain ⟨_, hlength⟩ := hall hbuffers
  have hsettle := settle_of_storeAll (htakes.final hlength)
  refine ⟨s'.mem, map_eq_ok.mpr ⟨_, hrun, ?_⟩⟩
  simp only [hlog, List.drop_left, hsettle]

/-- The module with the names of the first chip, and the driver at the defaults. -/
def opened : Plant := ⟨namedFirst, Driver.defaults⟩

/-- `attrs(v, v)` with working files. -/
def attrsBoth (v : ℤ) : Call := .attrs [.atom (.int v), .atom (.int v)] .works

/-- `attrs(v, v)` brings an opened channel to a duty cycle of `v` milliseconds. -/
theorem plantStep_attrsBoth {v : ℤ} (hpos : 0 < v) (hfits : v * 10 ^ 6 < 2 ^ 31) :
    ∃ mem, plantStep 32 0 opened (attrsBoth v) = .ok ⟨mem, ⟨v * 10 ^ 6, v * 10 ^ 6⟩⟩ := by
  have htarget : Targets 32 (attrsBoth v) .works ⟨v * 10 ^ 6, v * 10 ^ 6⟩ :=
    .attrs rfl rfl hpos hpos.le le_rfl hfits
  have hdefaults : Driver.defaults.Valid := by decide
  exact plantStep_of_targets le_rfl ⟨rfl, rfl⟩ hdefaults htarget works_opens_namedFirst
    ⟨rfl, rfl, rfl⟩

/-- `new_pwm(1)` for an exported channel whose files all work. -/
theorem reopens_openFirst :
    Reopens 0 [.atom (.int 1)] ⟨.works, .works, true, .works, .works⟩ :=
  ⟨rfl, rfl, rfl, rfl, ⟨rfl, rfl⟩, ⟨rfl, rfl⟩⟩

/-- After `attrs(1000, 1000)`, `new_pwm(1)` establishes its defaults. -/
theorem defaults_after_attrs_1000 :
    Runs.Always (plantStep 32 0) (Establishes 32 0) opened [attrsBoth 1000, openFirst] := by
  obtain ⟨mem, hattrs⟩ := plantStep_attrsBoth (v := 1000) (by decide) (by decide)
  have hdefaults : Driver.defaults.Valid := by decide
  refine (defaults_established_iff 32 0 namedFirst hdefaults _).mpr ⟨?_, fun p hp => ⟨?_, ?_⟩⟩
  · exact fun _ _ hc => Call.noConfusion hc
  · obtain rfl := Except.ok.inj (hattrs.symm.trans hp)
    exact fun _ _ _ _ => show (1000 * 10 ^ 6 : ℤ) ≤ 10 ^ 9 by decide
  · exact fun _ _ => trivial

/-- After `attrs(2000, 2000)`, the driver refuses the period that `new_pwm(1)` writes. -/
theorem defaults_refused_after_attrs_2000 :
    ¬Runs.Always (plantStep 32 0) (Establishes 32 0) opened [attrsBoth 2000, openFirst] := by
  intro h
  obtain ⟨mem, hattrs⟩ := plantStep_attrsBoth (v := 2000) (by decide) (by decide)
  have hvalid : (Driver.mk (2000 * 10 ^ 6) (2000 * 10 ^ 6)).Valid := by decide
  have hshort := (establishes_iff hvalid openFirst).mp (h.2 _ hattrs).1 _ _ rfl reopens_openFirst
  exact absurd hshort (show ¬(2000 * 10 ^ 6 : ℤ) ≤ 10 ^ 9 by decide)

end PyModules.Pwm
