import PyModules.Pwm.Channels
import PyModules.Pwm.Defaults
import PyModules.Pwm.Paths

/-!
# Settings between the old and the new ones

A call that changes a channel needs several writes, and the channel runs with what each of them
leaves. `attrs` and `rate` set the duty cycle to 0 first, so that no period is combined with a
duty cycle that was meant for another one; `new_pwm` does not. This file says which runs keep
the settings whole: old, new, or with a duty cycle of 0.
-/

namespace PyModules.Pwm

/-- The settings after each of a list of writes. -/
def Driver.passes (chip : ℤ) (d : Driver) : List Write → List Driver
  | [] => []
  | w :: ws => d.take chip w :: (d.take chip w).passes chip ws

/-- The settings that a call asks for on the channel of a chip, if it is successful. -/
def Call.target (longBits : ℕ) (chip : ℤ) : Call → Option Driver
  | .newPwm args _ => if channel args = some chip then some Driver.defaults else none
  | c => (c.settings longBits).map fun v => ⟨v.1, v.2.1⟩

/-- Settings are whole after a call has begun: they are those it found, those it asks for, or
switch the output off. -/
def Whole (longBits : ℕ) (chip : ℤ) (found : Driver) (c : Call) (d : Driver) : Prop :=
  d = found ∨ d.dutyCycle = 0 ∨ c.target longBits chip = some d

/-- A call leaves whole settings after each of its writes. -/
def KeepsWhole (longBits : ℕ) (chip : ℤ) (p : Plant) (c : Call) : Prop :=
  ∀ p', plantStep longBits chip p c = .ok p' →
    ∀ d ∈ p.driver.passes chip (p'.mem.log.drop p.mem.log.length),
      Whole longBits chip p.driver c d

/-- What `new_pwm` must find, as it sets no duty cycle of 0. -/
def Driver.FitsDefaults (d : Driver) (env : NewEnv) : Prop :=
  d.dutyCycle = 0 ∨ d.dutyCycle = Driver.defaults.dutyCycle ∨ d.period = Driver.defaults.period ∨
    Driver.defaults.period < d.dutyCycle ∧ ¬env.WritesDuty

/-- What `attrs` and `rate` must find: a period that the driver refuses is followed by a duty
cycle that it refuses as well, or that changes nothing. -/
def Driver.FitsSettings (d : Driver) (period dutyCycle : ℤ) : Prop :=
  0 < period ∨ dutyCycle ≤ 0 ∨ d.period < dutyCycle ∨ dutyCycle = d.dutyCycle

/-- The settings that a call finds fit those it writes. -/
def Fits (longBits : ℕ) (chip : ℤ) (p : Plant) : Call → Prop
  | .newPwm args env => channel args = some chip → env.Exports → env.WritesPeriod →
      p.driver.FitsDefaults env
  | c => ∀ period dutyCycle env, c.settings longBits = some (period, dutyCycle, env) →
      p.mem.vars = Paths.of chip → env.Opens p.mem.vars → env.Buffers →
      p.driver.FitsSettings period dutyCycle

/-! ## One write -/

/-- The settings after a write of the period. -/
theorem take_period (chip : ℤ) {v : ℤ} {data : List UInt8} (hnumber : number data = some v)
    (d : Driver) (accepted : Bool) :
    d.take chip ⟨chipPath chip "pwm0/period", data, accepted⟩ =
      if (Driver.mk v d.dutyCycle).Valid then ⟨v, d.dutyCycle⟩ else d := by
  split
  · rename_i hvalid
    rw [Driver.take, store_period chip hnumber hvalid]
    rfl
  · rename_i hvalid
    simp [Driver.take, Driver.store, Driver.request, hnumber, Option.filter, hvalid]

/-- The settings after a write of the duty cycle. -/
theorem take_dutyCycle (chip : ℤ) {v : ℤ} {data : List UInt8} (hnumber : number data = some v)
    (d : Driver) (accepted : Bool) :
    d.take chip ⟨chipPath chip "pwm0/duty_cycle", data, accepted⟩ =
      if (Driver.mk d.period v).Valid then ⟨d.period, v⟩ else d := by
  have hne : chipPath chip "pwm0/duty_cycle" ≠ chipPath chip "pwm0/period" :=
    chipPath_ne_chipPath (by decide)
  split
  · rename_i hvalid
    rw [Driver.take, store_dutyCycle chip hnumber hvalid]
    rfl
  · rename_i hvalid
    simp [Driver.take, Driver.store, Driver.request, hnumber, Option.filter, hvalid, hne]

/-- No write is to a file that sets the channel of the chip. -/
def Foreign (chip : ℤ) (ws : List Write) : Prop :=
  ∀ w ∈ ws, w.path ≠ chipPath chip "pwm0/period" ∧ w.path ≠ chipPath chip "pwm0/duty_cycle"

/-- A write to another file changes no settings. -/
theorem take_foreign {chip : ℤ} {w : Write} (hperiod : w.path ≠ chipPath chip "pwm0/period")
    (hcycles : w.path ≠ chipPath chip "pwm0/duty_cycle") (d : Driver) : d.take chip w = d := by
  have hnone : d.store chip w = none := by
    unfold Driver.store Driver.request
    cases number w.data <;> simp [hperiod, hcycles]
  rw [Driver.take, hnone]
  rfl

/-- Foreign writes lead through no new settings. -/
theorem Foreign.passes_eq {chip : ℤ} {ws : List Write} (h : Foreign chip ws) (d : Driver)
    (ws' : List Write) :
    d.passes chip (ws ++ ws') = List.replicate ws.length d ++ d.passes chip ws' := by
  induction ws with
  | nil => rfl
  | cons w ws ih =>
    obtain ⟨hperiod, hcycles⟩ := h w List.mem_cons_self
    have hrest := ih fun w' hw' => h w' (List.mem_cons_of_mem w hw')
    rw [List.cons_append, Driver.passes, take_foreign hperiod hcycles, hrest]
    rfl

/-- After foreign writes, the settings are whole if the others leave them whole. -/
theorem Foreign.forall_passes_iff {longBits : ℕ} {chip : ℤ} {ws : List Write}
    (h : Foreign chip ws) {d : Driver} {c : Call} (ws' : List Write) :
    (∀ d' ∈ d.passes chip (ws ++ ws'), Whole longBits chip d c d') ↔
      ∀ d' ∈ d.passes chip ws', Whole longBits chip d c d' := by
  rw [h.passes_eq, List.forall_mem_append]
  refine and_iff_right fun d' hd' => ?_
  exact .inl (List.eq_of_mem_replicate hd')

/-- Foreign writes alone leave the settings whole. -/
theorem Foreign.whole {longBits : ℕ} {chip : ℤ} {ws : List Write} (h : Foreign chip ws)
    (d : Driver) (c : Call) : ∀ d' ∈ d.passes chip ws, Whole longBits chip d c d' := by
  rw [← List.append_nil ws, h.forall_passes_iff]
  exact fun d' hd' => absurd hd' List.not_mem_nil

/-! ## Files of other chips, and other files -/

/-- Writes to other files of chips are foreign. -/
theorem foreign_of_file {chip k : ℤ} {file : String} (hperiod : file ≠ "pwm0/period")
    (hcycles : file ≠ "pwm0/duty_cycle") (data : List UInt8) (accepted : Bool) :
    Foreign chip [⟨chipPath k file, data, accepted⟩] := by
  rw [Foreign, List.forall_mem_singleton]
  exact ⟨fun h => hperiod (chipPath_inj.mp h).2, fun h => hcycles (chipPath_inj.mp h).2⟩

/-- Writes to the files of another chip are foreign. -/
theorem foreign_of_chip {chip k : ℤ} (hk : k ≠ chip) {ws : List Write}
    (h : ∀ w ∈ ws, ∃ file, w.path = chipPath k file) : Foreign chip ws := by
  intro w hw
  obtain ⟨file, hpath⟩ := h w hw
  rw [hpath]
  exact ⟨fun heq => hk (chipPath_inj.mp heq).1, fun heq => hk (chipPath_inj.mp heq).1⟩

/-- Exporting a channel sets none. -/
theorem foreign_exportLog (chip k : ℤ) (env : NewEnv) : Foreign chip (exportLog k env) := by
  unfold exportLog
  split
  · exact fun w hw => absurd hw List.not_mem_nil
  · exact foreign_of_file (by decide) (by decide) _ _

/-! ## The defaults -/

/-- Settings are whole during a `new_pwm` for the channel. -/
theorem whole_newPwm_iff {longBits : ℕ} {chip : ℤ} {args : List PyObject} {env : NewEnv}
    (hchannel : channel args = some chip) (d d' : Driver) :
    Whole longBits chip d (.newPwm args env) d' ↔
      d' = d ∨ d'.dutyCycle = 0 ∨ d' = Driver.defaults := by
  simp [Whole, Call.target, hchannel, eq_comm]

/-- The default period alone leaves whole settings if the duty cycle is right with it, or is too
long for it. -/
theorem whole_periodWrite_iff {longBits : ℕ} {chip : ℤ} {args : List PyObject} {env : NewEnv}
    (hchannel : channel args = some chip) {d : Driver} (hd : d.Valid) :
    (∀ d' ∈ d.passes chip [periodWrite chip env], Whole longBits chip d (.newPwm args env) d') ↔
      d.dutyCycle = 0 ∨ d.dutyCycle = Driver.defaults.dutyCycle ∨
        d.period = Driver.defaults.period ∨ Driver.defaults.period < d.dutyCycle := by
  obtain ⟨period, dutyCycle⟩ := d
  obtain ⟨hpos, hnonneg, hle⟩ := hd
  simp only at hpos hnonneg hle
  have hnumber : number (cstr "1000000000") = some 1000000000 := number_cstr 1000000000
  simp only [Driver.passes, List.forall_mem_singleton, whole_newPwm_iff hchannel, periodWrite,
    take_period chip hnumber]
  split
  · rename_i hvalid
    have hshort : dutyCycle ≤ 1000000000 := hvalid.2.2
    simp only [Driver.defaults, Driver.mk.injEq, true_and, and_true]
    omega
  · rename_i hvalid
    have hlong : 1000000000 < dutyCycle := by
      by_contra hshort
      exact hvalid ⟨by simp, hnonneg, not_lt.mp hshort⟩
    simp only [true_or, true_iff, Driver.defaults]
    omega

/-- Both defaults leave whole settings if the duty cycle is right with the default period. -/
theorem whole_defaultWrites_iff {longBits : ℕ} {chip : ℤ} {args : List PyObject} {env : NewEnv}
    (hchannel : channel args = some chip) {d : Driver} (hd : d.Valid) :
    (∀ d' ∈ d.passes chip [periodWrite chip env, dutyWrite chip env],
        Whole longBits chip d (.newPwm args env) d') ↔
      d.dutyCycle = 0 ∨ d.dutyCycle = Driver.defaults.dutyCycle ∨
        d.period = Driver.defaults.period := by
  obtain ⟨period, dutyCycle⟩ := d
  obtain ⟨hpos, hnonneg, hle⟩ := hd
  simp only at hpos hnonneg hle
  have hperiod : number (cstr "1000000000") = some 1000000000 := number_cstr 1000000000
  have hduty : number (cstr "500000000") = some 500000000 := number_cstr 500000000
  simp only [Driver.passes, List.forall_mem_cons, List.not_mem_nil, false_imp_iff, implies_true,
    and_true, whole_newPwm_iff hchannel, periodWrite, dutyWrite, take_period chip hperiod]
  split
  · rename_i hvalid
    have hshort : dutyCycle ≤ 1000000000 := hvalid.2.2
    have hdefaults : (Driver.mk 1000000000 500000000).Valid := by decide
    simp only [take_dutyCycle chip hduty, if_pos hdefaults, Driver.defaults, Driver.mk.injEq,
      true_and, and_true, or_true]
    omega
  · rename_i hvalid
    -- The period was refused, and the duty cycle is taken with the old one.
    have hlong : 1000000000 < dutyCycle := by
      by_contra hshort
      exact hvalid ⟨by simp, hnonneg, not_lt.mp hshort⟩
    have htaken : (Driver.mk period 500000000).Valid := ⟨hpos, by simp, by simp only; omega⟩
    simp only [take_dutyCycle chip hduty, if_pos htaken, Driver.defaults, Driver.mk.injEq]
    omega

/-! ## The three writes -/

/-- Settings are whole during a call with settings. -/
theorem whole_settings_iff {longBits : ℕ} {chip : ℤ} {c : Call} {period dutyCycle : ℤ}
    {env : ReconfigureEnv} (hc : c.settings longBits = some (period, dutyCycle, env))
    (d d' : Driver) :
    Whole longBits chip d c d' ↔ d' = d ∨ d'.dutyCycle = 0 ∨ d' = ⟨period, dutyCycle⟩ := by
  have htarget : c.target longBits chip = some ⟨period, dutyCycle⟩ := by
    cases c with
    | attrs args env' => simp only [Call.target, hc, Option.map_some]
    | rate args env' => simp only [Call.target, hc, Option.map_some]
    | _ => cases hc
  rw [Whole, htarget, Option.some.injEq, @eq_comm _ (Driver.mk period dutyCycle)]

/-- The first write, and the second after it, leave a duty cycle of 0. -/
theorem passes_reconfigureLog {chip : ℤ} {d : Driver} (hd : d.Valid) (period dutyCycle : ℤ)
    (env : ReconfigureEnv) :
    ∃ d2, d.passes chip (reconfigureLog (Paths.of chip) period dutyCycle env) =
        [⟨d.period, 0⟩, ⟨d2, 0⟩, if (Driver.mk d2 dutyCycle).Valid then ⟨d2, dutyCycle⟩
          else ⟨d2, 0⟩] ∧
      d2 = if 0 < period then period else d.period := by
  have hcleared : (Driver.mk d.period 0).Valid := ⟨hd.1, le_rfl, hd.1.le⟩
  refine ⟨_, ?_, rfl⟩
  simp only [reconfigureLog, Paths.of, Driver.passes, take_dutyCycle chip number_zero,
    if_pos hcleared, take_period chip (number_decimal period),
    take_dutyCycle chip (number_decimal dutyCycle)]
  have hvalid : (Driver.mk period 0).Valid ↔ 0 < period := by
    simp only [Driver.Valid]
    omega
  by_cases hpos : 0 < period
  · simp [hvalid, hpos]
  · simp [hvalid, hpos]

/-- The settings after a first part of the writes. -/
theorem passes_take (chip : ℤ) (d : Driver) (ws : List Write) (n : ℕ) :
    d.passes chip (ws.take n) = (d.passes chip ws).take n := by
  induction ws generalizing d n with
  | nil => simp [Driver.passes]
  | cons w ws ih =>
    cases n with
    | zero => rfl
    | succ n =>
      rw [List.take_succ_cons, Driver.passes, Driver.passes, List.take_succ_cons, ih]

/-- The third write of a `reconfigure` leaves whole settings if it fits what it finds. -/
theorem whole_third_iff {longBits : ℕ} {chip : ℤ} {c : Call} {period dutyCycle : ℤ}
    {env : ReconfigureEnv} (hc : c.settings longBits = some (period, dutyCycle, env)) {d : Driver}
    (hd : d.Valid) {d2 : ℤ} (hd2 : d2 = if 0 < period then period else d.period) :
    Whole longBits chip d c
        (if (Driver.mk d2 dutyCycle).Valid then ⟨d2, dutyCycle⟩ else ⟨d2, 0⟩) ↔
      d.FitsSettings period dutyCycle := by
  obtain ⟨found, old⟩ := d
  obtain ⟨hpos, hnonneg, hle⟩ := hd
  simp only at hpos hnonneg hle hd2
  simp only [whole_settings_iff hc, Driver.FitsSettings]
  split
  · rename_i hvalid
    obtain ⟨_, hnonneg', hle'⟩ := hvalid
    simp only at hnonneg' hle'
    simp only [Driver.mk.injEq, and_true]
    split at hd2 <;> omega
  · rename_i hvalid
    have hrefused : ¬(0 < d2 ∧ 0 ≤ dutyCycle ∧ dutyCycle ≤ d2) := hvalid
    simp only [true_or, or_true, true_iff]
    split at hd2 <;> omega

/-- The writes of a `reconfigure` leave whole settings unless all three are made and do not fit
what they find. -/
theorem whole_reconfigureLog_iff {longBits : ℕ} {chip : ℤ} {c : Call} {period dutyCycle : ℤ}
    {env : ReconfigureEnv} (hc : c.settings longBits = some (period, dutyCycle, env)) {d : Driver}
    (hd : d.Valid) (n : ℕ) :
    (∀ d' ∈ d.passes chip ((reconfigureLog (Paths.of chip) period dutyCycle env).take n),
        Whole longBits chip d c d') ↔
      (3 ≤ n → d.FitsSettings period dutyCycle) := by
  obtain ⟨d2, hpasses, hd2⟩ := passes_reconfigureLog hd period dutyCycle env
  have hfirst : Whole longBits chip d c ⟨d.period, 0⟩ := .inr (.inl rfl)
  have hsecond : Whole longBits chip d c ⟨d2, 0⟩ := .inr (.inl rfl)
  rw [passes_take, hpasses]
  by_cases hall : 3 ≤ n
  · rw [List.take_of_length_le (by simpa using hall)]
    simp only [List.forall_mem_cons, hfirst, hsecond, true_and, whole_third_iff hc hd hd2,
      List.not_mem_nil, false_imp_iff, implies_true, and_true, hall, true_imp_iff]
  · refine iff_of_true (fun d' hd' => ?_) fun h => absurd h hall
    have hfew : n ≤ 2 := by omega
    have hmem := List.take_subset_take_left _ hfew hd'
    simp only [List.take_succ_cons, List.take_zero, List.mem_cons, List.not_mem_nil,
      or_false] at hmem
    rcases hmem with rfl | rfl
    · exact hfirst
    · exact hsecond

/-! ## One call -/

/-- The defaults are written to files of the chip. -/
theorem path_defaultWrites {k : ℤ} {env : NewEnv} {w : Write}
    (hw : w ∈ [periodWrite k env, dutyWrite k env]) : ∃ file, w.path = chipPath k file := by
  simp only [List.mem_cons, List.not_mem_nil, or_false] at hw
  rcases hw with rfl | rfl <;> exact ⟨_, rfl⟩

/-- What `reconfigure` writes is to files of the chip that is named. -/
theorem path_reconfigureLog {k period dutyCycle : ℤ} {env : ReconfigureEnv} {w : Write}
    (hw : w ∈ reconfigureLog (Paths.of k) period dutyCycle env) :
    ∃ file, w.path = chipPath k file := by
  simp only [reconfigureLog, List.mem_cons, List.not_mem_nil, or_false] at hw
  rcases hw with rfl | rfl | rfl <;> exact ⟨_, rfl⟩

/-- The names of the files of one chip are not those of another. -/
theorem pathsOf_inj {k chip : ℤ} (h : Paths.of k = Paths.of chip) : k = chip :=
  (chipPath_inj.mp (congrArg Paths.periodpath h)).1

/-- A call without settings, other than `new_pwm`, fits all settings. -/
theorem fits_of_no_settings {longBits : ℕ} {c : Call} (hnew : ∀ args env, c ≠ .newPwm args env)
    (hc : c.settings longBits = none) (chip : ℤ) (p : Plant) : Fits longBits chip p c := by
  cases c with
  | newPwm args env => exact absurd rfl (hnew args env)
  | _ =>
    intro period dutyCycle env hsettings
    simp [hc] at hsettings

/-- What a call with settings must find. -/
theorem fits_settings_iff {longBits : ℕ} {chip : ℤ} {p : Plant} {c : Call} {period dutyCycle : ℤ}
    {env : ReconfigureEnv} (hc : c.settings longBits = some (period, dutyCycle, env)) :
    Fits longBits chip p c ↔
      (p.mem.vars = Paths.of chip → env.Opens p.mem.vars → env.Buffers →
        p.driver.FitsSettings period dutyCycle) := by
  have hunfold : Fits longBits chip p c ↔ ∀ period dutyCycle env,
      c.settings longBits = some (period, dutyCycle, env) → p.mem.vars = Paths.of chip →
      env.Opens p.mem.vars → env.Buffers → p.driver.FitsSettings period dutyCycle := by
    cases c with
    | newPwm args env' => cases hc
    | _ => exact Iff.rfl
  rw [hunfold]
  constructor
  · intro h
    exact h period dutyCycle env hc
  · intro h period' dutyCycle' env' hc'
    cases hc.symm.trans hc'
    exact h

/-- The writes of a `reconfigure` leave whole settings precisely if the settings found fit. -/
theorem whole_iff_of_reconfigured {longBits : ℕ} {chip : ℤ} {p : Plant}
    (hcons : Consistent p.mem.vars) (hvalid : p.driver.Valid) {c : Call} {period dutyCycle : ℤ}
    {env : ReconfigureEnv} (hc : c.settings longBits = some (period, dutyCycle, env))
    (hopens : env.Buffers → env.Opens p.mem.vars) :
    (∀ d ∈ p.driver.passes chip ((reconfigureLog p.mem.vars period dutyCycle env).take env.reached),
        Whole longBits chip p.driver c d) ↔
      Fits longBits chip p c := by
  rw [fits_settings_iff hc]
  rcases hcons with hempty | ⟨k, hk⟩
  · have hforeign : Foreign chip
        ((reconfigureLog p.mem.vars period dutyCycle env).take env.reached) := by
      intro w hw
      have hmem := List.mem_of_mem_take hw
      simp only [reconfigureLog, hempty, List.mem_cons, List.not_mem_nil, or_false] at hmem
      rcases hmem with rfl | rfl | rfl <;>
        exact ⟨(chipPath_ne chip _).symm, (chipPath_ne chip _).symm⟩
    refine iff_of_true (hforeign.whole _ _) fun hnamed => ?_
    exact absurd (congrArg Paths.periodpath (hempty.symm.trans hnamed)).symm (chipPath_ne chip _)
  by_cases hchip : k = chip
  · subst hchip
    rw [hk] at hopens ⊢
    rw [whole_reconfigureLog_iff hc hvalid, ReconfigureEnv.three_le_reached_iff]
    exact ⟨fun h _ _ => h, fun h hbuffers => h rfl (hopens hbuffers) hbuffers⟩
  · have hforeign : Foreign chip
        ((reconfigureLog p.mem.vars period dutyCycle env).take env.reached) := by
      rw [hk]
      exact foreign_of_chip hchip fun w hw => path_reconfigureLog (List.mem_of_mem_take hw)
    refine iff_of_true (hforeign.whole _ _) fun hnamed => ?_
    exact absurd (pathsOf_inj (hk.symm.trans hnamed)) hchip

/-- The writes of a `new_pwm` for another chip leave the settings alone, and those for the chip
may be judged without the export. -/
theorem whole_iff_of_newPwm {longBits : ℕ} {chip k : ℤ} {d : Driver} {args : List PyObject}
    {env : NewEnv} {ws : List Write} (hws : ws <+: [periodWrite k env, dutyWrite k env]) {P : Prop}
    (hsame : k = chip →
      ((∀ d' ∈ d.passes chip ws, Whole longBits chip d (.newPwm args env) d') ↔ P))
    (hother : k ≠ chip → P) :
    (∀ d' ∈ d.passes chip (exportLog k env ++ ws), Whole longBits chip d (.newPwm args env) d') ↔
      P := by
  rw [(foreign_exportLog chip k env).forall_passes_iff]
  by_cases hchip : k = chip
  · exact hsame hchip
  · have hforeign : Foreign chip ws := by
      exact foreign_of_chip hchip fun w hw => path_defaultWrites (hws.subset hw)
    exact iff_of_true (hforeign.whole _ _) (hother hchip)

/-- The writes of a call that returns leave whole settings precisely if the settings found fit
those written. -/
theorem whole_iff_of_wrote {longBits : ℕ} {chip : ℤ} {p : Plant} (hcons : Consistent p.mem.vars)
    (hvalid : p.driver.Valid) {c : Call} {vars : Paths} {ws : List Write}
    (hwrote : Wrote longBits p.mem.vars c vars ws) :
    (∀ d ∈ p.driver.passes chip ws, Whole longBits chip p.driver c d) ↔
      Fits longBits chip p c := by
  have hnone : ∀ c', ∀ d ∈ p.driver.passes chip [], Whole longBits chip p.driver c' d :=
    fun _ d hd => absurd hd List.not_mem_nil
  cases hwrote with
  | unopened hno =>
    exact iff_of_true (hnone _) fun hchannel hexports => absurd hexports (hno _ hchannel)
  | noPeriod hchannel hexports hno =>
    exact iff_of_true ((foreign_exportLog _ _ _).whole _ _) fun _ _ hperiod => absurd hperiod hno
  | @noDuty args env k hchannel hexports hperiod hno =>
    refine whole_iff_of_newPwm ⟨_, rfl⟩ (fun hk => ?_) fun hk hchannel' => ?_
    · subst hk
      rw [whole_periodWrite_iff hchannel hvalid]
      simp [Fits, Driver.FitsDefaults, hchannel, hexports, hperiod, hno]
    · exact absurd (Option.some.inj (hchannel.symm.trans hchannel')) hk
  | @opened args env k hchannel hexports hperiod hduty =>
    refine whole_iff_of_newPwm List.prefix_rfl (fun hk => ?_) fun hk hchannel' => ?_
    · subst hk
      rw [whole_defaultWrites_iff hchannel hvalid]
      simp [Fits, Driver.FitsDefaults, hchannel, hexports, hperiod, hduty]
    · exact absurd (Option.some.inj (hchannel.symm.trans hchannel')) hk
  | @switched c value pwmdev hc hopens =>
    have hforeign : Foreign chip (Stream.flush ⟨p.mem.vars.pwmdevpath,
        if pwmdev.writes then cstr value else []⟩ pwmdev.accepts) := by
      rcases hcons with hempty | ⟨k, hk⟩
      · exact absurd (congrArg Paths.pwmdevpath hempty) hopens.1
      · rw [hk]
        split
        · rw [flush_of_ne (cstr_ne_nil value)]
          exact foreign_of_file (by decide) (by decide) _ _
        · exact fun w hw => absurd hw List.not_mem_nil
    refine iff_of_true (hforeign.whole _ _) (fits_of_no_settings ?_ ?_ chip p)
    · rintro args env rfl
      cases hc
    · cases c with
      | start _ | stop _ | delPwm _ => rfl
      | _ => cases hc
  | reconfigured hc hopens => exact whole_iff_of_reconfigured hcons hvalid hc hopens
  | rejected hnew _ hc => exact iff_of_true (hnone _) (fits_of_no_settings hnew hc chip p)

/-- A call that does not return fits whatever it finds. -/
theorem fits_of_not_returns {longBits : ℕ} {chip : ℤ} {p : Plant} {c : Call}
    (h : ∀ r, exec longBits p.mem c ≠ .ok r) : Fits longBits chip p c := by
  by_cases hnew : ∃ args env, c = .newPwm args env
  · obtain ⟨args, env, rfl⟩ := hnew
    intro hchannel
    obtain ⟨r, s', hrun, _⟩ := run_newPwm hchannel env ⟨none, p.mem⟩
    exact absurd hrun (h (r, s'))
  · cases hsettings : c.settings longBits with
    | none => exact fits_of_no_settings (fun args env hc => hnew ⟨args, env, hc⟩) hsettings chip p
    | some v =>
      obtain ⟨period, dutyCycle, env⟩ := v
      refine (fits_settings_iff hsettings).mpr fun _ hopens _ => ?_
      obtain ⟨r, s', n, hrun, _⟩ := run_reconfigure (s := ⟨none, p.mem⟩) hopens period dutyCycle
      exact absurd (by rw [exec, body_of_settings hsettings, hrun]) (h (r, s'))

/-- A call keeps the settings whole precisely if those it finds fit those it writes. -/
theorem keepsWhole_iff {longBits : ℕ} {chip : ℤ} {p : Plant} (hcons : Consistent p.mem.vars)
    (hvalid : p.driver.Valid) (c : Call) :
    KeepsWhole longBits chip p c ↔ Fits longBits chip p c := by
  by_cases hreturns : ∃ r, exec longBits p.mem c = .ok r
  · obtain ⟨r, hrun⟩ := hreturns
    obtain ⟨ws, hlog, hwrote⟩ := exec_wrote hrun
    rw [← whole_iff_of_wrote hcons hvalid hwrote]
    have hstep : plantStep longBits chip p c =
        .ok ⟨r.2.mem, p.driver.settle chip (r.2.mem.log.drop p.mem.log.length)⟩ :=
      map_eq_ok.mpr ⟨r, hrun, rfl⟩
    constructor
    · intro h
      have hwhole := h _ hstep
      rwa [hlog, List.drop_left] at hwhole
    · intro h p' hp'
      obtain ⟨r', hrun', rfl⟩ := map_eq_ok.mp hp'
      cases hrun.symm.trans hrun'
      rwa [hlog, List.drop_left]
  · have hno : ∀ r, exec longBits p.mem c ≠ .ok r := fun r hr => hreturns ⟨r, hr⟩
    refine iff_of_true (fun p' hp' => ?_) (fits_of_not_returns hno)
    obtain ⟨r, hrun, _⟩ := map_eq_ok.mp hp'
    exact absurd hrun (hno r)

/-- From import and any valid settings, the settings of a channel are whole at every write
precisely along the runs in which each call finds settings that fit, if no `new_pwm` fails
half-way on another chip. -/
theorem settings_whole_iff (longBits : ℕ) (chip : ℤ) {d : Driver} (hd : d.Valid)
    {calls : List Call}
    (hsame : Runs.Always (plantStep longBits chip) (fun p => FailsOnSameChip p.mem)
      ⟨Mem.initial, d⟩ calls) :
    Runs.Always (plantStep longBits chip) (KeepsWhole longBits chip) ⟨Mem.initial, d⟩ calls ↔
      Runs.Always (plantStep longBits chip) (Fits longBits chip) ⟨Mem.initial, d⟩ calls := by
  have hinit : Consistent Mem.initial.vars ∧ d.Valid := ⟨.inl rfl, hd⟩
  refine Runs.always_iff_always_of (I := fun p => Consistent p.mem.vars ∧ p.driver.Valid) ?_ ?_
    hinit hsame
  · rintro p c ⟨hcons, hvalid⟩ _
    exact keepsWhole_iff hcons hvalid c
  · rintro p c p' ⟨hcons, hvalid⟩ hfails hstep
    obtain ⟨r, hrun, rfl⟩ := map_eq_ok.mp hstep
    refine ⟨?_, valid_settle hvalid _⟩
    exact ((keepsNames_iff hcons c).mpr hfails).consistent _ (map_eq_ok.mpr ⟨r, hrun, rfl⟩)

/-- `new_pwm(1)` and `attrs(20, 20)`, on a channel that was never set, leave whole settings. -/
theorem settings_whole_openFirst_attrs :
    Runs.Always (plantStep 32 0) (KeepsWhole 32 0) ⟨Mem.initial, ⟨1, 0⟩⟩
      [openFirst, attrsBoth 20] := by
  have hopen : FailsOnSameChip Mem.initial openFirst :=
    fun _ _ _ hno => absurd ⟨⟨rfl, rfl⟩, rfl, rfl⟩ hno
  have hsame : Runs.Always (plantStep 32 0) (fun p => FailsOnSameChip p.mem)
      ⟨Mem.initial, ⟨1, 0⟩⟩ [openFirst, attrsBoth 20] :=
    ⟨hopen, fun _ _ => ⟨trivial, fun _ _ => trivial⟩⟩
  refine (settings_whole_iff 32 0 (by decide) hsame).mpr ⟨?_, fun p hp => ⟨?_, fun _ _ => trivial⟩⟩
  · exact fun _ _ _ => .inl rfl
  · have hsettings : (attrsBoth 20).settings 32 = some (20 * 10 ^ 6, 20 * 10 ^ 6, .works) := by
      decide
    exact (fits_settings_iff hsettings).mpr fun _ _ _ => .inl (by decide)

end PyModules.Pwm
