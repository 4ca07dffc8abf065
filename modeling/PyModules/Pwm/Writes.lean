import PyModules.Library.Emits
import PyModules.Pwm.Pwm

/-!
# What a call writes

Every call adds a few writes to the log and may name other files. One relation says which,
function by function; what holds along runs is derived from it, and no function body is
opened again for it.
-/

namespace PyModules.Pwm

/-- The number of writes that `reconfigure` gets to: up to the first string that is not
buffered. -/
def ReconfigureEnv.reached (env : ReconfigureEnv) : ℕ :=
  if !env.cleared.writes then 0
  else if !env.period.writes then 1
  else if !env.dutyCycle.writes then 2
  else 3

/-- All three are reached with streams that buffer their data. -/
theorem ReconfigureEnv.three_le_reached_iff {env : ReconfigureEnv} :
    3 ≤ env.reached ↔ env.Buffers := by
  constructor
  · intro h
    unfold ReconfigureEnv.reached at h
    split at h
    · omega
    · rename_i hcleared
      split at h
      · omega
      · rename_i hperiod
        split at h
        · omega
        · rename_i hduty
          exact ⟨by simpa using hcleared, by simpa using hperiod, by simpa using hduty⟩
  · intro h
    simp [ReconfigureEnv.reached, h.cleared, h.period, h.dutyCycle]

/-- What `start`, `stop`, and the teardown write to the `enable` file. -/
def Call.switch : Call → Option (String × FileOutcome)
  | .start pwmdev => some ("1", pwmdev)
  | .stop pwmdev | .delPwm pwmdev => some ("0", pwmdev)
  | _ => none

/-- The period and the duty cycle that `attrs` and `rate` write, unless they raise. -/
def Call.settings (longBits : ℕ) : Call → Option (ℤ × ℤ × ReconfigureEnv)
  | .attrs args env =>
    (parseAttrs longBits args).map fun v => (scale longBits v.1, scale longBits v.2, env)
  | .rate args env => do
    let rate ← parseOne (convertLong longBits) args
    if rate ≤ 0 then none
    else
      let period := Int.tdiv (1000 * 1000 * 1000) rate
      some (period, Int.tdiv period 2, env)
  | _ => none

/-- With the names `vars`, a call that returns leaves these names and adds these writes. -/
inductive Wrote (longBits : ℕ) (vars : Paths) : Call → Paths → List Write → Prop
  /-- `new_pwm` raises before it names a file. -/
  | unopened {args : List PyObject} {env : NewEnv}
      (h : ∀ chip, channel args = some chip → ¬env.Exports) :
    Wrote longBits vars (.newPwm args env) vars []
  | noPeriod {args : List PyObject} {env : NewEnv} {chip : ℤ} (hchannel : channel args = some chip)
      (hexports : env.Exports) (h : ¬env.WritesPeriod) :
    Wrote longBits vars (.newPwm args env) (vars.setPeriodpath chip) (exportLog chip env)
  | noDuty {args : List PyObject} {env : NewEnv} {chip : ℤ} (hchannel : channel args = some chip)
      (hexports : env.Exports) (hperiod : env.WritesPeriod) (h : ¬env.WritesDuty) :
    Wrote longBits vars (.newPwm args env) ((vars.setPeriodpath chip).setCyclespath chip)
      (exportLog chip env ++ [periodWrite chip env])
  | opened {args : List PyObject} {env : NewEnv} {chip : ℤ} (hchannel : channel args = some chip)
      (hexports : env.Exports) (hperiod : env.WritesPeriod) (hduty : env.WritesDuty) :
    Wrote longBits vars (.newPwm args env) (Paths.of chip)
      (exportLog chip env ++ [periodWrite chip env, dutyWrite chip env])
  | switched {c : Call} {value : String} {pwmdev : FileOutcome}
      (hc : c.switch = some (value, pwmdev)) (hopens : pwmdev.Opens vars.pwmdevpath) :
    Wrote longBits vars c vars
      (Stream.flush ⟨vars.pwmdevpath, if pwmdev.writes then cstr value else []⟩ pwmdev.accepts)
  | reconfigured {c : Call} {period dutyCycle : ℤ} {env : ReconfigureEnv}
      (hc : c.settings longBits = some (period, dutyCycle, env))
      (hopens : env.Buffers → env.Opens vars) :
    Wrote longBits vars c vars ((reconfigureLog vars period dutyCycle env).take env.reached)
  /-- `attrs` or `rate` raises before it writes. -/
  | rejected {c : Call} (hnew : ∀ args env, c ≠ .newPwm args env) (hswitch : c.switch = none)
      (hc : c.settings longBits = none) :
    Wrote longBits vars c vars []

/-! ## The three writes of `attrs` and `rate` -/

/-- A program that adds writes to the log under the names `vars`. -/
abbrev Logs {α : Type} (vars : Paths) (x : CM Mem α) (G : α → List Write → Prop) : Prop :=
  Emits (fun s : Proc Mem => s.mem.vars = vars) (fun s => s.mem.log) x G

/-- A look at the memory adds nothing. -/
theorem logs_getMem (vars : Paths) :
    Logs vars getMem fun mem ops => mem.vars = vars ∧ ops = [] := by
  intro s mem s' hs hrun
  cases hrun
  exact ⟨hs, [], (List.append_nil _).symm, hs, rfl⟩

/-- An unchecked use of a file that returns adds one write, or returns false. -/
theorem logs_writeUnchecked (vars : Paths) (path : String) {data : List UInt8} (hdata : data ≠ [])
    (o : FileOutcome) :
    Logs vars (writeUnchecked path data o) fun ok ops =>
      ok = o.writes ∧ ops = if o.writes then [⟨path, data, o.accepts⟩] else [] := by
  intro s ok s' hs hrun
  rw [run_writeUnchecked] at hrun
  split at hrun
  · cases hrun
    refine ⟨hs, _, wrote_log _ _ _ _, rfl, ?_⟩
    split
    · exact flush_of_ne hdata _
    · exact flush_nil _ _
  · cases hrun

/-- `reconfigure` writes up to the first string that is not buffered. -/
theorem logs_reconfigure (vars : Paths) (period dutyCycle : ℤ) (env : ReconfigureEnv) :
    Logs vars (reconfigure period dutyCycle env) fun _ ops =>
      ops = (reconfigureLog vars period dutyCycle env).take env.reached := by
  refine Emits.bind (logs_getMem vars) ?_
  rintro mem _ ⟨hmem, rfl⟩
  refine Emits.bind (logs_writeUnchecked vars _ (cstr_ne_nil "0") _) ?_
  rintro _ _ ⟨rfl, rfl⟩
  refine Emits.ite (fun hcleared => Emits.pure ?_) (fun hcleared => ?_)
  · simp only [Bool.not_eq_true'] at hcleared
    simp [ReconfigureEnv.reached, hcleared]
  refine Emits.bind (logs_getMem vars) ?_
  rintro mem' _ ⟨hmem', rfl⟩
  refine Emits.bind (logs_writeUnchecked vars _ (decimal_ne_nil period) _) ?_
  rintro _ _ ⟨rfl, rfl⟩
  simp only [Bool.not_eq_true', Bool.not_eq_false] at hcleared
  refine Emits.ite (fun hperiod => Emits.pure ?_) (fun hperiod => ?_)
  · simp only [Bool.not_eq_true'] at hperiod
    simp [ReconfigureEnv.reached, reconfigureLog, hcleared, hperiod, hmem]
  refine Emits.bind (logs_getMem vars) ?_
  rintro mem'' _ ⟨hmem'', rfl⟩
  refine Emits.bind (logs_writeUnchecked vars _ (decimal_ne_nil dutyCycle) _) ?_
  rintro _ _ ⟨rfl, rfl⟩
  simp only [Bool.not_eq_true', Bool.not_eq_false] at hperiod
  refine Emits.ite (fun hduty => Emits.pure ?_) (fun hduty => Emits.pure ?_)
  · simp only [Bool.not_eq_true'] at hduty
    simp [ReconfigureEnv.reached, reconfigureLog, hcleared, hperiod, hduty, hmem, hmem']
  · simp only [Bool.not_eq_true', Bool.not_eq_false] at hduty
    simp [ReconfigureEnv.reached, reconfigureLog, hcleared, hperiod, hduty, hmem, hmem', hmem'']

/-! ## The bodies of the calls -/

/-- Calls with settings run `reconfigure` with them. -/
theorem body_of_settings {longBits : ℕ} {c : Call} {period dutyCycle : ℤ} {env : ReconfigureEnv}
    (hc : c.settings longBits = some (period, dutyCycle, env)) :
    c.body longBits = reconfigure period dutyCycle env := by
  cases c with
  | attrs args env' =>
    obtain ⟨v, hparse, hv⟩ := Option.map_eq_some_iff.mp hc
    cases hv
    simp [Call.body, attrs, hparse]
  | rate args env' =>
    obtain ⟨v, hparse, hv⟩ := Option.bind_eq_some_iff.mp hc
    split at hv
    · cases hv
    · rename_i hpositive
      cases hv
      simp only [Call.body, Pwm.rate, hparse, if_neg hpositive]
  | _ => cases hc

/-- `attrs` and `rate` without settings raise. -/
theorem body_of_no_settings {longBits : ℕ} {c : Call} (hnew : ∀ args env, c ≠ .newPwm args env)
    (hswitch : c.switch = none) (hc : c.settings longBits = none) :
    c.body longBits = raise "Invalid input parameter." := by
  cases c with
  | newPwm args env => exact absurd rfl (hnew args env)
  | attrs args env =>
    have hparse := Option.map_eq_none_iff.mp hc
    simp [Call.body, attrs, hparse]
  | rate args env =>
    cases hparse : parseOne (convertLong longBits) args with
    | none => simp [Call.body, Pwm.rate, hparse]
    | some v =>
      have hrate : v ≤ 0 := by
        by_contra hno
        simp [Call.settings, hparse, hno] at hc
      simp only [Call.body, Pwm.rate, hparse, if_pos hrate]
  | _ => cases hswitch

/-- `start`, `stop`, and the teardown hand NULL to `fwrite` unless the `enable` file opens. -/
theorem exec_switch {c : Call} {value : String} {pwmdev : FileOutcome}
    (hc : c.switch = some (value, pwmdev)) (longBits : ℕ) (mem : Mem) :
    ∃ r err, exec longBits mem c =
      if pwmdev.Opens mem.vars.pwmdevpath then
        .ok (r, ⟨err, mem.wrote mem.vars.pwmdevpath (cstr value) pwmdev⟩)
      else .error .nullPointer := by
  have hset := run_setEnable value pwmdev ⟨none, mem⟩
  cases c with
  | start _ | stop _ =>
    cases hc
    exact ⟨_, _, hset⟩
  | delPwm _ =>
    cases hc
    refine ⟨pyNone, if pwmdev.writes then none else some (writeFailed pwmdev), ?_⟩
    simp only [exec, Call.body, delPwm, StateT.run_bind, hset]
    split <;> rfl
  | _ => cases hc

/-- If they return, the file is open and written to. -/
theorem mem_of_exec_switch {longBits : ℕ} {mem : Mem} {c : Call} {value : String}
    {pwmdev : FileOutcome} (hc : c.switch = some (value, pwmdev)) {r : PyRef} {s' : Proc Mem}
    (hrun : exec longBits mem c = .ok (r, s')) :
    pwmdev.Opens mem.vars.pwmdevpath ∧
      s'.mem = mem.wrote mem.vars.pwmdevpath (cstr value) pwmdev := by
  obtain ⟨r', err, hexec⟩ := exec_switch hc longBits mem
  rw [hrun] at hexec
  split at hexec
  · cases hexec
    exact ⟨‹_›, rfl⟩
  · cases hexec

/-! ## One call -/

/-- What `new_pwm` writes. -/
theorem wrote_newPwm {longBits : ℕ} {mem : Mem} {args : List PyObject} {env : NewEnv} {r : PyRef}
    {s' : Proc Mem} (hrun : exec longBits mem (.newPwm args env) = .ok (r, s')) :
    ∃ ws, s'.mem.log = mem.log ++ ws ∧
      Wrote longBits mem.vars (.newPwm args env) s'.mem.vars ws := by
  cases hchannel : channel args with
  | none =>
    obtain ⟨e, hrun', _⟩ := run_newPwm_of_no_channel hchannel env ⟨none, mem⟩
    cases hrun'.symm.trans hrun
    exact ⟨[], (List.append_nil _).symm, .unopened fun chip h => by simp [hchannel] at h⟩
  | some chip =>
    obtain ⟨r', s1, hrun', houtcome⟩ := run_newPwm hchannel env ⟨none, mem⟩
    cases hrun'.symm.trans hrun
    cases houtcome with
    | noExport hno e he files =>
      refine ⟨[], (List.append_nil _).symm, .unopened fun k hk => ?_⟩
      exact hno
    | noPeriod hexports hno e he files dirs =>
      exact ⟨_, rfl, .noPeriod hchannel hexports hno⟩
    | noDuty hexports hperiod hno e he files dirs =>
      exact ⟨_, List.append_assoc _ _ _, .noDuty hchannel hexports hperiod hno⟩
    | opened hexports hperiod hduty files dirs =>
      exact ⟨_, List.append_assoc _ _ _, .opened hchannel hexports hperiod hduty⟩

/-- What a call that returns has written. -/
theorem exec_wrote {longBits : ℕ} {mem : Mem} {c : Call} {r : PyRef} {s' : Proc Mem}
    (hrun : exec longBits mem c = .ok (r, s')) :
    ∃ ws, s'.mem.log = mem.log ++ ws ∧ Wrote longBits mem.vars c s'.mem.vars ws := by
  by_cases hnew : ∃ args env, c = .newPwm args env
  · obtain ⟨args, env, rfl⟩ := hnew
    exact wrote_newPwm hrun
  have hno : ∀ args env, c ≠ .newPwm args env := fun args env hc => hnew ⟨args, env, hc⟩
  cases hswitch : c.switch with
  | some v =>
    obtain ⟨value, pwmdev⟩ := v
    obtain ⟨hopens, hmem⟩ := mem_of_exec_switch hswitch hrun
    rw [hmem]
    exact ⟨_, wrote_log _ _ _ _, .switched hswitch hopens⟩
  | none =>
    cases hsettings : c.settings longBits with
    | some v =>
      obtain ⟨period, dutyCycle, env⟩ := v
      rw [exec, body_of_settings hsettings] at hrun
      have hopens : env.Buffers → env.Opens mem.vars := by
        intro hbuffers
        by_contra hno
        cases hrun.symm.trans (run_reconfigure_of_not_opens hbuffers hno period dutyCycle)
      obtain ⟨hvars, ws, hlog, rfl⟩ := logs_reconfigure mem.vars period dutyCycle env _ _ _ rfl hrun
      exact ⟨_, hlog, by rw [hvars]; exact .reconfigured hsettings hopens⟩
    | none =>
      rw [exec, body_of_no_settings hno hswitch hsettings, run_raise] at hrun
      cases hrun
      exact ⟨[], (List.append_nil _).symm, .rejected hno hswitch hsettings⟩

/-- The step lemma: what a call that returns has written, and which names it leaves. -/
theorem step_wrote {longBits : ℕ} {mem mem' : Mem} {c : Call}
    (hstep : step longBits mem c = .ok mem') :
    ∃ ws, mem'.log = mem.log ++ ws ∧ Wrote longBits mem.vars c mem'.vars ws := by
  obtain ⟨⟨r, s'⟩, hrun, rfl⟩ := map_eq_ok.mp hstep
  exact exec_wrote hrun

end PyModules.Pwm
