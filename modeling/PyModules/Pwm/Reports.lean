import PyModules.Library.Runs
import PyModules.Pwm.Pwm

/-!
# Failures that are reported

`new_pwm` checks every `fopen`, the other functions none, and no function looks at the
result of `fclose`, where a refused write shows. This file says which runs have every
failure reported, for streams that buffer the short strings they are given.
-/

namespace PyModules.Pwm

/-- Every stream of the call buffers what it is given. -/
def Call.Buffers : Call → Prop
  | .newPwm _ env => env.exportFile.writes ∧ env.periods.writes ∧ env.dutyCycles.writes
  | .start pwmdev | .stop pwmdev | .delPwm pwmdev => pwmdev.writes
  | .attrs _ env | .rate _ env => env.Buffers

/-- The call returned True after its writes were accepted, or raised the module's error. -/
def Faithful (mem : Mem) (r : PyRef) (s' : Proc Mem) : Prop :=
  (r = pyTrue ∧ ∀ w ∈ s'.mem.log.drop mem.log.length, w.accepted) ∨
    (r = NULL ∧ ∃ msg, s'.err = some ⟨.module, msg⟩)

/-- What a call must report. -/
structure Reported (longBits : ℕ) (mem : Mem) (c : Call) : Prop where
  /-- No NULL stream reaches `fwrite` or `fclose`. -/
  noNull : exec longBits mem c ≠ .error .nullPointer
  /-- Teardown has nobody to report to. -/
  faithful : (∀ pwmdev, c ≠ .delPwm pwmdev) → ∀ r s', exec longBits mem c = .ok (r, s') →
    Faithful mem r s'

/-- The files of `reconfigure` open, and accept their data. -/
structure ReconfigureEnv.Serves (env : ReconfigureEnv) (vars : Paths) : Prop where
  opens : env.Opens vars
  cleared : env.cleared.accepts
  period : env.period.accepts
  dutyCycle : env.dutyCycle.accepts

/-- The files a call uses open, and accept what it writes. A `new_pwm` may fail to open one. -/
def Served (longBits : ℕ) (mem : Mem) : Call → Prop
  | .newPwm args env => ∀ chip, channel args = some chip → env.exportFile.opens →
      env.unexportFile.opens → env.periods.opens → env.dutyCycles.opens →
      (env.exported ∨ env.exportFile.accepts) ∧ env.periods.accepts ∧ env.dutyCycles.accepts
  | .start pwmdev | .stop pwmdev => pwmdev.Opens mem.vars.pwmdevpath ∧ pwmdev.accepts
  | .attrs args env => parseAttrs longBits args ≠ none → env.Serves mem.vars
  | .rate args env => ∀ rate, parseOne (convertLong longBits) args = some rate → 0 < rate →
      env.Serves mem.vars
  | .delPwm pwmdev => pwmdev.Opens mem.vars.pwmdevpath

/-! ## Calls that return -/

/-- A call that raises the module's error is faithful. -/
theorem faithful_of_raise (mem : Mem) {s' : Proc Mem} {e : PyErr} (he : e.exc = .module)
    (herr : s'.err = some e) : Faithful mem NULL s' := by
  obtain ⟨exc, msg⟩ := e
  cases he
  exact .inr ⟨rfl, msg, herr⟩

/-- A call that returns True is faithful if its writes were accepted. -/
theorem faithful_pyTrue_iff {mem : Mem} {s' : Proc Mem} {ws : List Write}
    (hlog : s'.mem.log = mem.log ++ ws) :
    Faithful mem pyTrue s' ↔ ∀ w ∈ ws, w.accepted := by
  have htrue : pyTrue ≠ NULL := by decide
  simp [Faithful, hlog, htrue]

/-- What a call that returned must have reported. -/
theorem reported_iff_of_run {longBits : ℕ} {mem : Mem} {c : Call} {r : PyRef} {s' : Proc Mem}
    (hc : ∀ pwmdev, c ≠ .delPwm pwmdev) (hrun : exec longBits mem c = .ok (r, s')) :
    Reported longBits mem c ↔ Faithful mem r s' := by
  constructor
  · intro h
    exact h.faithful hc r s' hrun
  · intro h
    refine ⟨by simp [hrun], fun _ r1 s1 hrun1 => ?_⟩
    rw [hrun] at hrun1
    cases hrun1
    exact h

/-- A call that hands NULL to `fwrite` is not reported. -/
theorem not_reported_of_null {longBits : ℕ} {mem : Mem} {c : Call}
    (h : exec longBits mem c = .error .nullPointer) : ¬Reported longBits mem c :=
  fun hreported => hreported.noNull h

/-! ## Each call -/

/-- `start` and `stop`. -/
theorem reported_setEnable_iff {longBits : ℕ} {mem : Mem} {c : Call} {value : String}
    {pwmdev : FileOutcome} (hc : ∀ o, c ≠ .delPwm o)
    (hbody : c.body longBits = setEnable value pwmdev) (hbuffers : pwmdev.writes) :
    Reported longBits mem c ↔ pwmdev.Opens mem.vars.pwmdevpath ∧ pwmdev.accepts := by
  have hrun := run_setEnable value pwmdev ⟨none, mem⟩
  rw [← hbody] at hrun
  by_cases hopens : pwmdev.Opens mem.vars.pwmdevpath
  · rw [if_pos hopens, if_pos hbuffers] at hrun
    have hlog : (mem.wrote mem.vars.pwmdevpath (cstr value) pwmdev).log =
        mem.log ++ [⟨mem.vars.pwmdevpath, cstr value, pwmdev.accepts⟩] := by
      simp [hbuffers]
    rw [reported_iff_of_run hc hrun, faithful_pyTrue_iff hlog]
    simp [hopens]
  · rw [if_neg hopens] at hrun
    simp only [hopens, false_and, iff_false]
    exact not_reported_of_null hrun

/-- `attrs` and `rate`, once their arguments are parsed. -/
theorem reported_reconfigure_iff {longBits : ℕ} {mem : Mem} {c : Call} {period dutyCycle : ℤ}
    {env : ReconfigureEnv} (hc : ∀ o, c ≠ .delPwm o)
    (hbody : c.body longBits = reconfigure period dutyCycle env) (hbuffers : env.Buffers) :
    Reported longBits mem c ↔ env.Serves mem.vars := by
  by_cases hopens : env.Opens mem.vars
  · obtain ⟨r, s', n, hrun, hlog, hall⟩ :=
      run_reconfigure (s := ⟨none, mem⟩) hopens period dutyCycle
    obtain ⟨rfl, _, rfl⟩ := hall hbuffers
    rw [← hbody] at hrun
    rw [reported_iff_of_run hc hrun, faithful_pyTrue_iff hlog]
    have haccepts : (∀ w ∈ (reconfigureLog mem.vars period dutyCycle env).take 3, w.accepted) ↔
        env.cleared.accepts ∧ env.period.accepts ∧ env.dutyCycle.accepts := by
      simp [reconfigureLog]
    rw [haccepts]
    constructor
    · rintro ⟨hcleared, hperiod, hduty⟩
      exact ⟨hopens, hcleared, hperiod, hduty⟩
    · intro h
      exact ⟨h.cleared, h.period, h.dutyCycle⟩
  · have hno : ¬env.Serves mem.vars := fun h => hopens h.opens
    have hrun := run_reconfigure_of_not_opens (s := ⟨none, mem⟩) hbuffers hopens period dutyCycle
    rw [← hbody] at hrun
    exact iff_of_false (not_reported_of_null hrun) hno

/-- A call that raises the module's error before it writes is reported. -/
theorem reported_of_raise {longBits : ℕ} {mem : Mem} {c : Call} {msg : String}
    (hbody : c.body longBits = raise msg) : Reported longBits mem c := by
  have hrun : exec longBits mem c = .ok (NULL, ⟨some ⟨.module, msg⟩, mem⟩) := by
    rw [exec, hbody, run_raise]
  refine ⟨by simp [hrun], fun _ r s' hrun' => ?_⟩
  rw [hrun] at hrun'
  cases hrun'
  exact faithful_of_raise mem rfl rfl

/-- `new_pwm`. -/
theorem reported_newPwm_iff {longBits : ℕ} {mem : Mem} {args : List PyObject} {env : NewEnv}
    (hbuffers : (Call.newPwm args env).Buffers) :
    Reported longBits mem (.newPwm args env) ↔ Served longBits mem (.newPwm args env) := by
  obtain ⟨hexport, hperiod, hduty⟩ := hbuffers
  have hc : ∀ o, Call.newPwm args env ≠ .delPwm o := fun _ => Call.noConfusion
  cases hchannel : channel args with
  | none =>
    obtain ⟨e, hrun, he⟩ := run_newPwm_of_no_channel hchannel env ⟨none, mem⟩
    rw [reported_iff_of_run hc hrun]
    exact iff_of_true (faithful_of_raise mem he rfl) fun chip h => by simp [hchannel] at h
  | some chip =>
    obtain ⟨r, s', hrun, houtcome⟩ := run_newPwm hchannel env ⟨none, mem⟩
    rw [reported_iff_of_run hc hrun]
    simp only [Served, hchannel, Option.some.injEq, forall_eq']
    cases houtcome with
    | noExport hno e he files =>
      refine iff_of_true (faithful_of_raise mem he rfl) fun hopen hopen' _ _ => ?_
      exact absurd ⟨hopen, hopen', .inr hexport⟩ hno
    | noPeriod hexports hno e he files dirs =>
      refine iff_of_true (faithful_of_raise mem he rfl) fun _ _ hopen _ => ?_
      exact absurd ⟨hopen, hperiod⟩ hno
    | noDuty hexports hwrites hno e he files dirs =>
      refine iff_of_true (faithful_of_raise mem he rfl) fun _ _ _ hopen => ?_
      exact absurd ⟨hopen, hduty⟩ hno
    | opened hexports hwrites hwrites' files dirs =>
      have hlog : mem.log ++ exportLog chip env ++ [periodWrite chip env, dutyWrite chip env] =
          mem.log ++ (exportLog chip env ++ [periodWrite chip env, dutyWrite chip env]) :=
        List.append_assoc _ _ _
      rw [faithful_pyTrue_iff hlog]
      have haccepts : (∀ w ∈ exportLog chip env, w.accepted) ↔
          env.exported ∨ env.exportFile.accepts := by
        cases hdir : env.exported <;> simp [exportLog, hdir]
      simp only [List.forall_mem_append, haccepts, List.forall_mem_cons, periodWrite, dutyWrite,
        List.not_mem_nil, false_imp_iff, implies_true, and_true]
      exact ⟨fun h _ _ _ _ => h, fun h => h hexports.exportOpens hexports.unexportOpens
        hwrites.1 hwrites'.1⟩

/-- Teardown only has to stay clear of NULL. -/
theorem reported_delPwm_iff {longBits : ℕ} {mem : Mem} {pwmdev : FileOutcome} :
    Reported longBits mem (.delPwm pwmdev) ↔ pwmdev.Opens mem.vars.pwmdevpath := by
  have hrun := run_setEnable "0" pwmdev ⟨none, mem⟩
  by_cases hopens : pwmdev.Opens mem.vars.pwmdevpath
  · rw [if_pos hopens] at hrun
    refine iff_of_true ⟨?_, fun hc => absurd rfl (hc pwmdev)⟩ hopens
    simp [exec, Call.body, delPwm, hrun]
  · rw [if_neg hopens] at hrun
    refine iff_of_false (not_reported_of_null ?_) hopens
    simp [exec, Call.body, delPwm, hrun]

/-- A call with buffering streams is reported precisely when its files serve it. -/
theorem reported_iff_served {longBits : ℕ} {mem : Mem} {c : Call} (hbuffers : c.Buffers) :
    Reported longBits mem c ↔ Served longBits mem c := by
  cases c with
  | newPwm args env => exact reported_newPwm_iff hbuffers
  | start pwmdev => exact reported_setEnable_iff (fun _ => Call.noConfusion) rfl hbuffers
  | stop pwmdev => exact reported_setEnable_iff (fun _ => Call.noConfusion) rfl hbuffers
  | attrs args env =>
    cases hparse : parseAttrs longBits args with
    | none =>
      have hbody : (Call.attrs args env).body longBits = raise "Invalid input parameter." := by
        simp [Call.body, attrs, hparse]
      exact iff_of_true (reported_of_raise hbody) fun h => absurd hparse h
    | some values =>
      have hbody : (Call.attrs args env).body longBits =
          reconfigure (scale longBits values.1) (scale longBits values.2) env := by
        simp [Call.body, attrs, hparse]
      rw [reported_reconfigure_iff (fun _ => Call.noConfusion) hbody hbuffers]
      simp [Served, hparse]
  | rate args env =>
    by_cases hpositive : ∃ rate, parseOne (convertLong longBits) args = some rate ∧ 0 < rate
    · obtain ⟨rate, hparse, hrate⟩ := hpositive
      have hbody : (Call.rate args env).body longBits =
          reconfigure (Int.tdiv (1000 * 1000 * 1000) rate)
            (Int.tdiv (Int.tdiv (1000 * 1000 * 1000) rate) 2) env := by
        simp only [Call.body, Pwm.rate, hparse, if_neg (not_le.mpr hrate)]
      rw [reported_reconfigure_iff (fun _ => Call.noConfusion) hbody hbuffers]
      simp [Served, hparse, hrate]
    · have hbody : (Call.rate args env).body longBits = raise "Invalid input parameter." := by
        cases hparse : parseOne (convertLong longBits) args with
        | none => simp [Call.body, Pwm.rate, hparse]
        | some rate =>
          have hrate : rate ≤ 0 := by
            by_contra h
            exact hpositive ⟨rate, hparse, not_le.mp h⟩
          simp only [Call.body, Pwm.rate, hparse, if_pos hrate]
      exact iff_of_true (reported_of_raise hbody)
        fun rate hparse hrate => absurd ⟨rate, hparse, hrate⟩ hpositive
  | delPwm pwmdev => exact reported_delPwm_iff

/-- From import, with streams that buffer what they are given, every failure is reported
precisely along the runs in which the files of each call serve it. -/
theorem reported_iff_files_serve (longBits : ℕ) {calls : List Call}
    (hbuffers : ∀ c ∈ calls, c.Buffers) :
    Runs.Always (step longBits) (Reported longBits) Mem.initial calls ↔
      Runs.Always (step longBits) (Served longBits) Mem.initial calls :=
  Runs.always_congr (fun _ c hc => reported_iff_served (hbuffers c hc)) Mem.initial

/-- `start()` at import hands NULL to `fwrite`. -/
theorem start_at_import_not_reported :
    ¬Runs.Always (step 32) (Reported 32) Mem.initial [.start .works] :=
  fun h => h.1.noNull rfl

/-- `new_pwm(1)` for an exported channel whose files all work. -/
def openFirst : Call := .newPwm [.atom (.int 1)] ⟨.works, .works, true, .works, .works⟩

/-- Where the files work, `new_pwm(1)` and `start()` report truly. -/
theorem openFirst_start_reported :
    Runs.Always (step 32) (Reported 32) Mem.initial [openFirst, .start .works] := by
  refine (reported_iff_files_serve 32 ?_).mpr ⟨?_, fun mem hmem => ⟨?_, fun _ _ => trivial⟩⟩
  · simp [openFirst, Call.Buffers, FileOutcome.works]
  · exact fun _ _ _ _ _ _ => ⟨.inl rfl, rfl, rfl⟩
  · cases hmem
    exact ⟨⟨by decide, rfl⟩, rfl⟩

end PyModules.Pwm
