import PyModules.Stdio

/-!
# The PWM extension module

The functions of `pwm.c`. `new_pwm` exports a channel, writes a default period and duty
cycle, and leaves the names of the three attribute files in static variables; the other
functions write to the files named there.
-/

namespace PyModules.Pwm

/-- The static variables: names of attribute files, empty at import. -/
structure Paths where
  pwmdevpath : String
  periodpath : String
  cyclespath : String
  deriving DecidableEq, Repr

/-- Memory of the module. -/
abbrev Mem := Host Paths

/-- Memory at import. -/
def Mem.initial : Mem := ⟨⟨"", "", ""⟩, Heap.empty, Heap.empty, []⟩

/-- `sprintf(path, "/sys/class/pwm/pwmchip%d/...", chip)` -/
def chipPath (chip : ℤ) (file : String) : String :=
  "/sys/class/pwm/pwmchip" ++ toString chip ++ "/" ++ file

/-! ## Opening a channel -/

/-- What the system answers `new_pwm`. -/
structure NewEnv where
  exportFile : FileOutcome
  unexportFile : FileOutcome
  /-- `opendir` finds the directory of the channel. -/
  exported : Bool
  periods : FileOutcome
  dutyCycles : FileOutcome
  deriving DecidableEq, Repr

/-- `PyArg_ParseTuple(args, "|i", &devnum)` -/
def parseNewPwm (args : List PyObject) : Option ℤ := do
  if 1 < args.length then none
  optional convertInt 0 args 0

/-- The first part of `new_pwm`: open `export` and `unexport`, and export the channel
unless it has a directory. False where `new_pwm` returns NULL. -/
def exportChannel (chip : ℤ) (env : NewEnv) : CM Mem Bool := do
  let exportFile ← fopen (chipPath chip "export") env.exportFile
  if exportFile.isNone then
    pyErrFormat (openFailed env.exportFile)
    return false
  else
    let unexportFile ← fopen (chipPath chip "unexport") env.unexportFile
    if unexportFile.isNone then
      -- The stream of `export` stays open.
      pyErrFormat (openFailed env.unexportFile)
      return false
    else
      let dir ← opendir (chipPath chip "pwm0") env.exported
      let ret ← if dir.isNone then fwrite (cstr "0") exportFile env.exportFile
        else pure FILE_WRITE_NMEMB
      if ret < FILE_WRITE_NMEMB then
        pyErrFormat (writeFailed env.exportFile)
        let _ ← fclose exportFile env.exportFile
        let _ ← fclose unexportFile env.unexportFile
        return false
      else
        let _ ← fclose exportFile env.exportFile
        let _ ← fclose unexportFile env.unexportFile
        return true

/-- Store the name of the `period` file. -/
def Paths.setPeriodpath (vars : Paths) (chip : ℤ) : Paths :=
  { vars with periodpath := chipPath chip "pwm0/period" }

/-- Store the name of the `duty_cycle` file. -/
def Paths.setCyclespath (vars : Paths) (chip : ℤ) : Paths :=
  { vars with cyclespath := chipPath chip "pwm0/duty_cycle" }

/-- Store the name of the `enable` file. -/
def Paths.setPwmdevpath (vars : Paths) (chip : ℤ) : Paths :=
  { vars with pwmdevpath := chipPath chip "pwm0/enable" }

/-- Change the static variables. -/
def modifyVars (f : Paths → Paths) : CM Mem Unit :=
  modifyMem fun mem => { mem with vars := f mem.vars }

/-- The second part of `new_pwm`: write the defaults, each file named first. -/
def writeDefaults (chip : ℤ) (env : NewEnv) : CM Mem PyRef := do
  modifyVars fun vars => vars.setPeriodpath chip
  if !(← writeChecked (← getMem).vars.periodpath (cstr "1000000000") env.periods) then
    return NULL
  else
    modifyVars fun vars => vars.setCyclespath chip
    if !(← writeChecked (← getMem).vars.cyclespath (cstr "500000000") env.dutyCycles) then
      return NULL
    else
      modifyVars fun vars => vars.setPwmdevpath chip
      return pyTrue

/-- `new_pwm` -/
def newPwm (args : List PyObject) (env : NewEnv) : CM Mem PyRef :=
  match parseNewPwm args with
  | none => raise "Invalid input parameter."
  | some devnum =>
    if devnum < 1 ∨ devnum > 2 then raise "Invalid PWM parameter."
    else do
      if !(← exportChannel (devnum - 1) env) then return NULL
      else writeDefaults (devnum - 1) env

/-! ## Using a channel -/

/-- Write to the `enable` file, the body of `start`, `stop`, and `del_pwm`. -/
def setEnable (value : String) (pwmdev : FileOutcome) : CM Mem PyRef := do
  if ← writeUnchecked (← getMem).vars.pwmdevpath (cstr value) pwmdev then return pyTrue
  else return NULL

/-- `start` -/
def start (pwmdev : FileOutcome) : CM Mem PyRef := setEnable "1" pwmdev

/-- `stop` -/
def stop (pwmdev : FileOutcome) : CM Mem PyRef := setEnable "0" pwmdev

/-- `del_pwm`, the teardown of the module, which returns nothing. -/
def delPwm (pwmdev : FileOutcome) : CM Mem Unit := do
  let _ ← setEnable "0" pwmdev

/-- What the system answers the three writes of `attrs` and `rate`, in their order. -/
structure ReconfigureEnv where
  cleared : FileOutcome
  period : FileOutcome
  dutyCycle : FileOutcome
  deriving DecidableEq, Repr

/-- The part that `attrs` and `rate` share: a duty cycle of 0, the period, and the duty
cycle. -/
def reconfigure (period dutyCycle : ℤ) (env : ReconfigureEnv) : CM Mem PyRef := do
  if !(← writeUnchecked (← getMem).vars.cyclespath (cstr "0") env.cleared) then return NULL
  else if !(← writeUnchecked (← getMem).vars.periodpath (decimal period) env.period) then
    return NULL
  else if !(← writeUnchecked (← getMem).vars.cyclespath (decimal dutyCycle) env.dutyCycle) then
    return NULL
  else return pyTrue

/-- Arithmetic of `long` with two's complement wrapping. -/
def toLong (longBits : ℕ) (v : ℤ) : ℤ := Int.bmod v (2 ^ longBits)

/-- Format `k` into a `long`, which reinterprets the `unsigned long`. -/
def convertLong (longBits : ℕ) (o : PyObject) : Option ℤ :=
  (convertULong longBits o).map (toLong longBits)

/-- `PyArg_ParseTuple(args, "kk", &period, &duty_cycle)` -/
def parseAttrs (longBits : ℕ) : List PyObject → Option (ℤ × ℤ)
  | [periodObj, dutyObj] => do
    let period ← convertLong longBits periodObj
    let dutyCycle ← convertLong longBits dutyObj
    return (period, dutyCycle)
  | _ => none

/-- `v * 1000 * 1000` -/
def scale (longBits : ℕ) (v : ℤ) : ℤ := toLong longBits (toLong longBits (v * 1000) * 1000)

/-- `attrs` -/
def attrs (longBits : ℕ) (args : List PyObject) (env : ReconfigureEnv) : CM Mem PyRef :=
  match parseAttrs longBits args with
  | none => raise "Invalid input parameter."
  | some (period, dutyCycle) =>
    reconfigure (scale longBits period) (scale longBits dutyCycle) env

/-- `rate` -/
def rate (longBits : ℕ) (args : List PyObject) (env : ReconfigureEnv) : CM Mem PyRef :=
  match parseOne (convertLong longBits) args with
  | none => raise "Invalid input parameter."
  | some rate =>
    if rate ≤ 0 then raise "Invalid input parameter."
    else
      let period := Int.tdiv (1000 * 1000 * 1000) rate
      reconfigure period (Int.tdiv period 2) env

/-! ## What `new_pwm` does to a process -/

/-- The chip that the arguments of `new_pwm` select. -/
def channel (args : List PyObject) : Option ℤ := do
  let devnum ← parseNewPwm args
  if devnum < 1 ∨ devnum > 2 then none else some (devnum - 1)

/-- The first part of `new_pwm` gets through. -/
structure NewEnv.Exports (env : NewEnv) : Prop where
  exportOpens : env.exportFile.opens
  unexportOpens : env.unexportFile.opens
  found : env.exported ∨ env.exportFile.writes

/-- The name of a file of a chip is not empty. -/
theorem chipPath_ne (chip : ℤ) (file : String) : chipPath chip file ≠ "" := by
  unfold chipPath
  intro h
  have hlen := congrArg String.length h
  simp [String.length_append] at hlen

@[simp] theorem opens_chipPath {o : FileOutcome} {chip : ℤ} {file : String} :
    o.Opens (chipPath chip file) ↔ o.opens := by
  simp [FileOutcome.Opens, chipPath_ne]

/-- What the first part of `new_pwm` writes when it gets through. -/
def exportLog (chip : ℤ) (env : NewEnv) : List Write :=
  if env.exported then [] else [⟨chipPath chip "export", cstr "0", env.exportFile.accepts⟩]

/-- The first part of `new_pwm` closes both streams, and leaves a directory open. -/
theorem run_exportChannel {env : NewEnv} (h : env.Exports) (chip : ℤ) (s : Proc Mem) :
    (exportChannel chip env).run s = .ok (true, ⟨s.err,
      { s.mem with
        files := s.mem.files.skip.skip
        dirs := if env.exported then s.mem.dirs.alloc (chipPath chip "pwm0") else s.mem.dirs
        log := s.mem.log ++ exportLog chip env }⟩) := by
  cases hdir : env.exported with
  | true =>
    simp [exportChannel, run_fopen, h.exportOpens, h.unexportOpens, opendir, hdir, exportLog,
      FILE_WRITE_NMEMB, fclose, Heap.alloc_cell_of_ne, Heap.alloc_cell_of_eq,
      Heap.free_alloc_of_lt, Heap.free_alloc_of_eq]
  | false =>
    have hwrites : env.exportFile.writes := by simpa [hdir] using h.found
    simp [exportChannel, run_fopen, h.exportOpens, h.unexportOpens, opendir, hdir, exportLog,
      FILE_WRITE_NMEMB, fwrite, hwrites, fclose, Heap.alloc_cell_of_ne, Heap.alloc_cell_of_eq,
      Heap.modify_alloc_of_lt, Heap.free_alloc_of_lt, Heap.free_alloc_of_eq]

/-- Where the first part of `new_pwm` does not get through, it raises. The stream of `export`
stays open if that of `unexport` does not open. -/
theorem run_exportChannel_of_fails {env : NewEnv} (h : ¬env.Exports) (chip : ℤ) (s : Proc Mem) :
    ∃ e files, (exportChannel chip env).run s =
        .ok (false, ⟨some e, { s.mem with files := files }⟩) ∧ e.exc = .module ∧
      (files.live = s.mem.files.live ↔ (env.exportFile.opens → env.unexportFile.opens)) := by
  cases hexport : env.exportFile.opens with
  | false =>
    refine ⟨openFailed env.exportFile, s.mem.files, ?_, rfl, by simp⟩
    simp [exportChannel, run_fopen, hexport]
  | true =>
    cases hunexport : env.unexportFile.opens with
    | false =>
      have hlost := s.mem.files.live_alloc_ne ⟨chipPath chip "export", []⟩
      refine ⟨openFailed env.unexportFile, s.mem.files.alloc ⟨chipPath chip "export", []⟩, ?_, rfl,
        iff_of_false hlost (by simp)⟩
      simp [exportChannel, run_fopen, hexport, hunexport]
    | true =>
      have hdir : env.exported = false := by
        by_contra hfound
        exact h ⟨hexport, hunexport, .inl (by simpa using hfound)⟩
      have hwrites : env.exportFile.writes = false := by
        by_contra hok
        exact h ⟨hexport, hunexport, .inr (by simpa using hok)⟩
      refine ⟨writeFailed env.exportFile, s.mem.files.skip.skip, ?_, rfl, by simp⟩
      simp [exportChannel, run_fopen, hexport, hunexport, opendir, hdir, hwrites,
        FILE_WRITE_NMEMB, fwrite, fclose, Heap.alloc_cell_of_ne, Heap.alloc_cell_of_eq,
        Heap.free_alloc_of_lt, Heap.free_alloc_of_eq]

/-- The `period` file opens and takes the default into its buffer. -/
def NewEnv.WritesPeriod (env : NewEnv) : Prop := env.periods.opens ∧ env.periods.writes

/-- The `duty_cycle` file opens and takes the default into its buffer. -/
def NewEnv.WritesDuty (env : NewEnv) : Prop := env.dutyCycles.opens ∧ env.dutyCycles.writes

/-- The names of the files of one chip. -/
def Paths.of (chip : ℤ) : Paths :=
  ⟨chipPath chip "pwm0/enable", chipPath chip "pwm0/period", chipPath chip "pwm0/duty_cycle"⟩

/-- The default period on its way to the driver. -/
def periodWrite (chip : ℤ) (env : NewEnv) : Write :=
  ⟨chipPath chip "pwm0/period", cstr "1000000000", env.periods.accepts⟩

/-- The default duty cycle on its way to the driver. -/
def dutyWrite (chip : ℤ) (env : NewEnv) : Write :=
  ⟨chipPath chip "pwm0/duty_cycle", cstr "500000000", env.dutyCycles.accepts⟩

/-- Where the period is not written, its file is named all the same. -/
theorem run_writeDefaults_of_no_period {env : NewEnv} (h : ¬env.WritesPeriod) (chip : ℤ)
    (s : Proc Mem) :
    ∃ e files, (writeDefaults chip env).run s = .ok (NULL, ⟨some e,
        { s.mem with vars := s.mem.vars.setPeriodpath chip, files := files }⟩) ∧
      e.exc = .module := by
  have hfails : ¬env.periods.Delivers (chipPath chip "pwm0/period") := by
    simpa [FileOutcome.Delivers, NewEnv.WritesPeriod] using h
  obtain ⟨e, files, hrun, he, _⟩ := run_writeChecked_of_fails hfails (cstr "1000000000")
    ⟨s.err, { s.mem with vars := s.mem.vars.setPeriodpath chip }⟩
  refine ⟨e, files, ?_, he⟩
  simp [writeDefaults, modifyVars, Paths.setPeriodpath] at hrun ⊢
  simp [hrun]

/-- Where the duty cycle is not written, two files are named. -/
theorem run_writeDefaults_of_no_duty {env : NewEnv} (hperiod : env.WritesPeriod)
    (h : ¬env.WritesDuty) (chip : ℤ) (s : Proc Mem) :
    ∃ e files, (writeDefaults chip env).run s = .ok (NULL, ⟨some e,
        { s.mem with
          vars := (s.mem.vars.setPeriodpath chip).setCyclespath chip
          files := files
          log := s.mem.log ++ [periodWrite chip env] }⟩) ∧
      e.exc = .module := by
  have hfails : ¬env.dutyCycles.Delivers (chipPath chip "pwm0/duty_cycle") := by
    simpa [FileOutcome.Delivers, NewEnv.WritesDuty] using h
  have hdelivers : env.periods.Delivers (chipPath chip "pwm0/period") := by
    simpa [FileOutcome.Delivers, NewEnv.WritesPeriod] using hperiod
  obtain ⟨e, files, hrun, he, _⟩ := run_writeChecked_of_fails hfails (cstr "500000000")
    ⟨s.err, { s.mem with
      vars := (s.mem.vars.setPeriodpath chip).setCyclespath chip
      files := s.mem.files.skip
      log := s.mem.log ++ [periodWrite chip env] }⟩
  refine ⟨e, files, ?_, he⟩
  simp [writeDefaults, modifyVars, Paths.setPeriodpath, Paths.setCyclespath, periodWrite,
    run_writeChecked_of_delivers hdelivers, Host.wrote, hperiod.2] at hrun ⊢
  simp [hrun]

/-- With both defaults written, all three files are named. -/
theorem run_writeDefaults {env : NewEnv} (hperiod : env.WritesPeriod) (hduty : env.WritesDuty)
    (chip : ℤ) (s : Proc Mem) :
    (writeDefaults chip env).run s = .ok (pyTrue, ⟨s.err,
      { s.mem with
        vars := Paths.of chip
        files := s.mem.files.skip.skip
        log := s.mem.log ++ [periodWrite chip env, dutyWrite chip env] }⟩) := by
  simp [writeDefaults, modifyVars, run_writeChecked, Paths.setPeriodpath, Paths.setCyclespath,
    Paths.setPwmdevpath, Paths.of, hperiod.1, hperiod.2, hduty.1, hduty.2, Host.wrote,
    periodWrite, dutyWrite]

/-- Arguments that select no chip raise at once. -/
theorem run_newPwm_of_no_channel {args : List PyObject} (h : channel args = none) (env : NewEnv)
    (s : Proc Mem) :
    ∃ e, (newPwm args env).run s = .ok (NULL, ⟨some e, s.mem⟩) ∧ e.exc = .module := by
  unfold newPwm
  cases hparse : parseNewPwm args with
  | none => exact ⟨_, rfl, rfl⟩
  | some devnum =>
    have hrange : devnum < 1 ∨ devnum > 2 := by
      by_contra hno
      simp [channel, hparse, hno] at h
    refine ⟨⟨.module, "Invalid PWM parameter."⟩, ?_, rfl⟩
    simp only [if_pos hrange, run_raise]

/-- Arguments that select a chip lead to the two parts. -/
theorem newPwm_of_channel {args : List PyObject} {chip : ℤ} (h : channel args = some chip)
    (env : NewEnv) :
    newPwm args env = (do
      if !(← exportChannel chip env) then return NULL
      else writeDefaults chip env) := by
  unfold newPwm
  cases hparse : parseNewPwm args with
  | none => simp [channel, hparse] at h
  | some devnum =>
    simp only [channel, hparse, Option.bind_eq_bind, Option.bind_some] at h
    split at h
    · cases h
    · rename_i hrange
      cases h
      simp only [if_neg hrange]

/-- How `new_pwm` with arguments that select a chip can end. -/
inductive NewOutcome (chip : ℤ) (env : NewEnv) (s : Proc Mem) : PyRef → Proc Mem → Prop
  | noExport (h : ¬env.Exports) (e : PyErr) (he : e.exc = .module) (files : Heap Stream) :
    NewOutcome chip env s NULL ⟨some e, { s.mem with files := files }⟩
  | noPeriod (hexports : env.Exports) (h : ¬env.WritesPeriod) (e : PyErr) (he : e.exc = .module)
      (files : Heap Stream) (dirs : Heap String) :
    NewOutcome chip env s NULL ⟨some e, s.mem.vars.setPeriodpath chip, files, dirs,
      s.mem.log ++ exportLog chip env⟩
  | noDuty (hexports : env.Exports) (hperiod : env.WritesPeriod) (h : ¬env.WritesDuty)
      (e : PyErr) (he : e.exc = .module) (files : Heap Stream) (dirs : Heap String) :
    NewOutcome chip env s NULL ⟨some e, (s.mem.vars.setPeriodpath chip).setCyclespath chip,
      files, dirs, s.mem.log ++ exportLog chip env ++ [periodWrite chip env]⟩
  | opened (hexports : env.Exports) (hperiod : env.WritesPeriod) (hduty : env.WritesDuty)
      (files : Heap Stream) (dirs : Heap String) :
    NewOutcome chip env s pyTrue ⟨s.err, Paths.of chip, files, dirs,
      s.mem.log ++ exportLog chip env ++ [periodWrite chip env, dutyWrite chip env]⟩

/-- `new_pwm` returns whatever the system answers. -/
theorem run_newPwm {args : List PyObject} {chip : ℤ} (h : channel args = some chip)
    (env : NewEnv) (s : Proc Mem) :
    ∃ r s', (newPwm args env).run s = .ok (r, s') ∧ NewOutcome chip env s r s' := by
  rw [newPwm_of_channel h, StateT.run_bind]
  by_cases hexports : env.Exports
  · rw [run_exportChannel hexports]
    by_cases hperiod : env.WritesPeriod
    · by_cases hduty : env.WritesDuty
      · exact ⟨_, _, run_writeDefaults hperiod hduty chip _, .opened hexports hperiod hduty _ _⟩
      · obtain ⟨e, files, hrun, he⟩ := run_writeDefaults_of_no_duty hperiod hduty chip _
        exact ⟨_, _, hrun, .noDuty hexports hperiod hduty e he _ _⟩
    · obtain ⟨e, files, hrun, he⟩ := run_writeDefaults_of_no_period hperiod chip _
      exact ⟨_, _, hrun, .noPeriod hexports hperiod e he _ _⟩
  · obtain ⟨e, files, hrun, he, _⟩ := run_exportChannel_of_fails hexports chip s
    rw [hrun]
    exact ⟨_, _, rfl, .noExport hexports e he _⟩

/-! ## What the other functions do to a process -/

/-- `start`, `stop`, and `del_pwm` hand NULL to `fwrite` unless the `enable` file opens. -/
theorem run_setEnable (value : String) (pwmdev : FileOutcome) (s : Proc Mem) :
    (setEnable value pwmdev).run s =
      if pwmdev.Opens s.mem.vars.pwmdevpath then
        .ok (if pwmdev.writes then pyTrue else NULL,
          ⟨if pwmdev.writes then s.err else some (writeFailed pwmdev),
            s.mem.wrote s.mem.vars.pwmdevpath (cstr value) pwmdev⟩)
      else .error .nullPointer := by
  by_cases hopens : pwmdev.Opens s.mem.vars.pwmdevpath
  · cases hwrites : pwmdev.writes <;> simp [setEnable, run_writeUnchecked, hopens, hwrites]
  · simp [setEnable, run_writeUnchecked, hopens]

/-- The files of `reconfigure` open. -/
structure ReconfigureEnv.Opens (env : ReconfigureEnv) (vars : Paths) : Prop where
  cleared : env.cleared.Opens vars.cyclespath
  period : env.period.Opens vars.periodpath
  dutyCycle : env.dutyCycle.Opens vars.cyclespath

/-- The three writes of `reconfigure`. -/
def reconfigureLog (vars : Paths) (period dutyCycle : ℤ) (env : ReconfigureEnv) : List Write :=
  [⟨vars.cyclespath, cstr "0", env.cleared.accepts⟩,
    ⟨vars.periodpath, decimal period, env.period.accepts⟩,
    ⟨vars.cyclespath, decimal dutyCycle, env.dutyCycle.accepts⟩]

/-- The streams of `reconfigure` buffer their data. -/
structure ReconfigureEnv.Buffers (env : ReconfigureEnv) : Prop where
  cleared : env.cleared.writes
  period : env.period.writes
  dutyCycle : env.dutyCycle.writes

/-- With open files, `reconfigure` stops at the first string that is not buffered. -/
theorem run_reconfigure {env : ReconfigureEnv} {s : Proc Mem} (hopens : env.Opens s.mem.vars)
    (period dutyCycle : ℤ) :
    ∃ r s' n, (reconfigure period dutyCycle env).run s = .ok (r, s') ∧
      s'.mem.log = s.mem.log ++ (reconfigureLog s.mem.vars period dutyCycle env).take n ∧
      (env.Buffers → r = pyTrue ∧ s'.err = s.err ∧ n = 3) := by
  cases hcleared : env.cleared.writes with
  | false =>
    refine ⟨NULL, ⟨some (writeFailed env.cleared),
      s.mem.wrote s.mem.vars.cyclespath (cstr "0") env.cleared⟩, 0, ?_, ?_, ?_⟩
    · simp [reconfigure, run_writeUnchecked, hopens.cleared, hcleared]
    · simp [hcleared]
    · intro hbuffers
      simp [hbuffers.cleared] at hcleared
  | true =>
    cases hperiod : env.period.writes with
    | false =>
      refine ⟨NULL, ⟨some (writeFailed env.period),
        (s.mem.wrote s.mem.vars.cyclespath (cstr "0") env.cleared).wrote
          s.mem.vars.periodpath (decimal period) env.period⟩, 1, ?_, ?_, ?_⟩
      · simp [reconfigure, run_writeUnchecked, hopens.cleared, hopens.period, hcleared, hperiod]
      · simp [hcleared, hperiod, reconfigureLog]
      · intro hbuffers
        simp [hbuffers.period] at hperiod
    | true =>
      have hopen := hopens.dutyCycle
      cases hduty : env.dutyCycle.writes with
      | false =>
        refine ⟨NULL, ⟨some (writeFailed env.dutyCycle),
          ((s.mem.wrote s.mem.vars.cyclespath (cstr "0") env.cleared).wrote
            s.mem.vars.periodpath (decimal period) env.period).wrote
            s.mem.vars.cyclespath (decimal dutyCycle) env.dutyCycle⟩, 2, ?_, ?_, ?_⟩
        · simp [reconfigure, run_writeUnchecked, hopens.cleared, hopens.period, hopen, hcleared,
            hperiod, hduty]
        · simp [hcleared, hperiod, hduty, reconfigureLog]
        · intro hbuffers
          simp [hbuffers.dutyCycle] at hduty
      | true =>
        refine ⟨pyTrue, ⟨s.err,
          ((s.mem.wrote s.mem.vars.cyclespath (cstr "0") env.cleared).wrote
            s.mem.vars.periodpath (decimal period) env.period).wrote
            s.mem.vars.cyclespath (decimal dutyCycle) env.dutyCycle⟩, 3, ?_, ?_, ?_⟩
        · simp [reconfigure, run_writeUnchecked, hopens.cleared, hopens.period, hopen, hcleared,
            hperiod, hduty]
        · simp [hcleared, hperiod, hduty, reconfigureLog]
        · exact fun _ => ⟨rfl, rfl, rfl⟩

/-- With buffered data, `reconfigure` hands NULL to `fwrite` unless its files open. -/
theorem run_reconfigure_of_not_opens {env : ReconfigureEnv} {s : Proc Mem}
    (hbuffers : env.Buffers) (h : ¬env.Opens s.mem.vars) (period dutyCycle : ℤ) :
    (reconfigure period dutyCycle env).run s = .error .nullPointer := by
  by_cases hcleared : env.cleared.Opens s.mem.vars.cyclespath
  · by_cases hperiod : env.period.Opens s.mem.vars.periodpath
    · have hduty : ¬env.dutyCycle.Opens s.mem.vars.cyclespath :=
        fun hduty => h ⟨hcleared, hperiod, hduty⟩
      simp [reconfigure, run_writeUnchecked, hcleared, hperiod, hduty, hbuffers.cleared,
        hbuffers.period]
    · simp [reconfigure, run_writeUnchecked, hcleared, hperiod, hbuffers.cleared]
  · simp [reconfigure, run_writeUnchecked, hcleared]

/-! ## Calls -/

/-- The functions that act on the module, with their arguments and the answers they get. -/
inductive Call
  | newPwm (args : List PyObject) (env : NewEnv)
  | start (pwmdev : FileOutcome)
  | attrs (args : List PyObject) (env : ReconfigureEnv)
  | rate (args : List PyObject) (env : ReconfigureEnv)
  | stop (pwmdev : FileOutcome)
  | delPwm (pwmdev : FileOutcome)
  deriving DecidableEq, Repr

/-- The function a call runs; teardown returns nothing, and `None` stands for it. -/
def Call.body (longBits : ℕ) : Call → CM Mem PyRef
  | .newPwm args env => Pwm.newPwm args env
  | .start pwmdev => Pwm.start pwmdev
  | .attrs args env => Pwm.attrs longBits args env
  | .rate args env => Pwm.rate longBits args env
  | .stop pwmdev => Pwm.stop pwmdev
  | .delPwm pwmdev => do
    Pwm.delPwm pwmdev
    return pyNone

/-- Python calls a function with the error indicator clear. -/
def exec (longBits : ℕ) (mem : Mem) (c : Call) : Except Fault (PyRef × Proc Mem) :=
  (c.body longBits).run ⟨none, mem⟩

/-- The memory after a call. -/
def step (longBits : ℕ) (mem : Mem) (c : Call) : Except Fault Mem :=
  (exec longBits mem c).map fun r => r.2.mem

end PyModules.Pwm
