import PyModules.Attributes
import PyModules.Library.Overlap
import PyModules.Library.Runs
import PyModules.Pwm.Writes

/-!
# Channels that run

`start` and `stop` write to the one `enable` file that the static variables name. A `new_pwm`
for another chip renames it, and a channel that runs then is out of reach: nothing stops it,
the teardown of the module included. This file says which runs keep every running channel in
reach.
-/

namespace PyModules.Pwm

/-! ## Files of chips -/

/-- Different files of chips have different names. -/
theorem chipPath_inj {chip k : ℤ} {file file' : String} :
    chipPath chip file = chipPath k file' ↔ chip = k ∧ file = file' := by
  constructor
  · intro h
    have hborder : ∀ n, Overlap.IsBorder ['/'] n → n = 0 := by
      intro n hn
      have hlt := hn.1
      simp only [List.length_singleton] at hlt
      omega
    have hslash : ∀ v : ℤ, ¬['/'] <:+: (toString v).toList := by
      intro v hin
      have hmem : '/' ∈ (toString v).toList := hin.subset List.mem_cons_self
      rcases Decimal.isNumeral_of_mem_toString hmem with hminus | hdigit
      · exact absurd hminus (by decide)
      · exact absurd hdigit (by decide)
    unfold chipPath at h
    have hlist := congrArg String.toList h
    simp only [String.toList_append, List.append_assoc] at hlist
    obtain ⟨hchip, hfile⟩ := Overlap.separated_unique hborder (hslash chip) (hslash k)
      (List.append_cancel_left hlist)
    refine ⟨?_, String.toList_injective hfile⟩
    have hread := Decimal.read_toString chip
    rw [hchip, Decimal.read_toString] at hread
    exact (Option.some.inj hread).symm
  · rintro ⟨rfl, rfl⟩
    rfl

/-- The name of the `enable` file of a chip. -/
def enablePath (chip : ℤ) : String := chipPath chip "pwm0/enable"

/-- A channel runs while its `enable` file holds a 1. -/
def Running (files : Contents) (chip : ℤ) : Prop := files (enablePath chip) = some (cstr "1")

instance (files : Contents) (chip : ℤ) : Decidable (Running files chip) :=
  inferInstanceAs (Decidable (_ = _))

/-- The attribute files as the writes since import left them. -/
def Mem.files (mem : Mem) : Contents := Contents.untouched.after mem.log

/-- No channel runs but that whose `enable` file is named. -/
def InReach (mem : Mem) : Prop :=
  ∀ chip, Running mem.files chip → mem.vars.pwmdevpath = enablePath chip

/-- What a call must do about running channels. -/
structure Controlled (longBits : ℕ) (mem : Mem) (c : Call) : Prop where
  inReach : ∀ mem', step longBits mem c = .ok mem' → InReach mem'
  /-- A `stop` or a teardown whose file works stops whatever runs. -/
  stops : ∀ pwmdev, c = .stop pwmdev ∨ c = .delPwm pwmdev →
    pwmdev.opens → pwmdev.writes → pwmdev.accepts → (∃ chip, Running mem.files chip) →
    ∃ mem', step longBits mem c = .ok mem' ∧ ∀ chip, ¬Running mem'.files chip

/-- A `new_pwm` that gets through to its end finds no other channel running. -/
def FindsOthersStopped (mem : Mem) : Call → Prop
  | .newPwm args env => ∀ chip, channel args = some chip → env.Exports → env.WritesPeriod →
      env.WritesDuty → ∀ k, Running mem.files k → k = chip
  | _ => True

/-! ## Writes that start or stop nothing -/

/-- No write is to an `enable` file. -/
def AvoidsEnable (ws : List Write) : Prop := ∀ w ∈ ws, ∀ chip, w.path ≠ enablePath chip

/-- Such writes leave the running channels as they are. -/
theorem AvoidsEnable.running_iff {ws : List Write} (h : AvoidsEnable ws) {mem mem' : Mem}
    (hlog : mem'.log = mem.log ++ ws) (chip : ℤ) :
    Running mem'.files chip ↔ Running mem.files chip := by
  rw [Running, Running, Mem.files, hlog, after_append, after_of_notMem fun w hw => h w hw chip]
  exact Iff.rfl

/-- Other files of chips are not `enable` files. -/
theorem chipPath_ne_enablePath {file : String} (h : file ≠ "pwm0/enable") (k chip : ℤ) :
    chipPath k file ≠ enablePath chip := fun heq => h (chipPath_inj.mp heq).2

/-- The files that `attrs` and `rate` write to are no `enable` files. -/
structure Kinds (vars : Paths) : Prop where
  period : ∀ chip, vars.periodpath ≠ enablePath chip
  cycles : ∀ chip, vars.cyclespath ≠ enablePath chip

/-- At import, no file is named. -/
theorem kinds_initial : Kinds Mem.initial.vars :=
  ⟨fun chip => (chipPath_ne chip _).symm, fun chip => (chipPath_ne chip _).symm⟩

/-- `new_pwm` names each file for what it is. -/
theorem Kinds.of_wrote {longBits : ℕ} {vars vars' : Paths} (h : Kinds vars) {c : Call}
    {ws : List Write} (hwrote : Wrote longBits vars c vars' ws) : Kinds vars' := by
  have hperiod : ∀ k chip, chipPath k "pwm0/period" ≠ enablePath chip :=
    chipPath_ne_enablePath (by decide)
  have hcycles : ∀ k chip, chipPath k "pwm0/duty_cycle" ≠ enablePath chip :=
    chipPath_ne_enablePath (by decide)
  cases hwrote with
  | unopened _ | switched _ _ | reconfigured _ _ | rejected _ _ _ => exact h
  | noPeriod _ _ _ => exact ⟨hperiod _, h.cycles⟩
  | noDuty _ _ _ _ => exact ⟨hperiod _, hcycles _⟩
  | opened _ _ _ _ => exact ⟨hperiod _, hcycles _⟩

/-- The files that `new_pwm` writes to are no `enable` files. -/
theorem avoidsEnable_newPwm (chip : ℤ) (env : NewEnv) :
    AvoidsEnable (exportLog chip env ++ [periodWrite chip env, dutyWrite chip env]) := by
  intro w hw k
  simp only [List.mem_append, List.mem_cons, List.not_mem_nil, or_false] at hw
  rcases hw with hexport | rfl | rfl
  · unfold exportLog at hexport
    split at hexport
    · cases hexport
    · obtain rfl := List.mem_singleton.mp hexport
      exact chipPath_ne_enablePath (by decide) chip k
  · exact chipPath_ne_enablePath (by decide) chip k
  · exact chipPath_ne_enablePath (by decide) chip k

/-- A first part of such writes is no different. -/
theorem AvoidsEnable.left {ws ws' : List Write} (h : AvoidsEnable (ws ++ ws')) : AvoidsEnable ws :=
  fun w hw => h w (List.mem_append_left _ hw)

/-- All writes but those of `start`, `stop`, and the teardown. -/
theorem Wrote.avoidsEnable {longBits : ℕ} {vars vars' : Paths} (hkinds : Kinds vars) {c : Call}
    (hc : c.switch = none) {ws : List Write} (hwrote : Wrote longBits vars c vars' ws) :
    AvoidsEnable ws := by
  have hnone : AvoidsEnable [] := fun w hw => absurd hw List.not_mem_nil
  cases hwrote with
  | unopened _ | rejected _ _ _ => exact hnone
  | @noPeriod args env chip _ _ _ => exact (avoidsEnable_newPwm chip env).left
  | @noDuty args env chip _ _ _ _ =>
    have hwhole := avoidsEnable_newPwm chip env
    rw [List.append_cons] at hwhole
    exact hwhole.left
  | opened _ _ _ _ => exact avoidsEnable_newPwm _ _
  | switched hswitch _ => simp [hc] at hswitch
  | reconfigured _ _ =>
    intro w hw chip
    have hmem := List.mem_of_mem_take hw
    simp only [reconfigureLog, List.mem_cons, List.not_mem_nil, or_false] at hmem
    rcases hmem with rfl | rfl | rfl
    · exact hkinds.cycles chip
    · exact hkinds.period chip
    · exact hkinds.cycles chip

/-! ## What a call does to the reach -/

/-- After a write to the `enable` file that is named, only its channel may run besides those
that ran before. -/
theorem running_of_switched {longBits : ℕ} {mem mem' : Mem} {c : Call} {value : String}
    {pwmdev : FileOutcome} (hc : c.switch = some (value, pwmdev))
    (hstep : step longBits mem c = .ok mem') {chip : ℤ} (hrunning : Running mem'.files chip) :
    mem'.vars = mem.vars ∧
      (mem.vars.pwmdevpath = enablePath chip ∨ Running mem.files chip) := by
  obtain ⟨⟨r, s'⟩, hrun, rfl⟩ := map_eq_ok.mp hstep
  obtain ⟨_, hmem⟩ := mem_of_exec_switch hc hrun
  refine ⟨by rw [hmem]; rfl, or_iff_not_imp_left.mpr fun hne => ?_⟩
  have hother : ∀ w ∈ Stream.flush ⟨mem.vars.pwmdevpath,
      if pwmdev.writes then cstr value else []⟩ pwmdev.accepts, w.path ≠ enablePath chip := by
    intro w hw
    by_cases hwrites : pwmdev.writes
    · rw [if_pos hwrites, flush_of_ne (cstr_ne_nil value)] at hw
      obtain rfl := List.mem_singleton.mp hw
      exact hne
    · rw [if_neg hwrites, flush_nil] at hw
      cases hw
  rwa [Running, Mem.files, hmem, wrote_log, after_append, after_of_notMem hother] at hrunning

/-- A served `stop` or teardown stops the channel whose file is named. -/
theorem not_running_of_stopped {longBits : ℕ} {mem mem' : Mem} (hreach : InReach mem) {c : Call}
    {pwmdev : FileOutcome} (hc : c.switch = some ("0", pwmdev)) (hwrites : pwmdev.writes)
    (haccepts : pwmdev.accepts) (hstep : step longBits mem c = .ok mem') (chip : ℤ) :
    ¬Running mem'.files chip := by
  intro hrunning
  have hnamed : mem.vars.pwmdevpath = enablePath chip := by
    rcases (running_of_switched hc hstep hrunning).2 with hnamed | hbefore
    · exact hnamed
    · exact hreach chip hbefore
  obtain ⟨⟨r, s'⟩, hrun, rfl⟩ := map_eq_ok.mp hstep
  obtain ⟨_, hmem⟩ := mem_of_exec_switch hc hrun
  rw [Running, Mem.files, hmem, wrote_log, if_pos hwrites, flush_of_ne (cstr_ne_nil "0"),
    after_append] at hrunning
  have hzero : some (cstr "0") = some (cstr "1") := by
    rw [← hrunning, Contents.after, List.foldl_cons, List.foldl_nil, take_apply,
      if_pos ⟨haccepts, hnamed.symm⟩]
  exact absurd (Option.some.inj hzero) (by decide)

/-- With every running channel in reach, a call keeps it so precisely if it is no `new_pwm`
that gets through while another channel runs. -/
theorem inReach_iff {longBits : ℕ} {mem mem' : Mem} (hreach : InReach mem)
    (hkinds : Kinds mem.vars) {c : Call} (hstep : step longBits mem c = .ok mem') :
    InReach mem' ↔ FindsOthersStopped mem c := by
  cases hswitch : c.switch with
  | some v =>
    have hcond : FindsOthersStopped mem c := by
      cases c with
      | newPwm args env => cases hswitch
      | _ => trivial
    refine iff_of_true (fun chip hrunning => ?_) hcond
    obtain ⟨hvars, hnamed | hbefore⟩ := running_of_switched hswitch hstep hrunning
    · rw [hvars, hnamed]
    · rw [hvars, hreach chip hbefore]
  | none =>
    obtain ⟨ws, hlog, hwrote⟩ := step_wrote hstep
    have hsame := (hwrote.avoidsEnable hkinds hswitch).running_iff hlog
    have hkept : mem'.vars.pwmdevpath = mem.vars.pwmdevpath → InReach mem' := by
      intro hpath chip hrunning
      rw [hpath, hreach chip ((hsame chip).mp hrunning)]
    generalize hvars : mem'.vars = vars at hwrote hkept
    cases hwrote with
    | unopened hno =>
      refine iff_of_true (hkept rfl) fun chip hchannel hexports => ?_
      exact absurd hexports (hno chip hchannel)
    | noPeriod hchannel hexports hno =>
      exact iff_of_true (hkept rfl) fun chip _ _ hperiod => absurd hperiod hno
    | noDuty hchannel hexports hperiod hno =>
      exact iff_of_true (hkept rfl) fun chip _ _ _ hduty => absurd hduty hno
    | @opened args env chip hchannel hexports hperiod hduty =>
      constructor
      · intro hreach' chip' hchannel' _ _ _ k hrunning
        obtain rfl : chip = chip' := by simpa [hchannel] using hchannel'
        have hnamed := hreach' k ((hsame k).mpr hrunning)
        rw [hvars] at hnamed
        exact (chipPath_inj.mp hnamed).1.symm
      · intro hothers k hrunning
        have hk := hothers chip hchannel hexports hperiod hduty k ((hsame k).mp hrunning)
        rw [hvars, hk]
        rfl
    | switched hc _ => simp [hswitch] at hc
    | reconfigured hc _ =>
      have hcond : FindsOthersStopped mem c := by
        cases c with
        | newPwm args env => cases hc
        | _ => trivial
      exact iff_of_true (hkept rfl) hcond
    | rejected hnew _ _ =>
      have hcond : FindsOthersStopped mem c := by
        cases c with
        | newPwm args env => exact absurd rfl (hnew args env)
        | _ => trivial
      exact iff_of_true (hkept rfl) hcond

/-- A `stop` or a teardown whose file works returns if a channel in reach runs. -/
theorem step_stop {mem : Mem} (hreach : InReach mem) {c : Call} {pwmdev : FileOutcome}
    (hc : c.switch = some ("0", pwmdev)) (hopens : pwmdev.opens) {chip : ℤ}
    (hrunning : Running mem.files chip) (longBits : ℕ) :
    ∃ mem', step longBits mem c = .ok mem' := by
  have hnamed : pwmdev.Opens mem.vars.pwmdevpath := by
    rw [hreach chip hrunning]
    exact ⟨chipPath_ne chip _, hopens⟩
  obtain ⟨r, err, hexec⟩ := exec_switch hc longBits mem
  rw [if_pos hnamed] at hexec
  exact ⟨_, map_eq_ok.mpr ⟨_, hexec, rfl⟩⟩

/-- With every running channel in reach, a call is controlled precisely if it is no `new_pwm`
that gets through while another channel runs. -/
theorem controlled_iff {longBits : ℕ} {mem : Mem} (hreach : InReach mem) (hkinds : Kinds mem.vars)
    (c : Call) : Controlled longBits mem c ↔ FindsOthersStopped mem c := by
  constructor
  · intro h
    cases c with
    | newPwm args env =>
      intro chip hchannel hexports hperiod hduty
      obtain ⟨r, s', hrun, _⟩ := run_newPwm hchannel env ⟨none, mem⟩
      have hstep : step longBits mem (.newPwm args env) = .ok s'.mem :=
        map_eq_ok.mpr ⟨_, hrun, rfl⟩
      have hothers := (inReach_iff hreach hkinds hstep).mp (h.inReach _ hstep)
      exact hothers chip hchannel hexports hperiod hduty
    | _ => trivial
  · intro hothers
    refine ⟨fun mem' hstep => (inReach_iff hreach hkinds hstep).mpr hothers, ?_⟩
    intro pwmdev hc hopens hwrites haccepts hsome
    obtain ⟨chip, hrunning⟩ := hsome
    have hswitch : c.switch = some ("0", pwmdev) := by rcases hc with rfl | rfl <;> rfl
    obtain ⟨mem', hstep⟩ := step_stop hreach hswitch hopens hrunning longBits
    exact ⟨mem', hstep, not_running_of_stopped hreach hswitch hwrites haccepts hstep⟩

/-- From import, `stop` and the teardown reach whatever runs precisely along the runs in which
no `new_pwm` gets through while the channel of another chip runs. -/
theorem running_in_reach_iff (longBits : ℕ) (calls : List Call) :
    Runs.Always (step longBits) (Controlled longBits) Mem.initial calls ↔
      Runs.Always (step longBits) FindsOthersStopped Mem.initial calls := by
  have hinit : InReach Mem.initial ∧ Kinds Mem.initial.vars := by
    refine ⟨fun chip hrunning => ?_, kinds_initial⟩
    cases hrunning
  refine Runs.always_iff_always (I := fun mem => InReach mem ∧ Kinds mem.vars) ?_ ?_ hinit calls
  · rintro mem c ⟨hreach, hkinds⟩
    exact controlled_iff hreach hkinds c
  · rintro mem c mem' ⟨hreach, hkinds⟩ hothers hstep
    obtain ⟨ws, _, hwrote⟩ := step_wrote hstep
    exact ⟨(inReach_iff hreach hkinds hstep).mpr hothers, hkinds.of_wrote hwrote⟩

end PyModules.Pwm
