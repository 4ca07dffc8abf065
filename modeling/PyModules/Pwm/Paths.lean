import PyModules.Frames
import PyModules.Library.Runs
import PyModules.Pwm.Pwm

/-!
# The file names in the static variables

`new_pwm` is the only function that names files, one static variable at a time between
its writes. This file says which runs keep the three names consistent.
-/

namespace PyModules.Pwm

/-- All names are empty, or all name files of one chip. -/
def Consistent (vars : Paths) : Prop := vars = ⟨"", "", ""⟩ ∨ ∃ chip, vars = Paths.of chip

/-- What a call must do with the names. -/
structure KeepsNames (longBits : ℕ) (mem : Mem) (c : Call) : Prop where
  consistent : ∀ mem', step longBits mem c = .ok mem' → Consistent mem'.vars
  /-- A `new_pwm` that raises changes no name. -/
  unchanged : ∀ args env, c = .newPwm args env → ∀ s', exec longBits mem c = .ok (NULL, s') →
    s'.mem.vars = mem.vars

/-- A `new_pwm` that gets past the export and then fails to write a default is for the chip
that the names are those of already. -/
def FailsOnSameChip (mem : Mem) : Call → Prop
  | .newPwm args env => ∀ chip, channel args = some chip → env.Exports →
      ¬(env.WritesPeriod ∧ env.WritesDuty) → mem.vars = Paths.of chip
  | _ => True

/-! ## Calls that name no file -/

/-- The static variables are the same. -/
def SameVars (mem mem' : Mem) : Prop := mem'.vars = mem.vars

instance : IsFrame SameVars (fun _ => True) where
  refl _ := rfl
  trans _ _ _ h h' := h'.trans h
  back _ _ _ _ := trivial

/-- A program that leaves the static variables alone. -/
abbrev KeepsVars {α : Type} (x : CM Mem α) : Prop := Frames SameVars (fun _ => True) x

theorem keepsVars_writeUnchecked (path : String) (data : List UInt8) (o : FileOutcome) :
    KeepsVars (writeUnchecked path data o) where
  keeps s a s' h := by
    rw [run_writeUnchecked] at h
    split at h
    · cases h
      rfl
    · cases h
  freed _ _ := trivial

theorem keepsVars_setEnable (value : String) (pwmdev : FileOutcome) :
    KeepsVars (setEnable value pwmdev) :=
  Frames.getMem.bind fun _ => (keepsVars_writeUnchecked _ _ _).bind fun _ =>
    Frames.ite (Frames.pure _) (Frames.pure _)

theorem keepsVars_reconfigure (period dutyCycle : ℤ) (env : ReconfigureEnv) :
    KeepsVars (reconfigure period dutyCycle env) := by
  refine Frames.getMem.bind fun _ => (keepsVars_writeUnchecked _ _ _).bind fun _ =>
    Frames.ite (Frames.pure _) ?_
  refine Frames.getMem.bind fun _ => (keepsVars_writeUnchecked _ _ _).bind fun _ =>
    Frames.ite (Frames.pure _) ?_
  exact Frames.getMem.bind fun _ => (keepsVars_writeUnchecked _ _ _).bind fun _ =>
    Frames.ite (Frames.pure _) (Frames.pure _)

theorem keepsVars_attrs (longBits : ℕ) (args : List PyObject) (env : ReconfigureEnv) :
    KeepsVars (attrs longBits args env) := by
  unfold attrs
  split
  · exact Frames.raise _
  · exact keepsVars_reconfigure _ _ _

theorem keepsVars_rate (longBits : ℕ) (args : List PyObject) (env : ReconfigureEnv) :
    KeepsVars (rate longBits args env) := by
  unfold rate
  split
  · exact Frames.raise _
  · exact Frames.ite (Frames.raise _) (keepsVars_reconfigure _ _ _)

/-- Only `new_pwm` names files. -/
theorem keepsVars_body (longBits : ℕ) {c : Call} (h : ∀ args env, c ≠ .newPwm args env) :
    KeepsVars (c.body longBits) := by
  cases c with
  | newPwm args env => exact absurd rfl (h args env)
  | start pwmdev => exact keepsVars_setEnable _ _
  | attrs args env => exact keepsVars_attrs longBits args env
  | rate args env => exact keepsVars_rate longBits args env
  | stop pwmdev => exact keepsVars_setEnable _ _
  | delPwm pwmdev =>
    exact ((keepsVars_setEnable _ _).bind fun _ => Frames.pure _).bind fun _ => Frames.pure _

/-! ## What `new_pwm` leaves in the variables -/

/-- Equal names of files are names for the same chip. -/
theorem toString_of_chipPath_eq {chip k : ℤ} {file : String}
    (h : chipPath k file = chipPath chip file) : toString k = toString chip := by
  unfold chipPath at h
  have hlist := congrArg String.toList h
  simp only [String.toList_append, List.append_assoc] at hlist
  have hrest := List.append_cancel_left hlist
  exact String.toList_injective (List.append_cancel_right hrest)

/-- Consistent names are those of a chip if one of them is. -/
theorem eq_of_named {vars : Paths} {chip : ℤ} (h : Consistent vars)
    (hperiod : vars.periodpath = chipPath chip "pwm0/period") : vars = Paths.of chip := by
  rcases h with rfl | ⟨k, rfl⟩
  · exact absurd hperiod.symm (chipPath_ne chip _)
  · unfold Paths.of chipPath
    rw [toString_of_chipPath_eq hperiod]

/-- What a `new_pwm` that returned must have done with the names. -/
theorem keepsNames_iff_of_run {longBits : ℕ} {mem : Mem} {args : List PyObject} {env : NewEnv}
    {r : PyRef} {s' : Proc Mem} (hrun : exec longBits mem (.newPwm args env) = .ok (r, s')) :
    KeepsNames longBits mem (.newPwm args env) ↔
      Consistent s'.mem.vars ∧ (r = NULL → s'.mem.vars = mem.vars) := by
  constructor
  · intro h
    refine ⟨h.consistent s'.mem (by rw [step, hrun]; rfl), ?_⟩
    rintro rfl
    exact h.unchanged args env rfl s' hrun
  · rintro ⟨hcons, hsame⟩
    constructor
    · intro mem' hstep
      rw [step, hrun] at hstep
      cases hstep
      exact hcons
    · intro _ _ _ s1 hnull
      rw [hrun] at hnull
      cases hnull
      exact hsame rfl

/-- On consistent names, `new_pwm` keeps them and undoes its failures precisely when it fails
on the chip they are those of. -/
theorem keepsNames_newPwm_iff {longBits : ℕ} {mem : Mem} (h : Consistent mem.vars)
    (args : List PyObject) (env : NewEnv) :
    KeepsNames longBits mem (.newPwm args env) ↔ FailsOnSameChip mem (.newPwm args env) := by
  cases hchannel : channel args with
  | none =>
    obtain ⟨e, hrun, _⟩ := run_newPwm_of_no_channel hchannel env ⟨none, mem⟩
    rw [keepsNames_iff_of_run hrun]
    simp [FailsOnSameChip, hchannel, h]
  | some chip =>
    obtain ⟨r, s', hrun, houtcome⟩ := run_newPwm hchannel env ⟨none, mem⟩
    rw [keepsNames_iff_of_run hrun]
    have hcond : FailsOnSameChip mem (.newPwm args env) ↔
        (env.Exports → ¬(env.WritesPeriod ∧ env.WritesDuty) → mem.vars = Paths.of chip) := by
      simp [FailsOnSameChip, hchannel]
    rw [hcond]
    cases houtcome with
    | noExport hno e he files =>
      exact ⟨fun _ hexports => absurd hexports hno, fun _ => ⟨h, fun _ => rfl⟩⟩
    | noPeriod hexports hno e he files dirs =>
      constructor
      · rintro ⟨_, hsame⟩ _ _
        exact eq_of_named h (congrArg Paths.periodpath (hsame rfl)).symm
      · intro hsame
        have hvars := hsame hexports fun hboth => hno hboth.1
        rw [hvars]
        exact ⟨.inr ⟨chip, rfl⟩, fun _ => rfl⟩
    | noDuty hexports hperiod hno e he files dirs =>
      constructor
      · rintro ⟨_, hsame⟩ _ _
        exact eq_of_named h (congrArg Paths.periodpath (hsame rfl)).symm
      · intro hsame
        have hvars := hsame hexports fun hboth => hno hboth.2
        rw [hvars]
        exact ⟨.inr ⟨chip, rfl⟩, fun _ => rfl⟩
    | opened hexports hperiod hduty files dirs =>
      have htrue : pyTrue ≠ NULL := by decide
      exact ⟨fun _ _ hno => absurd ⟨hperiod, hduty⟩ hno,
        fun _ => ⟨.inr ⟨chip, rfl⟩, fun hnull => absurd hnull htrue⟩⟩

/-- On consistent names, a call does right by them precisely when it is no `new_pwm` that
fails on another chip. -/
theorem keepsNames_iff {longBits : ℕ} {mem : Mem} (h : Consistent mem.vars) (c : Call) :
    KeepsNames longBits mem c ↔ FailsOnSameChip mem c := by
  by_cases hnew : ∃ args env, c = .newPwm args env
  · obtain ⟨args, env, rfl⟩ := hnew
    exact keepsNames_newPwm_iff h args env
  · have hno : ∀ args env, c ≠ .newPwm args env := fun args env hc => hnew ⟨args, env, hc⟩
    have hkeeps : KeepsNames longBits mem c := by
      refine ⟨fun mem' hstep => ?_, fun args env hc => absurd hc (hno args env)⟩
      obtain ⟨⟨r, s'⟩, hrun, rfl⟩ := map_eq_ok.mp hstep
      have hvars : s'.mem.vars = mem.vars := (keepsVars_body longBits hno).keeps _ _ _ hrun
      rw [hvars]
      exact h
    have hcond : FailsOnSameChip mem c := by
      cases c with
      | newPwm args env => exact absurd rfl (hno args env)
      | _ => trivial
    exact ⟨fun _ => hcond, fun _ => hkeeps⟩

/-- From import, the names stay consistent and a `new_pwm` that raises changes none of them
precisely along the runs in which it fails to write a default only on the same chip. -/
theorem names_kept_iff_same_chip (longBits : ℕ) (calls : List Call) :
    Runs.Always (step longBits) (KeepsNames longBits) Mem.initial calls ↔
      Runs.Always (step longBits) FailsOnSameChip Mem.initial calls := by
  have hinit : Consistent Mem.initial.vars := .inl rfl
  refine Runs.always_iff_always (I := fun mem => Consistent mem.vars) ?_ ?_ hinit calls
  · intro mem c h
    exact keepsNames_iff h c
  · intro mem c mem' h hcond hstep
    exact ((keepsNames_iff h c).mpr hcond).consistent mem' hstep

/-- `new_pwm(1)` that cannot open the `period` file of an exported channel. -/
def newWithoutPeriod : Call :=
  .newPwm [.atom (.int 1)]
    ⟨.works, .works, true, ⟨false, false, false, "No such file or directory"⟩, .works⟩

/-- A failed `new_pwm(1)` leaves the name of the `period` file behind. -/
theorem failed_newPwm_names_period :
    ¬Runs.Always (step 32) (KeepsNames 32) Mem.initial [newWithoutPeriod] := by
  intro h
  have hsame := h.1.unchanged _ _ rfl _ rfl
  exact absurd hsame (by decide)

end PyModules.Pwm
