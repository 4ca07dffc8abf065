import PyModules.IxoraLed
import PyModules.Library.Runs
import PyModules.Pwm.Pwm

/-!
# Streams and directories that stay open

`ioctl` and `clear` close every stream they open, whatever fails. `new_pwm` returns early
between the two streams it holds at once, and opens a directory only to see whether it is
there. This file says which calls leave a handle open.
-/

namespace PyModules

variable {σ α β : Type}

/-- The same streams and the same directories are open. -/
structure SameHandles (mem mem' : Host σ) : Prop where
  files : mem'.files.live = mem.files.live
  dirs : mem'.dirs.live = mem.dirs.live

/-- Nothing opens or closes by itself. -/
theorem SameHandles.refl (mem : Host σ) : SameHandles mem mem := ⟨rfl, rfl⟩

/-- Two parts that leave nothing open leave nothing open together. -/
theorem SameHandles.trans {mem mem' mem'' : Host σ} (h : SameHandles mem mem')
    (h' : SameHandles mem' mem'') : SameHandles mem mem'' :=
  ⟨h'.files.trans h.files, h'.dirs.trans h.dirs⟩

/-- What leaves nothing open does not matter for what is open. -/
theorem SameHandles.iff_of_right {mem mem' mem'' : Host σ} (h : SameHandles mem' mem'') :
    SameHandles mem mem'' ↔ SameHandles mem mem' := by
  constructor
  · intro h'
    exact h'.trans ⟨h.files.symm, h.dirs.symm⟩
  · intro h'
    exact h'.trans h

/-- A program that returns, with every handle it opened closed again. A handle closed twice
is a use after free, and the program would not return. -/
def Closes (x : CM (Host σ) α) : Prop :=
  ∀ s, ∃ a s', x.run s = .ok (a, s') ∧ SameHandles s.mem s'.mem

namespace Closes

/-- A program that does not touch handles. -/
theorem of_kept {x : CM (Host σ) α}
    (h : ∀ s, ∃ a s', x.run s = .ok (a, s') ∧ s'.mem.files = s.mem.files ∧
      s'.mem.dirs = s.mem.dirs) : Closes x := by
  intro s
  obtain ⟨a, s', hrun, hfiles, hdirs⟩ := h s
  exact ⟨a, s', hrun, by rw [hfiles], by rw [hdirs]⟩

theorem pure (a : α) : Closes (Pure.pure a : CM (Host σ) α) :=
  of_kept fun s => ⟨a, s, rfl, rfl, rfl⟩

theorem raise (msg : String) : Closes (PyModules.raise msg : CM (Host σ) PyRef) :=
  of_kept fun s => ⟨NULL, _, run_raise msg s, rfl, rfl⟩

theorem getMem : Closes (PyModules.getMem : CM (Host σ) (Host σ)) :=
  of_kept fun s => ⟨s.mem, s, rfl, rfl, rfl⟩

/-- A sequence closes what its parts close. -/
theorem bind {x : CM (Host σ) α} {f : α → CM (Host σ) β} (hx : Closes x)
    (hf : ∀ a, Closes (f a)) : Closes (x >>= f) := by
  intro s
  obtain ⟨a, s', hrun, hsame⟩ := hx s
  obtain ⟨b, s'', hrest, hsame'⟩ := hf a s'
  exact ⟨b, s'', by rw [StateT.run_bind, hrun, ok_bind, hrest], hsame.trans hsame'⟩

/-- A choice closes what both sides close. -/
theorem ite {c : Prop} [Decidable c] {x y : CM (Host σ) α} (hx : Closes x) (hy : Closes y) :
    Closes (if c then x else y) := by
  split <;> assumption

/-- A checked use of a file closes its stream. -/
theorem writeChecked (path : String) (data : List UInt8) (o : FileOutcome) :
    Closes (PyModules.writeChecked path data o : CM (Host σ) Bool) := by
  intro s
  rw [run_writeChecked]
  by_cases hopens : o.Opens path
  · exact ⟨_, _, if_pos hopens, rfl, rfl⟩
  · exact ⟨_, _, if_neg hopens, rfl, rfl⟩

end Closes

/-! ## The LED module -/

namespace IxoraLed

/-- `ioctl` closes its stream. -/
theorem closes_ioctl (args : List PyObject) (leddev : FileOutcome) :
    Closes (ioctl args leddev) := by
  unfold ioctl
  cases parseIoctl args with
  | none => exact .raise _
  | some values =>
    obtain ⟨num, color, status⟩ := values
    refine .ite (.raise _) (.ite (.raise _) (.ite (.raise _) ?_))
    cases colorName color with
    | none => exact .raise _
    | some colors => exact (Closes.writeChecked _ _ _).bind fun _ => .ite (.pure _) (.pure _)

/-- The loops of `led_exit` close every stream, also the one of a failure. -/
theorem closes_switchOff (leddev : ℤ × String → FileOutcome) (todo : List (ℤ × String)) :
    Closes (switchOff leddev todo) := by
  induction todo with
  | nil => exact .pure _
  | cons led rest ih => exact (Closes.writeChecked _ _ _).bind fun _ => .ite ih (.pure _)

/-- `clear` closes every stream. -/
theorem closes_clear (leddev : ℤ × String → FileOutcome) : Closes (clear leddev) :=
  (closes_switchOff leddev leds).bind fun _ => .pure _

end IxoraLed

/-! ## The PWM module -/

namespace Pwm

/-- Naming a file opens none. -/
theorem closes_modifyVars (f : Paths → Paths) : Closes (modifyVars f) :=
  .of_kept fun _ => ⟨(), _, rfl, rfl, rfl⟩

/-- The second part of `new_pwm` closes its streams. -/
theorem closes_writeDefaults (chip : ℤ) (env : NewEnv) : Closes (writeDefaults chip env) := by
  refine (closes_modifyVars _).bind fun _ => Closes.getMem.bind fun mem => ?_
  refine (Closes.writeChecked _ _ _).bind fun _ => .ite (.pure _) ?_
  refine (closes_modifyVars _).bind fun _ => Closes.getMem.bind fun mem' => ?_
  refine (Closes.writeChecked _ _ _).bind fun _ => .ite (.pure _) ?_
  exact (closes_modifyVars _).bind fun _ => .pure _

/-- The first part of `new_pwm` keeps a handle where `unexport` does not open, and where the
channel has a directory. -/
theorem exportChannel_handles (chip : ℤ) (env : NewEnv) (s : Proc Mem) :
    ∃ b s', (exportChannel chip env).run s = .ok (b, s') ∧
      (SameHandles s.mem s'.mem ↔
        (env.exportFile.opens → env.unexportFile.opens ∧ ¬env.exported)) := by
  by_cases hexports : env.Exports
  · refine ⟨_, _, run_exportChannel hexports chip s, ?_⟩
    cases hdir : env.exported with
    | true =>
      have hlost := s.mem.dirs.live_alloc_ne (chipPath chip "pwm0")
      exact iff_of_false (fun h => hlost h.dirs) fun h => (h hexports.exportOpens).2 rfl
    | false => exact iff_of_true ⟨rfl, rfl⟩ fun _ => ⟨hexports.unexportOpens, by simp⟩
  · obtain ⟨e, files, hrun, _, hfiles⟩ := run_exportChannel_of_fails hexports chip s
    refine ⟨_, _, hrun, ?_⟩
    constructor
    · intro h hopen
      have hopen' := hfiles.mp h.files hopen
      exact ⟨hopen', fun hdir => hexports ⟨hopen, hopen', .inl hdir⟩⟩
    · intro h
      exact ⟨hfiles.mpr fun hopen => (h hopen).1, rfl⟩

/-- `new_pwm` returns with the handles open that were open before, unless its first part keeps
one. -/
theorem newPwm_handles (args : List PyObject) (env : NewEnv) (s : Proc Mem) :
    ∃ r s', (newPwm args env).run s = .ok (r, s') ∧
      (SameHandles s.mem s'.mem ↔ ∀ chip, channel args = some chip → env.exportFile.opens →
        env.unexportFile.opens ∧ ¬env.exported) := by
  rcases hchannel : channel args with _ | chip
  · obtain ⟨e, hrun, _⟩ := run_newPwm_of_no_channel hchannel env s
    exact ⟨_, _, hrun, iff_of_true (SameHandles.refl _) (by simp)⟩
  · obtain ⟨b, s1, hexport, hsame⟩ := exportChannel_handles chip env s
    have hrest : Closes (if !b then (return NULL : CM Mem PyRef) else writeDefaults chip env) :=
      .ite (.pure _) (closes_writeDefaults chip env)
    obtain ⟨r, s', hrun, hkept⟩ := hrest s1
    refine ⟨r, s', ?_, ?_⟩
    · rw [newPwm_of_channel hchannel, StateT.run_bind, hexport, ok_bind]
      exact hrun
    · rw [hkept.iff_of_right, hsame]
      simp

end Pwm

/-! ## Runs -/

/-- The memories of the two modules. -/
structure Modules where
  pwm : Pwm.Mem
  led : IxoraLed.Mem

/-- Calls of `new_pwm`, `ioctl`, and `clear`, with the answers they get. -/
inductive HandleCall
  | newPwm (args : List PyObject) (env : Pwm.NewEnv)
  | ioctl (args : List PyObject) (leddev : FileOutcome)
  | clear (leddev : ℤ × String → FileOutcome)

/-- One call, which Python makes with the error indicator clear. -/
def handleStep (m : Modules) : HandleCall → Except Fault Modules
  | .newPwm args env =>
    ((Pwm.newPwm args env).run ⟨none, m.pwm⟩).map fun r => { m with pwm := r.2.mem }
  | .ioctl args leddev =>
    ((IxoraLed.ioctl args leddev).run ⟨none, m.led⟩).map fun r => { m with led := r.2.mem }
  | .clear leddev =>
    ((IxoraLed.clear leddev).run ⟨none, m.led⟩).map fun r => { m with led := r.2.mem }

/-- The same handles are open in both modules. -/
def Modules.SameHandles (m m' : Modules) : Prop :=
  PyModules.SameHandles m.pwm m'.pwm ∧ PyModules.SameHandles m.led m'.led

theorem Modules.SameHandles.refl (m : Modules) : m.SameHandles m := ⟨.refl _, .refl _⟩

theorem Modules.SameHandles.trans {m m' m'' : Modules} (h : m.SameHandles m')
    (h' : m'.SameHandles m'') : m.SameHandles m'' := ⟨h.1.trans h'.1, h.2.trans h'.2⟩

/-- The call returns, and every handle it opened was closed once. -/
def Balanced (m : Modules) (c : HandleCall) : Prop :=
  ∃ m', handleStep m c = .ok m' ∧ m.SameHandles m'

/-- The call is no `new_pwm` that can open `export`, and then cannot open `unexport` or finds
the directory of the channel. -/
def HandleCall.Releases : HandleCall → Prop
  | .newPwm args env => ∀ chip, Pwm.channel args = some chip → env.exportFile.opens →
      env.unexportFile.opens ∧ ¬env.exported
  | _ => True

/-- No handle is lost by any call of a run, or by the run. -/
structure NoneLost (m : Modules) (calls : List HandleCall) : Prop where
  each : Runs.Always handleStep Balanced m calls
  whole : ∃ m', Runs.after handleStep m calls = .ok m' ∧ m.SameHandles m'

/-- A call of a program that closes its handles is balanced. -/
theorem balanced_of_closes {m : Modules} {c : HandleCall} {x : CM IxoraLed.Mem PyRef}
    (hx : Closes x) (hstep : handleStep m c =
      (x.run ⟨none, m.led⟩).map fun r => { m with led := r.2.mem }) : Balanced m c := by
  obtain ⟨r, s', hrun, hsame⟩ := hx ⟨none, m.led⟩
  refine ⟨{ m with led := s'.mem }, ?_, .refl _, hsame⟩
  rw [hstep, hrun]
  rfl

/-- What a call must meet to be balanced. -/
theorem balanced_iff_releases (m : Modules) (c : HandleCall) : Balanced m c ↔ c.Releases := by
  cases c with
  | newPwm args env =>
    obtain ⟨r, s', hrun, hsame⟩ := Pwm.newPwm_handles args env ⟨none, m.pwm⟩
    have hstep : handleStep m (.newPwm args env) = .ok { m with pwm := s'.mem } := by
      rw [handleStep, hrun]
      rfl
    constructor
    · rintro ⟨m', hstep', hpwm, _⟩
      obtain rfl := Except.ok.inj (hstep.symm.trans hstep')
      exact hsame.mp hpwm
    · intro h
      exact ⟨_, hstep, hsame.mpr h, .refl _⟩
  | ioctl args leddev =>
    exact iff_of_true (balanced_of_closes (IxoraLed.closes_ioctl args leddev) rfl) trivial
  | clear leddev =>
    exact iff_of_true (balanced_of_closes (IxoraLed.closes_clear leddev) rfl) trivial

/-- From any state of the modules, no handle is lost along a run precisely when none of its
calls is a `new_pwm` that can open `export`, and then cannot open `unexport` or finds the
directory of the channel. -/
theorem noneLost_iff_releases (m : Modules) (calls : List HandleCall) :
    NoneLost m calls ↔ ∀ c ∈ calls, c.Releases := by
  have hruns : ∀ m c, HandleCall.Releases c → ∃ m', handleStep m c = .ok m' := by
    intro m c hc
    obtain ⟨m', hstep, _⟩ := (balanced_iff_releases m c).mpr hc
    exact ⟨m', hstep⟩
  have heach := Runs.always_iff_forall balanced_iff_releases hruns m calls
  constructor
  · intro h
    exact heach.mp h.each
  · intro h
    exact ⟨heach.mpr h, (heach.mpr h).whole Modules.SameHandles.refl fun _ _ _ => .trans⟩

/-- Both modules at import. -/
def Modules.initial : Modules := ⟨Pwm.Mem.initial, IxoraLed.Mem.initial⟩

/-- `new_pwm(1)` for an exported channel whose files all work. -/
def reopenFirst : HandleCall :=
  .newPwm [.atom (.int 1)] ⟨.works, .works, true, .works, .works⟩

/-- A successful `new_pwm(1)` loses the directory of the channel. -/
theorem reopenFirst_loses_directory : ¬NoneLost Modules.initial [reopenFirst] := by
  intro h
  have hreleases := (balanced_iff_releases _ _).mp h.each.1
  exact (hreleases 0 rfl rfl).2 rfl

end PyModules
