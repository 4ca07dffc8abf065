import PyModules.Library.Overlay
import PyModules.Lte.Descriptors
import PyModules.Lte.Calls
import PyModules.Lte.Termios

/-!
# The module with the settings of the lines

`_uarts_connect` reads the settings of the line, keeps them in the module, and puts its own in
their place; `_uarts_close` puts the old ones back. The model of the module gets the settings
of all lines here, and projects to the one without.
-/

namespace PyModules.Lte

/-- The memory of the module, the settings kept in each `module_t`, and those of each line. -/
structure Setup (π : Type) where
  mem : Mem π
  oldTios : ℕ → Termios
  tios : List UInt8 → Termios

/-- The line parameters behind `ctx->backend_data`; `module_new` returns no context without. -/
def Module.uart (m : Module) : CoraSerial := m.backendData.getD ⟨[], 0, 0, 0, 0⟩

namespace Setup

variable {π α : Type}

/-- The process that the model without settings sees. -/
def view (s : Proc (Setup π)) : Proc (Mem π) := ⟨s.err, s.mem.mem⟩

/-- The process after one without settings. -/
def put (s : Proc (Mem π)) (t : Proc (Setup π)) : Proc (Setup π) :=
  ⟨s.err, { t.mem with mem := s.mem }⟩

/-- A part of the code that does not touch the settings. -/
def plain (x : CM (Mem π) α) : CM (Setup π) α := Projects.inside view put x

/-- `tcgetattr(ctx->s, &uart->old_tios);` -/
def save (ctx : ℕ) (device : List UInt8) : CM (Setup π) Unit :=
  modifyMem fun w => { w with oldTios := Function.update w.oldTios ctx (w.tios device) }

/-- `tcsetattr(ctx->s, TCSANOW, tios)` when it succeeds. -/
def setAttr (device : List UInt8) (tios : Termios) : CM (Setup π) Unit :=
  modifyMem fun w => { w with tios := Function.update w.tios device tios }

/-- `tcsetattr(ctx->s, TCSANOW, &ctx_serial->old_tios);`, which may fail; nobody asks. -/
def restore (ctx : ℕ) (device : List UInt8) (restores : Bool) : CM (Setup π) Unit :=
  modifyMem fun w =>
    if restores then { w with tios := Function.update w.tios device (w.oldTios ctx) } else w

/-- `_uarts_connect` -/
def uartsConnect (ctx : ℕ) (env : ConnectEnv) : CM (Setup π) ℤ := do
  let uart := (← plain (deref ctx)).uart
  if !env.opens then
    plain (assign ctx fun m => { m with s := none })
    return -1
  let fd ← plain openFd
  plain (assign ctx fun m => { m with s := some fd })
  save ctx uart.device
  let tios := configure uart
  if !env.setsSpeed then
    plain (closeFd fd)
    plain (assign ctx fun m => { m with s := none })
    return -1
  if !env.setsAttr then
    plain (closeFd fd)
    plain (assign ctx fun m => { m with s := none })
    return -1
  setAttr uart.device tios
  return 0

/-- `_uarts_close` -/
def uartsClose (ctx : ℕ) (restores : Bool) : CM (Setup π) Unit := do
  let m ← plain (deref ctx)
  match m.s with
  | some fd =>
    restore ctx m.uart.device restores
    plain (closeFd fd)
    plain (assign ctx fun m => { m with s := none })
  | none => return ()

/-- `module_connect` -/
def moduleConnect (ctx : Option ℕ) (env : ConnectEnv) : CM (Setup π) ℤ :=
  match ctx with
  | none => return -1
  | some ctx => uartsConnect ctx env

/-- `module_close` -/
def moduleClose (ctx : Option ℕ) (restores : Bool) : CM (Setup π) Unit :=
  match ctx with
  | none => return ()
  | some ctx => uartsClose ctx restores

/-- `new_lte` -/
def newLte (args : List PyObject) (env : NewLteEnv) : CM (Setup π) PyRef := do
  match parseNewLte args with
  | none => raise "Invalid input parameter."
  | some a =>
    let ctx ← plain (moduleNew a.device a.baud a.parity a.dataBit a.stopBit env.lsusb)
    plain (modifyMem fun mem => mem.withCtx ctx)
    if ctx.isNone then raise "Illegal function [module_new]"
    else
      let rc ← moduleConnect ctx env.connect
      if rc = -1 then
        plain (moduleFree ctx)
        raise "Illegal function [module_connect]"
      else return pyTrue

/-- `free_lte` -/
def freeLte (restores : Bool) : CM (Setup π) Unit := do
  let ctx := (← plain getMem).ctx
  moduleClose ctx restores
  plain (moduleFree ctx)

/-- `del_lte` -/
def delLte (restores : Bool) : CM (Setup π) PyRef := do
  freeLte restores
  return pyNone

variable [Tty π]

/-- The function a call runs, with the answer to the `tcsetattr` of a release. -/
def body : Call × Bool → CM (Setup π) PyRef
  | (.newLte args env, _) => newLte args env
  | (.delLte, restores) => delLte restores
  | (.freeLte, restores) => do
    freeLte restores
    return NULL
  | (.command c, _) => plain c.body

/-- The setup after a call. -/
def step (w : Setup π) (c : Call × Bool) : Except Fault (Setup π) :=
  ((body c).run ⟨none, w⟩).map fun r => r.2.mem

/-! ## The module without the settings -/

omit [Tty π]

@[simp] theorem view_err (s : Proc (Setup π)) : (view s).err = s.err := rfl

@[simp] theorem view_mem (s : Proc (Setup π)) : (view s).mem = s.mem.mem := rfl

@[simp] theorem view_mk (err : Option PyErr) (w : Setup π) : view ⟨err, w⟩ = ⟨err, w.mem⟩ := rfl

@[simp] theorem view_put (s : Proc (Mem π)) (t : Proc (Setup π)) : view (put s t) = s := rfl

@[simp] theorem put_err (s : Proc (Mem π)) (t : Proc (Setup π)) : (put s t).err = s.err := rfl

@[simp] theorem put_mem (s : Proc (Mem π)) (t : Proc (Setup π)) :
    (put s t).mem = { t.mem with mem := s.mem } := rfl

/-- What a part of the code that does not touch the settings does. -/
@[simp] theorem run_plain (x : CM (Mem π) α) (s : Proc (Setup π)) :
    (plain x).run s = (x.run (view s)).map fun r => (r.1, put r.2 s) := rfl

@[simp] theorem run_save (ctx : ℕ) (device : List UInt8) (s : Proc (Setup π)) :
    (save ctx device).run s = .ok ((), ⟨s.err, { s.mem with
      oldTios := Function.update s.mem.oldTios ctx (s.mem.tios device) }⟩) := rfl

@[simp] theorem run_setAttr (device : List UInt8) (tios : Termios) (s : Proc (Setup π)) :
    (setAttr device tios).run s = .ok ((), ⟨s.err, { s.mem with
      tios := Function.update s.mem.tios device tios }⟩) := rfl

@[simp] theorem run_restore (ctx : ℕ) (device : List UInt8) (restores : Bool)
    (s : Proc (Setup π)) :
    (restore ctx device restores).run s = .ok ((), ⟨s.err,
      if restores then
        { s.mem with tios := Function.update s.mem.tios device (s.mem.oldTios ctx) }
      else s.mem⟩) := rfl

theorem projects_plain (x : CM (Mem π) α) : Projects view (plain x) x :=
  Projects.of_inside (fun _ _ => rfl) x

theorem projects_raise (msg : String) : Projects (view (π := π)) (raise msg) (raise msg) :=
  fun _ => rfl

/-- Connecting does to the module what it does without the settings. -/
theorem projects_uartsConnect (ctx : ℕ) (env : ConnectEnv) :
    Projects view (uartsConnect ctx env : CM (Setup π) ℤ) (Lte.uartsConnect ctx env) := by
  intro s
  cases hcell : s.mem.mem.modules.cell ctx with
  | none =>
    cases hopens : env.opens <;> simp [uartsConnect, Lte.uartsConnect, Except.map, hcell, hopens]
  | some m =>
    cases hopens : env.opens
    · simp [uartsConnect, Lte.uartsConnect, Except.map, hcell, hopens]
    · cases hspeed : env.setsSpeed
      · simp [uartsConnect, Lte.uartsConnect, Except.map, hcell, hopens, hspeed]
      · cases hattr : env.setsAttr <;>
          simp [uartsConnect, Lte.uartsConnect, Except.map, hcell, hopens, hspeed, hattr]

/-- So does closing. -/
theorem projects_uartsClose (ctx : ℕ) (restores : Bool) :
    Projects view (uartsClose ctx restores : CM (Setup π) Unit) (Lte.uartsClose ctx) := by
  refine (projects_plain _).bind fun m => ?_
  cases hs : m.s with
  | none => exact Projects.pure ()
  | some fd =>
    refine Projects.bind_hidden (Projects.hidden (run_restore ctx m.uart.device restores) ?_) ?_
    · intro s
      cases restores <;> rfl
    · exact (projects_plain _).bind fun _ => projects_plain _

theorem projects_moduleConnect (ctx : Option ℕ) (env : ConnectEnv) :
    Projects view (moduleConnect ctx env : CM (Setup π) ℤ) (Lte.moduleConnect ctx env) := by
  cases ctx with
  | none => exact Projects.pure (-1)
  | some ctx => exact projects_uartsConnect ctx env

theorem projects_newLte (args : List PyObject) (env : NewLteEnv) :
    Projects view (newLte args env : CM (Setup π) PyRef) (Lte.newLte args env) := by
  unfold newLte Lte.newLte
  cases parseNewLte args with
  | none => exact projects_raise _
  | some a =>
    refine (projects_plain _).bind fun ctx => (projects_plain _).bind fun _ => ?_
    refine Projects.ite (projects_raise _) ?_
    refine (projects_moduleConnect ctx env.connect).bind fun rc => Projects.ite ?_ ?_
    · exact (projects_plain _).bind fun _ => projects_raise _
    · exact Projects.pure pyTrue

theorem projects_freeLte (restores : Bool) :
    Projects view (freeLte restores : CM (Setup π) Unit) Lte.freeLte := by
  refine (projects_plain _).bind fun mem => ?_
  refine Projects.bind ?_ fun _ => projects_plain _
  cases mem.ctx with
  | none => exact Projects.pure ()
  | some ctx => exact projects_uartsClose ctx restores

/-- Every call does to the module what it does without the settings. -/
theorem projects_body [Tty π] (c : Call × Bool) :
    Projects view (body c : CM (Setup π) PyRef) c.1.body := by
  obtain ⟨c, restores⟩ := c
  cases c with
  | newLte args env => exact projects_newLte args env
  | delLte => exact (projects_freeLte restores).bind fun _ => Projects.pure pyNone
  | freeLte => exact (projects_freeLte restores).bind fun _ => Projects.pure NULL
  | command c => exact projects_plain _

/-- A step with settings is a step without. -/
theorem step_projects [Tty π] {w w' : Setup π} {c : Call × Bool} (h : step w c = .ok w') :
    Lte.step w.mem c.1 = .ok w'.mem := by
  obtain ⟨r, hrun, rfl⟩ := map_eq_ok.mp h
  exact map_eq_ok.mpr ⟨_, (projects_body c).run_ok hrun, rfl⟩

/-! ## Opening and releasing a module -/

/-- A context that `module_new` returns has the line parameters of its arguments. -/
theorem cell_of_moduleNew {a : SerialArgs} {lsusb : Option ℕ} {s s' : Proc (Mem π)} {p : ℕ}
    (h : (moduleNew a.device a.baud a.parity a.dataBit a.stopBit lsusb).run s = .ok (some p, s')) :
    s'.mem.modules.cell p = some ⟨none, some (uartOf a)⟩ ∧ s'.err = s.err := by
  by_cases hnull : a.device = [] ∨ a.baud = 0
  · cases (moduleNew_refused hnull _ _ _ _ _).symm.trans h
  obtain ⟨hd, hb⟩ := not_or.mp hnull
  cases lsusb with
  | none => cases (moduleNew_noStream hd hb _ _ _ _).symm.trans h
  | some number =>
    by_cases hmarks : number = marks
    · subst hmarks
      by_cases hp : a.parity = 78 ∨ a.parity = 69 ∨ a.parity = 79
      · simp [moduleNew, hd, hb, hp] at h
        obtain ⟨rfl, rfl⟩ := h
        simp [uartOf]
      · obtain ⟨modules, hrun, _⟩ := moduleNew_undone hd hb hp a.dataBit a.stopBit s
        cases hrun.symm.trans h
    · cases (moduleNew_absent hd hb _ _ _ hmarks _).symm.trans h

/-- Connecting a module whose system calls all succeed keeps the settings of the line and puts
those of the module in their place. -/
theorem run_uartsConnect_connected {env : ConnectEnv}
    (h : (env.opens && env.setsSpeed && env.setsAttr) = true) {ctx : ℕ} {s : Proc (Setup π)}
    {m : Module} (hcell : s.mem.mem.modules.cell ctx = some m) :
    ∃ mem, (uartsConnect ctx env).run s = .ok (0, ⟨s.err, mem,
        Function.update s.mem.oldTios ctx (s.mem.tios m.uart.device),
        Function.update s.mem.tios m.uart.device (configure m.uart)⟩) ∧
      mem.ctx = s.mem.mem.ctx ∧
      mem.modules.cell ctx = some { m with s := some s.mem.mem.fds.next } := by
  simp only [Bool.and_eq_true] at h
  obtain ⟨⟨hopens, hspeed⟩, hattr⟩ := h
  refine ⟨s.mem.mem.withHeaps
    (s.mem.mem.modules.modify ctx fun m => { m with s := some s.mem.mem.fds.next })
    (s.mem.mem.fds.alloc ()), ?_, rfl, by simp [Mem.withHeaps, hcell]⟩
  simp [uartsConnect, Except.map, hcell, hopens, hspeed, hattr, Mem.withHeaps]

/-- Otherwise the lines keep their settings. -/
theorem run_uartsConnect_failed {env : ConnectEnv}
    (h : (env.opens && env.setsSpeed && env.setsAttr) = false) {ctx : ℕ} {s : Proc (Setup π)}
    {m : Module} (hcell : s.mem.mem.modules.cell ctx = some m) :
    ∃ s', (uartsConnect ctx env).run s = .ok (-1, s') ∧ s'.mem.tios = s.mem.tios ∧
      s'.mem.mem.ctx = s.mem.mem.ctx ∧ (s'.mem.mem.modules.cell ctx).isSome := by
  cases hopens : env.opens with
  | false =>
    refine ⟨_, by simp [uartsConnect, Except.map, hcell, hopens]; rfl, ?_, ?_, ?_⟩
    · rfl
    · rfl
    · simp [hcell]
  | true =>
    cases hspeed : env.setsSpeed with
    | false =>
      refine ⟨_, by simp [uartsConnect, Except.map, hcell, hopens, hspeed]; rfl, ?_, ?_, ?_⟩
      · rfl
      · rfl
      · simp [hcell]
    | true =>
      have hattr : env.setsAttr = false := by simpa [hopens, hspeed] using h
      refine ⟨_, by simp [uartsConnect, Except.map, hcell, hopens, hspeed, hattr]; rfl, ?_, ?_, ?_⟩
      · rfl
      · rfl
      · simp [hcell]

/-- A complete `new_lte` leaves no module behind and the lines as they were, or an open module
and its settings on the line. -/
theorem cases_of_newLte {args : List PyObject} {a : SerialArgs}
    (hargs : parseNewLte args = some a) {env : NewLteEnv} {s s' : Proc (Setup π)} {r : PyRef}
    (hrun : (newLte args env).run s = .ok (r, s')) :
    (s'.mem.tios = s.mem.tios ∧
        ∀ p, s'.mem.mem.ctx = some p → s'.mem.mem.modules.cell p = none) ∨
      ∃ p fd, s'.mem.mem.ctx = some p ∧
        s'.mem.mem.modules.cell p = some ⟨some fd, some (uartOf a)⟩ ∧
        s'.mem.tios = Function.update s.mem.tios a.device (configure (uartOf a)) ∧
        s'.mem.oldTios p = s.mem.tios a.device := by
  rw [newLte, hargs] at hrun
  simp only [StateT.run_bind, run_plain] at hrun
  cases hnew : (moduleNew a.device a.baud a.parity a.dataBit a.stopBit env.lsusb).run (view s) with
  | error e =>
    rw [hnew] at hrun
    cases hrun
  | ok r0 =>
    obtain ⟨ctx, s0⟩ := r0
    simp only [hnew, Except.map, ok_bind, run_modifyMem, view_put] at hrun
    cases ctx with
    | none =>
      simp only [Option.isNone_none, if_true, run_raise] at hrun
      cases hrun
      refine .inl ⟨rfl, fun p hp => ?_⟩
      cases hp
    | some p =>
      obtain ⟨hcell, _⟩ := cell_of_moduleNew hnew
      simp only [Option.isNone_some, Bool.false_eq_true, if_false, StateT.run_bind,
        moduleConnect] at hrun
      cases hconnects : env.connect.opens && env.connect.setsSpeed && env.connect.setsAttr with
      | true =>
        obtain ⟨mem, hconnect, hctx, hcell'⟩ := run_uartsConnect_connected
          (s := put ⟨s0.err, s0.mem.withCtx (some p)⟩ (put s0 s)) hconnects hcell
        rw [hconnect] at hrun
        cases hrun
        exact .inr ⟨p, _, hctx, hcell', rfl, by simp [Module.uart, uartOf]⟩
      | false =>
        obtain ⟨s1, hconnect, htios, hctx, hlive⟩ := run_uartsConnect_failed
          (s := put ⟨s0.err, s0.mem.withCtx (some p)⟩ (put s0 s)) hconnects hcell
        obtain ⟨m, hm⟩ := Option.isSome_iff_exists.mp hlive
        rw [hconnect] at hrun
        simp [moduleFree, uartsFree, Except.map, hm] at hrun
        obtain ⟨_, rfl⟩ := hrun
        refine .inl ⟨htios, fun q hq => ?_⟩
        obtain rfl : p = q := Option.some.inj (hctx.symm.trans hq)
        simp

/-- Releasing a context puts back the settings that its module has kept. -/
theorem run_freeLte_held {s : Proc (Setup π)} {p fd : ℕ} {m : Module}
    (hctx : s.mem.mem.ctx = some p) (hcell : s.mem.mem.modules.cell p = some m)
    (hs : m.s = some fd) :
    ∃ s', (freeLte true).run s = .ok ((), s') ∧
      s'.mem.tios = Function.update s.mem.tios m.uart.device (s.mem.oldTios p) := by
  refine ⟨_, by simp [freeLte, moduleClose, uartsClose, moduleFree, uartsFree, Except.map, hctx,
    hcell, hs]; rfl, ?_⟩
  rfl

end Setup

end PyModules.Lte
