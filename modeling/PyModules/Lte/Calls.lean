import PyModules.Frames
import PyModules.Lte.Me909s
import PyModules.Lte.Descriptors

/-!
# Calls into the LTE module

One Python call is one input of the LTE machine. Commands only talk to the line:
they leave the context, its modules, and the descriptors as they are, and they
touch freed memory exactly when the context names a freed module.
-/

namespace PyModules.Lte

variable {π : Type}

/-- The commands, each with the arguments Python passes. -/
inductive Command
  | init
  | cmdLte (args : List PyObject)
  | led (args : List PyObject)
  | status
  | online
  | offline
  | restart
  | call (args : List PyObject)
  | hangup
  deriving DecidableEq, Repr

/-- The calls: construction, deletion, module teardown, and commands. -/
inductive Call
  | newLte (args : List PyObject) (env : NewLteEnv)
  | delLte
  | freeLte
  | command (c : Command)
  deriving DecidableEq, Repr

section Bodies

variable [Tty π]

/-- The function a command runs. -/
def Command.body : Command → CM (Mem π) PyRef
  | .init => Lte.init
  | .cmdLte args => Lte.cmdLte args
  | .led args => Lte.led args
  | .status => Lte.status
  | .online => Lte.online
  | .offline => Lte.offline
  | .restart => Lte.restart
  | .call args => Lte.call args
  | .hangup => Lte.hangup

/-- The function a call runs; `free_lte` returns nothing. -/
def Call.body : Call → CM (Mem π) PyRef
  | .newLte args env => Lte.newLte args env
  | .delLte => Lte.delLte
  | .freeLte => do
    Lte.freeLte
    return NULL
  | .command c => c.body

/-- Python calls a function with the error indicator clear. -/
def exec (mem : Mem π) (c : Call) : Except Fault (PyRef × Proc (Mem π)) :=
  c.body.run ⟨none, mem⟩

/-- The memory after a call. -/
def step (mem : Mem π) (c : Call) : Except Fault (Mem π) :=
  (exec mem c).map fun r => r.2.mem

end Bodies

/-! ## Commands leave the context alone -/

/-- Context, modules, and descriptors are the same. -/
structure SameContext (mem mem' : Mem π) : Prop where
  ctx : mem'.ctx = mem.ctx
  modules : mem'.modules = mem.modules
  fds : mem'.fds = mem.fds

/-- The context names a module that was freed. -/
def Stale (mem : Mem π) : Prop := ∃ p, mem.ctx = some p ∧ mem.modules.cell p = none

/-- The context names a live module with an open descriptor. -/
def Connected (mem : Mem π) : Prop :=
  ∃ p m fd, mem.ctx = some p ∧ mem.modules.cell p = some m ∧ m.s = some fd

/-- A context that is NULL or was freed is not connected. -/
theorem not_connected {mem : Mem π} (h : mem.ctx = none ∨ Stale mem) : ¬Connected mem := by
  rintro ⟨p, m, fd, hp, hm, _⟩
  rcases h with hnull | ⟨q, hq, hcell⟩
  · rw [hnull] at hp
    cases hp
  · rw [hp] at hq
    cases hq
    rw [hm] at hcell
    cases hcell

/-- Connection is a matter of the context. -/
theorem SameContext.connected_iff {mem mem' : Mem π} (h : SameContext mem mem') :
    Connected mem' ↔ Connected mem := by
  simp only [Connected, h.ctx, h.modules]

instance : IsFrame (SameContext (π := π)) Stale where
  refl _ := ⟨rfl, rfl, rfl⟩
  trans _ _ _ h h' := ⟨h'.ctx.trans h.ctx, h'.modules.trans h.modules, h'.fds.trans h.fds⟩
  back _ _ h := by
    rintro ⟨p, hp, hcell⟩
    exact ⟨p, h.ctx ▸ hp, h.modules ▸ hcell⟩

instance (ctx : Option ℕ) :
    IsFrame (SameContext (π := π)) (fun mem => mem.ctx = ctx → Stale mem) where
  refl := IsFrame.refl Stale
  trans := IsFrame.trans Stale
  back m m' h hm' hm := IsFrame.back m m' h (hm' (h.ctx.trans hm))

/-- A program leaves the context alone, and touches freed memory only through a
stale context. -/
abbrev LineOnly {α : Type} (x : CM (Mem π) α) : Prop := Frames SameContext Stale x

namespace LineOnly

variable {α β : Type}

theorem system (command : String) : LineOnly (Lte.system command : CM (Mem π) Unit) where
  keeps s a s' h := by
    cases h
    exact ⟨rfl, rfl, rfl⟩
  freed s h := by cases h

theorem search (src des : List UInt8) (len : ℤ) :
    LineOnly (Lte.search src des len : CM (Mem π) ℤ) := by
  unfold Lte.search
  split
  · exact Frames.pure _
  · exact Frames.fault (by decide)

theorem lacksOk (buffer : List UInt8) (len : ℤ) :
    LineOnly (Lte.lacksOk buffer len : CM (Mem π) Bool) :=
  Frames.ite (Frames.pure _) ((search _ _ _).bind fun _ => Frames.pure _)

theorem sprintf32 (text : List UInt8) :
    LineOnly (Lte.sprintf32 text : CM (Mem π) (List UInt8)) :=
  Frames.ite (Frames.pure _) (Frames.fault (by decide))

theorem buildStr (bytes : List UInt8) : LineOnly (Lte.buildStr bytes : CM (Mem π) PyRef) :=
  Frames.ite (Frames.pure _) ((Frames.pyErrSet _ _).bind fun _ => Frames.pure _)

theorem buildValueS (buffer : List UInt8) :
    LineOnly (Lte.buildValueS buffer : CM (Mem π) PyRef) := by
  unfold Lte.buildValueS
  split
  · exact buildStr _
  · exact Frames.fault (by decide)

theorem ttyCall {bad : Mem π → Prop} (f : π → α × π) :
    Frames SameContext bad (Lte.ttyCall f : CM (Mem π) α) where
  keeps s a s' h := by
    cases h
    exact ⟨rfl, rfl, rfl⟩
  freed s h := by cases h

/-- Reading a freed module is reading through a stale context. -/
theorem deref (p : ℕ) :
    Frames SameContext (fun mem => mem.ctx = some p → Stale mem)
      (Lte.deref p : CM (Mem π) Module) where
  keeps s a s' h := by
    rw [run_deref] at h
    split at h
    · cases h
      exact ⟨rfl, rfl, rfl⟩
    · cases h
  freed s h hp := by
    rw [run_deref] at h
    split at h
    · cases h
    · exact ⟨p, hp, ‹_›⟩

theorem descriptor (p : ℕ) :
    Frames SameContext (fun mem => mem.ctx = some p → Stale mem)
      (Lte.descriptor p : CM (Mem π) ℕ) := by
  refine (deref p).bind fun m => ?_
  cases m.s with
  | none => exact Frames.fault (by decide)
  | some fd => exact Frames.pure fd

variable [Tty π]

theorem ctxSend (req : List UInt8) : LineOnly (Lte.ctxSend req : CM (Mem π) ℤ) := by
  refine Frames.onPointer (x := fun ctx => moduleSend ctx req) fun ctx => ?_
  cases ctx with
  | none => exact Frames.pure _
  | some p =>
    refine (deref p).bind fun m => ?_
    cases m.s with
    | none => exact Frames.pure _
    | some fd => exact ttyCall _

theorem ctxRecv : LineOnly (Lte.ctxRecv : CM (Mem π) (ℤ × List UInt8)) := by
  refine Frames.onPointer (x := fun ctx => moduleRecv ctx zeroBuffer) fun ctx => ?_
  cases ctx with
  | none => exact Frames.pure _
  | some p =>
    refine (descriptor p).bind fun _ => ((ttyCall _).bind fun _ => Frames.pure _).bind fun rc => ?_
    refine Frames.ite (Frames.pure _) ((ttyCall _).bind fun b => ?_)
    cases b with
    | none => exact Frames.pure _
    | some b => exact Frames.pure _

/-- The reply of a command read and searched for `OK`. -/
theorem okReply {x y : List UInt8 → CM (Mem π) PyRef} (hx : ∀ b, LineOnly (x b))
    (hy : ∀ b, LineOnly (y b)) :
    LineOnly (do
      let (len, buffer) ← Lte.ctxRecv
      if ← Lte.lacksOk buffer len then x buffer else y buffer) :=
  ctxRecv.bind fun r => (lacksOk r.2 r.1).bind fun _ => Frames.ite (hx r.2) (hy r.2)

theorem initFrom (cmds : List (List UInt8)) :
    LineOnly (Lte.initFrom cmds : CM (Mem π) PyRef) := by
  induction cmds with
  | nil => exact Frames.pure _
  | cons cmd cmds ih =>
    exact (ctxSend cmd).bind fun ret =>
      Frames.ite (Frames.raise _) (okReply (fun _ => Frames.pure _) (fun _ => ih))

theorem statusFrom (todo : ℕ) : LineOnly (Lte.statusFrom todo : CM (Mem π) PyRef) := by
  induction todo with
  | zero => exact buildStr _
  | succ todo ih =>
    refine ctxRecv.bind fun r => (search _ _ _).bind fun pos => Frames.ite ?_ ih
    split
    · exact Frames.fault (by decide)
    · exact Frames.ite (buildStr _) (Frames.ite (buildStr _) ih)

theorem pollFrom (token : List UInt8) {found : CM (Mem π) PyRef} (hfound : LineOnly found)
    (todo : ℕ) : LineOnly (Lte.pollFrom token found todo) := by
  induction todo with
  | zero => exact Frames.pure _
  | succ todo ih =>
    exact ctxRecv.bind fun r =>
      Frames.ite ((search _ _ _).bind fun pos => Frames.ite hfound ih) ih

theorem sendOnly (cmd : List UInt8) : LineOnly (Lte.sendOnly cmd : CM (Mem π) PyRef) :=
  (ctxSend cmd).bind fun _ => Frames.ite (Frames.pure _) (Frames.pure _)

/-- Every command leaves the context alone. -/
theorem command (c : Command) : LineOnly (c.body : CM (Mem π) PyRef) := by
  cases c with
  | init => exact initFrom _
  | cmdLte args =>
    simp only [Command.body, Lte.cmdLte]
    split
    · exact Frames.raise _
    · exact (ctxSend _).bind fun ret =>
        Frames.ite (Frames.raise _) (okReply (fun _ => buildStr _) (fun b => buildValueS b))
  | led args =>
    simp only [Command.body, Lte.led]
    split
    · exact Frames.raise _
    · refine Frames.ite (Frames.raise _) ((sprintf32 _).bind fun cmd => ?_)
      exact (ctxSend cmd).bind fun ret =>
        Frames.ite (Frames.pure _) (okReply (fun _ => Frames.pure _) (fun _ => Frames.pure _))
  | status => exact (ctxSend _).bind fun ret => Frames.ite (Frames.pure _) (statusFrom 3)
  | online =>
    exact (ctxSend _).bind fun ret =>
      Frames.ite (Frames.pure _) (pollFrom _ ((system _).bind fun _ => Frames.pure _) 3)
  | offline =>
    exact (ctxSend _).bind fun ret =>
      Frames.ite (Frames.pure _) (pollFrom _ (Frames.pure _) 3)
  | restart => exact sendOnly _
  | call args =>
    simp only [Command.body, Lte.call]
    split
    · exact Frames.raise _
    · exact (sprintf32 _).bind fun cmd => sendOnly cmd
  | hangup => exact sendOnly _

end LineOnly

/-! ## Commands that reach the line -/

/-- The command gets past the checks of its arguments, and goes on to `module_send`. -/
def Command.Reaches : Command → Bool
  | .cmdLte args => (parseOne convertStr args).isSome
  | .led args => match parseOne convertInt args with
    | some st => decide (-1 < st ∧ st < 2)
    | none => false
  | .call args => (parseOne convertStr args).isSome
  | _ => true

/-- The text that a command formats fits its buffer; `call` does not check that it does. -/
def Command.TextFits : Command → Prop
  | .call args => ∀ num, parseOne convertStr args = some num → num.length ≤ 25
  | _ => True

/-- The command for a number is six bytes longer than the number. -/
theorem callText_length (num : List UInt8) : (callText num).length = num.length + 6 := by
  have hfront : (lit "ATD").length = 3 := by decide
  have hback : (lit ";\r\n").length = 3 := by decide
  simp only [callText, List.length_append, hfront, hback]
  omega

variable [Tty π]

/-- With a number that fits, `call` sends one line. -/
theorem call_eq {args : List PyObject} {num : List UInt8}
    (hnum : parseOne convertStr args = some num) (hfit : num.length ≤ 25) :
    (call args : CM (Mem π) PyRef) = sendOnly (callText num) := by
  have hroom : (callText num).length + 1 ≤ 32 := by
    rw [callText_length]
    omega
  simp [call, hnum, sprintf32, hroom]

/-- A longer number runs over the buffer. -/
theorem run_call_long {args : List PyObject} {num : List UInt8}
    (hnum : parseOne convertStr args = some num) (hlong : ¬num.length ≤ 25)
    (s : Proc (Mem π)) : (call args).run s = .error .outOfBounds := by
  have hroom : ¬(callText num).length + 1 ≤ 32 := by
    rw [callText_length]
    omega
  simp [call, hnum, sprintf32, hroom]

/-- Sending through a stale context touches the freed module. -/
theorem ctxSend_stale {s : Proc (Mem π)} (h : Stale s.mem) (req : List UInt8) :
    (ctxSend req).run s = .error .useAfterFree := by
  obtain ⟨p, hp, hcell⟩ := h
  simp [ctxSend, moduleSend, hp, hcell]

/-- A status `led` accepts has one digit, so its command always fits. -/
theorem led_fits {status : ℤ} (h : -1 < status ∧ status < 2) :
    (ledText status).length = 14 := by
  have hcases : status = 0 ∨ status = 1 := by omega
  rcases hcases with rfl | rfl <;> decide

/-- So does sending a command and reading no reply. -/
theorem sendOnly_stale {s : Proc (Mem π)} (h : Stale s.mem) (cmd : List UInt8) :
    (sendOnly cmd).run s = .error .useAfterFree := by
  simp [sendOnly, ctxSend_stale h]

/-- A command that reaches the line through a stale context faults on freed memory, unless
its text ran over the buffer before. -/
theorem command_stale {c : Command} (hc : c.Reaches = true) (hfits : c.TextFits)
    {s : Proc (Mem π)} (h : Stale s.mem) : c.body.run s = .error .useAfterFree := by
  have hsend : ∀ req, (ctxSend req).run s = .error .useAfterFree := ctxSend_stale h
  cases c with
  | cmdLte args =>
    obtain ⟨cmd, hcmd⟩ := Option.isSome_iff_exists.mp hc
    simp [Command.body, cmdLte, hcmd, hsend]
  | led args =>
    simp only [Command.Reaches] at hc
    split at hc
    · rename_i st hparse
      have hst := of_decide_eq_true hc
      have hno : ¬(st ≤ -1 ∨ st ≥ 2) := by omega
      have hfit := led_fits hst
      simp only [Command.body, led, hparse, if_neg hno, sprintf32, hfit]
      simp [hsend]
    · cases hc
  | call args =>
    obtain ⟨num, hnum⟩ := Option.isSome_iff_exists.mp hc
    rw [Command.body, call_eq hnum (hfits num hnum)]
    exact sendOnly_stale h _
  | init => simp [Command.body, Lte.init, initFrom, initCmds, hsend]
  | status => simp [Command.body, Lte.status, hsend]
  | online => simp [Command.body, Lte.online, hsend]
  | offline => simp [Command.body, Lte.offline, hsend]
  | restart => exact sendOnly_stale h _
  | hangup => exact sendOnly_stale h _

/-- A command stopped by its own argument checks does not touch freed memory. -/
theorem command_unreached {c : Command} (hc : c.Reaches = false) (s : Proc (Mem π)) :
    c.body.run s ≠ .error .useAfterFree := by
  cases c with
  | cmdLte args =>
    have hcmd : parseOne convertStr args = none :=
      Option.isNone_iff_eq_none.mp (Option.isSome_eq_false_iff.mp hc)
    simp [Command.body, cmdLte, hcmd]
  | led args =>
    simp only [Command.Reaches] at hc
    split at hc
    · rename_i st hparse
      have hst := of_decide_eq_false hc
      have hbad : st ≤ -1 ∨ st ≥ 2 := by omega
      simp only [Command.body, led, hparse, if_pos hbad]
      simp
    · rename_i hparse
      simp [Command.body, led, hparse]
  | call args =>
    have hnum : parseOne convertStr args = none :=
      Option.isNone_iff_eq_none.mp (Option.isSome_eq_false_iff.mp hc)
    simp [Command.body, call, hnum]
  | init => cases hc
  | status => cases hc
  | online => cases hc
  | offline => cases hc
  | restart => cases hc
  | hangup => cases hc

end PyModules.Lte
