import PyModules.Lte.Calls
import PyModules.Lte.Script
import PyModules.Library.Slot

/-!
# The life of the LTE context

The static `ctx` is the module's only handle on the `module_t` it allocated and on
the serial descriptor inside. Every call acts on it as one event of the pointer
machine, so the sequences of calls free of leaks and of uses after free are those
that keep to the phase protocol: one successful `new_lte`, then commands, then one
release, and nothing but another `new_lte` after a release or a failed connection.
-/

namespace PyModules.Lte

variable {π : Type}

/-- `new_lte` gets to `popen`, and `popen` fails. -/
def NoStream (a : SerialArgs) (env : NewLteEnv) : Prop :=
  (a.device ≠ [] ∧ a.baud ≠ 0) ∧ env.lsusb = none

instance (a : SerialArgs) (env : NewLteEnv) : Decidable (NoStream a env) :=
  inferInstanceAs (Decidable ((a.device ≠ [] ∧ a.baud ≠ 0) ∧ env.lsusb = none))

/-- How `new_lte` leaves the context, by its arguments and the machine's answers. -/
def creation (a : SerialArgs) (env : NewLteEnv) : Slot.Creation :=
  if a.device = [] ∨ a.baud = 0 then .null
  else if env.lsusb ≠ some marks then .leaked
  else if ¬(a.parity = 78 ∨ a.parity = 69 ∨ a.parity = 79) then .undone
  else if env.connect.opens && env.connect.setsSpeed && env.connect.setsAttr then .held
  else .dead

/-- The event of the pointer machine that a call is. Without a stream to read the USB
listing from, `new_lte` ends before it looks at the pointer. -/
def Call.event : Call → Slot.Event
  | .newLte args env => match parseNewLte args with
    | some a => if NoStream a env then .idle else .create (creation a env)
    | none => .idle
  | .delLte => .release
  | .freeLte => .release
  | .command c => if c.Reaches then .use else .idle

/-- The context as a pointer machine. -/
def owner (mem : Mem π) : Slot.State := ⟨mem.ctx, mem.modules.next, mem.modules.live⟩

/-- The pointer machine's faults are uses of a stale context. -/
theorem owner_faults_iff {mem : Mem π} {e : Slot.Event} :
    (owner mem).Faults e ↔ (e = .use ∨ e = .release) ∧ Stale mem := by
  simp [Slot.State.Faults, owner, Stale, Heap.live]

/-! ## Construction -/

/-- `new_lte` when `module_new` returns NULL: the context is NULL from then on. -/
theorem newLte_of_null {args : List PyObject} {a : SerialArgs}
    (hargs : parseNewLte args = some a) {env : NewLteEnv} {s s1 : Proc (Mem π)}
    (hnew : (moduleNew a.device a.baud a.parity a.dataBit a.stopBit env.lsusb).run s =
      .ok (none, s1)) :
    (newLte args env).run s = .ok (NULL,
      ⟨some ⟨.module, "Illegal function [module_new]"⟩, s1.mem.withCtx none⟩) := by
  simp [newLte, hargs, hnew]

/-- `new_lte` when the new module connects. -/
theorem newLte_of_connected {args : List PyObject} {a : SerialArgs}
    (hargs : parseNewLte args = some a) {env : NewLteEnv} {s s1 s2 : Proc (Mem π)} {p : ℕ}
    (hnew : (moduleNew a.device a.baud a.parity a.dataBit a.stopBit env.lsusb).run s =
      .ok (some p, s1))
    (hconnect : (uartsConnect p env.connect).run ⟨s1.err, s1.mem.withCtx (some p)⟩ =
      .ok (0, s2)) :
    (newLte args env).run s = .ok (pyTrue, s2) := by
  simp [newLte, hargs, hnew, moduleConnect, hconnect]

/-- `new_lte` when the new module does not connect: it is freed, and its address
stays in the context. -/
theorem newLte_of_unconnected {args : List PyObject} {a : SerialArgs}
    (hargs : parseNewLte args = some a) {env : NewLteEnv} {s s1 s2 : Proc (Mem π)} {p : ℕ}
    {m : Module}
    (hnew : (moduleNew a.device a.baud a.parity a.dataBit a.stopBit env.lsusb).run s =
      .ok (some p, s1))
    (hconnect : (uartsConnect p env.connect).run ⟨s1.err, s1.mem.withCtx (some p)⟩ =
      .ok (-1, s2))
    (hcell : s2.mem.modules.cell p = some m) :
    (newLte args env).run s = .ok (NULL,
      ⟨some ⟨.module, "Illegal function [module_connect]"⟩,
        s2.mem.withHeaps (s2.mem.modules.free p) s2.mem.fds⟩) := by
  simp [newLte, hargs, hnew, moduleConnect, hconnect, moduleFree, uartsFree, hcell,
    Mem.withHeaps]

/-- `new_lte` where `popen` fails. -/
theorem newLte_noStream {args : List PyObject} {a : SerialArgs} (hargs : parseNewLte args = some a)
    {env : NewLteEnv} (h : NoStream a env) (s : Proc (Mem π)) :
    (newLte args env).run s = .error .nullPointer := by
  obtain ⟨⟨hd, hb⟩, hnone⟩ := h
  have hnew := moduleNew_noStream hd hb a.parity a.dataBit a.stopBit s
  simp [newLte, hargs, hnone, hnew]

/-- What a `new_lte` that ends in the way `k` has done to the process, and returned. -/
structure Constructed (mem : Mem π) (k : Slot.Creation) (r : PyRef) (s' : Proc (Mem π)) :
    Prop where
  /-- The context is where the pointer machine has it. -/
  owner : owner s'.mem = (owner mem).after (.create k)
  /-- The open descriptors stay those that modules hold. -/
  fds : FdsHeld mem.modules mem.fds → FdsHeld s'.mem.modules s'.mem.fds
  /-- A module that is held is connected. -/
  connected : k = .held → Connected s'.mem
  /-- The result is `True` then. -/
  returns : k = .held → r = pyTrue
  /-- Otherwise an exception is raised. -/
  raises : k ≠ .held → r = NULL ∧ s'.err ≠ none

/-- Without a module that is held, an exception is raised. -/
theorem Constructed.of_failed {mem : Mem π} {k : Slot.Creation} {s' : Proc (Mem π)}
    (hk : k ≠ .held) (howner : Lte.owner s'.mem = (Lte.owner mem).after (.create k))
    (hfds : FdsHeld mem.modules mem.fds → FdsHeld s'.mem.modules s'.mem.fds)
    (herr : s'.err ≠ none) : Constructed mem k NULL s' where
  owner := howner
  fds := hfds
  connected h := absurd h hk
  returns h := absurd h hk
  raises _ := ⟨rfl, herr⟩

/-- The context is NULL or freed then. -/
theorem Constructed.closed {mem : Mem π} {k : Slot.Creation} {r : PyRef} {s' : Proc (Mem π)}
    (h : Constructed mem k r s') (hk : k ≠ .held) : s'.mem.ctx = none ∨ Stale s'.mem := by
  have hptr : s'.mem.ctx = ((Lte.owner mem).after (.create k)).ptr :=
    congrArg Slot.State.ptr h.owner
  have hlive : s'.mem.modules.live = ((Lte.owner mem).after (.create k)).live :=
    congrArg Slot.State.live h.owner
  cases k with
  | null => exact .inl hptr
  | undone => exact .inl hptr
  | leaked => exact .inl hptr
  | held => exact absurd rfl hk
  | dead =>
    refine .inr ⟨mem.modules.next, hptr, ?_⟩
    by_contra hcell
    obtain ⟨m, hm⟩ := Option.ne_none_iff_exists'.mp hcell
    have hmem : mem.modules.next ∈ s'.mem.modules.live := Heap.mem_live.mpr ⟨m, hm⟩
    rw [hlive] at hmem
    exact absurd (Heap.lt_next_of_mem_live hmem) (Nat.lt_irrefl _)

/-- What `new_lte` does with arguments that parse, unless `popen` fails. -/
theorem newLte_created {args : List PyObject} {a : SerialArgs} (hargs : parseNewLte args = some a)
    {env : NewLteEnv} (hstream : ¬NoStream a env) (s : Proc (Mem π)) :
    ∃ r s', (newLte args env).run s = .ok (r, s') ∧
      Constructed s.mem (creation a env) r s' := by
  by_cases hnull : a.device = [] ∨ a.baud = 0
  · have hnew := moduleNew_refused hnull a.parity a.dataBit a.stopBit env.lsusb s
    have hk : creation a env = .null := by simp [creation, hnull]
    rw [hk]
    refine ⟨_, _, newLte_of_null hargs hnew,
      Constructed.of_failed (by decide) ?_ (fun h => h) (by simp)⟩
    simp [owner, Slot.State.after, Mem.withCtx]
  obtain ⟨hd, hb⟩ := not_or.mp hnull
  by_cases hmarks : env.lsusb ≠ some marks
  · obtain ⟨number, hnumber⟩ := Option.ne_none_iff_exists'.mp
      fun hnone => hstream ⟨⟨hd, hb⟩, hnone⟩
    have hother : number ≠ marks := fun h => hmarks (h ▸ hnumber)
    have hnew := moduleNew_absent hd hb a.parity a.dataBit a.stopBit hother s
    have hk : creation a env = .leaked := by simp [creation, hnull, hmarks]
    rw [← hnumber] at hnew
    rw [hk]
    refine ⟨_, _, newLte_of_null hargs hnew,
      Constructed.of_failed (by decide) ?_ (fun h => h.congr (holds_alloc rfl) rfl) (by simp)⟩
    simp [owner, Slot.State.after, Mem.withHeaps, Mem.withCtx]
  have hmarks' : env.lsusb = some marks := not_not.mp hmarks
  by_cases hp : a.parity = 78 ∨ a.parity = 69 ∨ a.parity = 79
  · obtain ⟨modules, m, hnew, hnext, hlive, hcell, hs, hholds⟩ :=
      moduleNew_created hd hb hp a.dataBit a.stopBit s
    rw [← hmarks'] at hnew
    let s1 : Proc (Mem π) :=
      ⟨s.err, (s.mem.withHeaps modules s.mem.fds).withCtx (some s.mem.modules.next)⟩
    cases hconn : env.connect.opens && env.connect.setsSpeed && env.connect.setsAttr with
    | true =>
      have hconnect := uartsConnect_connected (s := s1) hconn hcell
      have hk : creation a env = .held := by simp [creation, hnull, hmarks', hp, hconn]
      have hcell' : s1.mem.modules.cell s.mem.modules.next = some m := hcell
      rw [hk]
      refine ⟨_, _, newLte_of_connected hargs hnew hconnect, ?_, fun h => ?_, fun _ => ?_,
        fun _ => rfl, fun h => absurd rfl h⟩
      · simp [owner, Slot.State.after, s1, Mem.withHeaps, Mem.withCtx, hnext, hlive]
      · exact (h.congr hholds rfl).opened hcell hs rfl
      · refine ⟨s.mem.modules.next, { m with s := some s.mem.fds.next }, _, rfl, ?_, rfl⟩
        simp [Mem.withHeaps, hcell']
        rfl
    | false =>
      obtain ⟨modules', fds', m', hconnect, hnext', hlive', hfds', hcell', hs', hholds'⟩ :=
        uartsConnect_failed (s := s1) hconn hcell hs
      have hfresh : s.mem.modules.next ∉ s.mem.modules.live := fun h =>
        absurd (Heap.lt_next_of_mem_live h) (Nat.lt_irrefl _)
      have hk : creation a env = .dead := by simp [creation, hnull, hmarks', hp, hconn]
      rw [hk]
      refine ⟨_, _, newLte_of_unconnected hargs hnew hconnect hcell',
        Constructed.of_failed (by decide) ?_ (fun h => ?_) (by simp)⟩
      · simp [owner, Slot.State.after, s1, Mem.withHeaps, Mem.withCtx, hnext', hlive', hnext,
          hlive, hfresh]
      · exact ((h.congr hholds rfl).congr hholds' hfds').congr (holds_free hcell' hs') rfl
  · obtain ⟨modules, hnew, hnext, hlive, hholds⟩ :=
      moduleNew_undone hd hb hp a.dataBit a.stopBit s
    have hk : creation a env = .undone := by simp [creation, hnull, hmarks', hp]
    rw [← hmarks'] at hnew
    rw [hk]
    refine ⟨_, _, newLte_of_null hargs hnew,
      Constructed.of_failed (by decide) ?_ (fun h => h.congr hholds rfl) (by simp)⟩
    simp [owner, Slot.State.after, Mem.withHeaps, Mem.withCtx, hnext, hlive]

/-- Arguments that do not parse leave the memory alone. -/
theorem newLte_unparsed {args : List PyObject} (hargs : parseNewLte args = none)
    (env : NewLteEnv) (s : Proc (Mem π)) :
    (newLte args env).run s =
      .ok (NULL, { s with err := some ⟨.module, "Invalid input parameter."⟩ }) := by
  simp [newLte, hargs]

/-! ## Release -/

/-- Releasing a context that is not stale frees its module and closes its descriptor. -/
theorem freeLte_released {s : Proc (Mem π)} (hfresh : ¬Stale s.mem) :
    ∃ s', (freeLte : CM (Mem π) Unit).run s = .ok ((), s') ∧
      owner s'.mem = (owner s.mem).after .release ∧
      (FdsHeld s.mem.modules s.mem.fds → FdsHeld s'.mem.modules s'.mem.fds) := by
  cases hp : s.mem.ctx with
  | none =>
    refine ⟨s, by simp [freeLte, hp, moduleClose, moduleFree], ?_, fun h => h⟩
    simp [owner, Slot.State.after, hp]
  | some p =>
    cases hcell : s.mem.modules.cell p with
    | none => exact absurd ⟨p, hp, hcell⟩ hfresh
    | some m =>
      obtain ⟨modules, fds, hrun, hnext, hlive, hheld⟩ := close_free_live hcell
      refine ⟨⟨s.err, s.mem.withHeaps modules fds⟩, ?_, ?_, hheld⟩
      · simpa only [freeLte, StateT.run_bind, run_getMem, ok_bind, hp] using hrun
      · simp [owner, Slot.State.after, Mem.withHeaps, hp, hnext, hlive]

/-- A released context is NULL or freed. -/
theorem closed_of_released {mem mem' : Mem π} (h : owner mem' = (owner mem).after .release) :
    mem'.ctx = none ∨ Stale mem' := by
  have hctx : mem'.ctx = mem.ctx := congrArg Slot.State.ptr h
  have hlive : mem'.modules.live = mem.modules.live \ {p | mem.ctx = some p} :=
    congrArg Slot.State.live h
  cases hp : mem.ctx with
  | none => exact .inl (hctx.trans hp)
  | some p =>
    refine .inr ⟨p, hctx.trans hp, ?_⟩
    by_contra hcell
    obtain ⟨m, hm⟩ := Option.ne_none_iff_exists'.mp hcell
    have hmem : p ∈ mem'.modules.live := Heap.mem_live.mpr ⟨m, hm⟩
    rw [hlive] at hmem
    exact hmem.2 hp

/-- Releasing a stale context touches the freed module. -/
theorem freeLte_stale {s : Proc (Mem π)} (h : Stale s.mem) :
    (freeLte : CM (Mem π) Unit).run s = .error .useAfterFree := by
  obtain ⟨p, hp, hcell⟩ := h
  simp [freeLte, hp, moduleClose, uartsClose, hcell]

/-! ## Whole runs -/

variable [Tty π]

/-- The calls that release the context. -/
theorem step_release {c : Call} (hc : c.event = .release) (mem : Mem π) :
    (Stale mem → step mem c = .error .useAfterFree) ∧
      (¬Stale mem → ∃ mem', step mem c = .ok mem' ∧ owner mem' = (owner mem).after .release ∧
        (FdsHeld mem.modules mem.fds → FdsHeld mem'.modules mem'.fds)) := by
  have hcases : c = .delLte ∨ c = .freeLte := by
    cases c with
    | newLte args env =>
      simp only [Call.event] at hc
      split at hc
      · split at hc <;> cases hc
      · cases hc
    | delLte => exact Or.inl rfl
    | freeLte => exact Or.inr rfl
    | command c => cases hr : c.Reaches <;> simp [Call.event, hr] at hc
  constructor
  · intro h
    have hrun := freeLte_stale (s := ⟨none, mem⟩) h
    apply map_eq_error.mpr
    rcases hcases with rfl | rfl <;> simp [exec, Call.body, delLte, hrun]
  · intro h
    obtain ⟨s', hrun, howner, hheld⟩ := freeLte_released (s := ⟨none, mem⟩) h
    refine ⟨s'.mem, map_eq_ok.mpr ?_, howner, hheld⟩
    rcases hcases with rfl | rfl
    · exact ⟨(pyNone, s'), by simp [exec, Call.body, delLte, hrun], rfl⟩
    · exact ⟨(NULL, s'), by simp [exec, Call.body, hrun], rfl⟩

/-- The calls that construct a context. -/
theorem step_create {c : Call} {k : Slot.Creation} (hc : c.event = .create k) (mem : Mem π) :
    ∃ mem', step mem c = .ok mem' ∧ owner mem' = (owner mem).after (.create k) ∧
      (FdsHeld mem.modules mem.fds → FdsHeld mem'.modules mem'.fds) := by
  cases c with
  | newLte args env =>
    cases hargs : parseNewLte args with
    | none => simp [Call.event, hargs] at hc
    | some a =>
      have hstream : ¬NoStream a env := by
        intro hno
        simp [Call.event, hargs, hno] at hc
      have hk : creation a env = k := by simpa [Call.event, hargs, hstream] using hc
      obtain ⟨r, s', hrun, hdone⟩ := newLte_created hargs hstream ⟨none, mem⟩
      exact ⟨s'.mem, map_eq_ok.mpr ⟨(r, s'), hrun, rfl⟩, hk ▸ hdone.owner, hdone.fds⟩
  | delLte => cases hc
  | freeLte => cases hc
  | command c => cases hr : c.Reaches <;> simp [Call.event, hr] at hc

/-- The calls that neither construct nor release a context leave it alone. -/
theorem lineOnly_body {c : Call} (hc : c.event = .use ∨ c.event = .idle) :
    LineOnly (c.body : CM (Mem π) PyRef) := by
  cases c with
  | newLte args env =>
    cases hargs : parseNewLte args with
    | none => simpa [Call.body, newLte, hargs] using Frames.raise _
    | some a =>
      by_cases hno : NoStream a env
      · have hrun := newLte_noStream (π := π) hargs hno
        constructor
        · intro s r s' h
          rw [Call.body, hrun] at h
          cases h
        · intro s h
          rw [Call.body, hrun] at h
          cases h
      · simp [Call.event, hargs, hno] at hc
  | delLte => simp [Call.event] at hc
  | freeLte => simp [Call.event] at hc
  | command c => exact LineOnly.command c

/-- So do their steps. -/
theorem step_other {c : Call} (hc : c.event = .use ∨ c.event = .idle) {mem mem' : Mem π}
    (h : step mem c = .ok mem') : SameContext mem mem' := by
  obtain ⟨r, hrun, rfl⟩ := map_eq_ok.mp h
  exact (lineOnly_body hc).keeps _ _ _ hrun

/-- The call touches a freed module. A `call` whose number runs over its buffer is judged by
what it goes on to send. -/
def Call.TouchesFreed (mem : Mem π) (c : Call) : Prop :=
  step mem c = .error .useAfterFree ∨
    ∃ args num, c = .command (.call args) ∧ parseOne convertStr args = some num ∧
      (sendOnly (callText num)).run ⟨none, mem⟩ = .error .useAfterFree

/-- A command that goes on to the line touches freed memory when the context is stale, however
long its text. -/
theorem touches_of_stale {c : Command} (hc : c.Reaches = true) {mem : Mem π} (h : Stale mem) :
    (Call.command c).TouchesFreed mem := by
  cases c with
  | call args =>
    obtain ⟨num, hnum⟩ := Option.isSome_iff_exists.mp hc
    exact .inr ⟨args, num, rfl, hnum, sendOnly_stale h _⟩
  | _ => exact .inl (map_eq_error.mpr (command_stale hc trivial h))

/-- A call stopped by its own checks touches no freed memory. -/
theorem idle_unfreed {c : Call} (hc : c.event = .idle) (s : Proc (Mem π)) :
    c.body.run s ≠ .error .useAfterFree := by
  cases c with
  | newLte args env =>
    cases hargs : parseNewLte args with
    | none => simp [Call.body, newLte_unparsed hargs]
    | some a =>
      by_cases hno : NoStream a env
      · simp [Call.body, newLte_noStream hargs hno]
      · simp [Call.event, hargs, hno] at hc
  | delLte => cases hc
  | freeLte => cases hc
  | command c =>
    have hr : c.Reaches = false := by
      by_contra hr
      simp [Call.event, hr] at hc
    exact command_unreached hr s

/-- A step ends at a freed module only where the pointer machine does. -/
theorem faults_of_step {mem : Mem π} {c : Call} (h : step mem c = .error .useAfterFree) :
    (owner mem).Faults c.event := by
  rw [owner_faults_iff]
  have hrun := map_eq_error.mp h
  cases hc : c.event with
  | idle => exact absurd hrun (idle_unfreed hc _)
  | use => exact ⟨.inl rfl, (lineOnly_body (.inl hc)).freed _ hrun⟩
  | create k =>
    obtain ⟨mem', hok, _⟩ := step_create hc mem
    rw [h] at hok
    cases hok
  | release =>
    refine ⟨.inr rfl, ?_⟩
    by_contra hst
    obtain ⟨mem', hok, _⟩ := (step_release hc mem).2 hst
    rw [h] at hok
    cases hok

/-- A call touches a freed module precisely where the pointer machine does. -/
theorem touches_iff_faults {mem : Mem π} {c : Call} :
    c.TouchesFreed mem ↔ (owner mem).Faults c.event := by
  constructor
  · rintro (hstep | ⟨args, num, rfl, hnum, hsend⟩)
    · exact faults_of_step hstep
    · have hreaches : (Command.call args).Reaches = true := by simp [Command.Reaches, hnum]
      rw [owner_faults_iff]
      exact ⟨.inl (by simp [Call.event, hreaches]), (LineOnly.sendOnly _).freed _ hsend⟩
  · intro hfault
    obtain ⟨hc | hc, hst⟩ := owner_faults_iff.mp hfault
    · cases c with
      | newLte args env =>
        simp only [Call.event] at hc
        split at hc
        · split at hc <;> cases hc
        · cases hc
      | delLte => cases hc
      | freeLte => cases hc
      | command c =>
        refine touches_of_stale ?_ hst
        by_contra hr
        simp [Call.event, hr] at hc
    · exact .inl ((step_release hc mem).1 hst)

/-- The LTE machine refines the pointer machine. -/
theorem step_refines :
    Slot.Refines (step (π := π)) (fun mem c => c.TouchesFreed mem) owner Call.event := by
  refine Slot.Refines.of_steps (fun mem c => touches_iff_faults) ?_ ?_ ?_
  · intro mem c k hc
    obtain ⟨mem', hok, howner, _⟩ := step_create hc mem
    exact ⟨mem', hok, howner⟩
  · intro mem c mem' hc hstep
    by_cases hst : Stale mem
    · rw [(step_release hc mem).1 hst] at hstep
      cases hstep
    · obtain ⟨mem1, hok, howner, _⟩ := (step_release hc mem).2 hst
      rw [hok] at hstep
      cases hstep
      exact howner
  · intro mem c mem' hc hstep
    have hsame := step_other hc hstep
    simp [owner, hsame.ctx, hsame.modules]

/-- Descriptors stay exactly those held by live modules, whatever is called. -/
theorem step_fdsHeld {mem mem' : Mem π} {c : Call} (hfds : FdsHeld mem.modules mem.fds)
    (h : step mem c = .ok mem') : FdsHeld mem'.modules mem'.fds := by
  have hsame : SameContext mem mem' → FdsHeld mem'.modules mem'.fds := fun hsame => by
    rw [hsame.modules, hsame.fds]
    exact hfds
  cases hc : c.event with
  | idle => exact hsame (step_other (.inr hc) h)
  | use => exact hsame (step_other (.inl hc) h)
  | create k =>
    obtain ⟨mem1, hok, _, hheld⟩ := step_create hc mem
    rw [hok] at h
    cases h
    exact hheld hfds
  | release =>
    by_cases hst : Stale mem
    · rw [(step_release hc mem).1 hst] at h
      cases h
    · obtain ⟨mem1, hok, _, hheld⟩ := (step_release hc mem).2 hst
      rw [hok] at h
      cases h
      exact hheld hfds

/-- Between calls there is no module and no descriptor but the ones of the context. -/
structure OneContext (mem : Mem π) : Prop where
  /-- The modules allocated and not freed are none, or the one `ctx` points to. -/
  modules : mem.modules.live = ∅ ∨ ∃ p, mem.ctx = some p ∧ mem.modules.live = {p}
  /-- The open descriptors are none, or the one that module holds. -/
  fds : mem.fds.live = ∅ ∨ ∃ p m fd, mem.ctx = some p ∧ mem.modules.cell p = some m ∧
    m.s = some fd ∧ mem.fds.live = {fd}

/-- The call touches no freed module, and leaves one context or none behind. -/
def CallSafe (mem : Mem π) (c : Call) : Prop :=
  ¬c.TouchesFreed mem ∧ ∀ mem', step mem c = .ok mem' → OneContext mem'

omit [Tty π] in
/-- With descriptors held by modules, one context is a tidy pointer. -/
theorem oneContext_iff_tidy {mem : Mem π} (hfds : FdsHeld mem.modules mem.fds) :
    OneContext mem ↔ (owner mem).Tidy := by
  constructor
  · rintro ⟨hmod, _⟩ a ha
    rcases hmod with hempty | ⟨p, hp, hlive⟩
    · exact absurd ha (by simp [owner, hempty])
    · have hap : a = p := by simpa [owner, hlive] using ha
      exact hap ▸ hp
  · intro htidy
    rcases Set.eq_empty_or_nonempty mem.modules.live with hempty | ⟨p, hp⟩
    · refine ⟨Or.inl hempty, Or.inl ?_⟩
      rw [Set.eq_empty_iff_forall_notMem]
      intro fd hfd
      obtain ⟨a, m, hm, _⟩ := (hfds.open_iff fd).mp hfd
      exact absurd (Heap.mem_live.mpr ⟨m, hm⟩) (by simp [hempty])
    · have hctx : mem.ctx = some p := htidy p hp
      have honly : ∀ a ∈ mem.modules.live, a = p := fun a ha =>
        Option.some.inj ((htidy a ha).symm.trans hctx)
      obtain ⟨m, hm⟩ := Heap.mem_live.mp hp
      refine ⟨Or.inr ⟨p, hctx, Set.eq_singleton_iff_unique_mem.mpr ⟨hp, honly⟩⟩, ?_⟩
      have hheld : ∀ fd, fd ∈ mem.fds.live → m.s = some fd := by
        intro fd hfd
        obtain ⟨a, m', hm', hs'⟩ := (hfds.open_iff fd).mp hfd
        have hap := honly a (Heap.mem_live.mpr ⟨m', hm'⟩)
        subst hap
        rw [hm] at hm'
        cases hm'
        exact hs'
      cases hs : m.s with
      | none =>
        left
        rw [Set.eq_empty_iff_forall_notMem]
        intro fd hfd
        rw [hheld fd hfd] at hs
        cases hs
      | some fd =>
        right
        refine ⟨p, m, fd, hctx, hm, hs, Set.eq_singleton_iff_unique_mem.mpr ⟨?_, ?_⟩⟩
        · exact (hfds.open_iff fd).mpr ⟨p, m, hm, hs⟩
        · intro fd' hfd'
          exact Option.some.inj ((hheld fd' hfd').symm.trans hs)

omit [Tty π] in
/-- At import no descriptor is open. -/
theorem initial_fdsHeld (tty : π) :
    FdsHeld (Mem.initial tty).modules (Mem.initial tty).fds where
  open_iff fd := by simp [Mem.initial, Holds]
  unique a b fd h := by simp [Mem.initial, Holds] at h

/-- Any run from import touches no freed module and keeps at most the one module and
descriptor of `ctx`, precisely when it keeps to the phase protocol: `new_lte` only
while no context is held, never failing on the USB check, and after a release or
a failed connection nothing that reads `ctx` before the next `new_lte`, be it a
`call` whose number runs over its buffer. -/
theorem lte_safe_iff_protocol (tty : π) (calls : List Call) :
    Runs.Always step CallSafe (Mem.initial tty) calls ↔
      Runs.Follows step (fun ph c => Slot.Phase.next ph c.event)
        (fun ph c => Slot.Phase.legal ph c.event) .null (Mem.initial tty) calls := by
  have hphase : Slot.InPhase (owner (Mem.initial tty)) .null := ⟨rfl, Heap.live_empty⟩
  rw [← step_refines.safe_iff_follows hphase calls]
  refine Runs.always_iff_always (I := fun mem => FdsHeld mem.modules mem.fds) ?_ ?_
    (initial_fdsHeld tty) calls
  · intro mem c hfds
    refine and_congr_right fun _ => forall_congr' fun mem' => forall_congr' fun h => ?_
    exact oneContext_iff_tidy (step_fdsHeld hfds h)
  · exact fun mem c mem' hfds _ h => step_fdsHeld hfds h

/-- Arguments and answers of a `new_lte` that succeeds. -/
def plugged : Call :=
  .newLte [.atom (.str (some (lit "/dev/ttyUSB2")))] ⟨some marks, true, true, true⟩

/-- Open, delete, and unload: the teardown frees the module a second time. -/
theorem new_del_teardown_frees_twice :
    ¬Runs.Always step CallSafe (Mem.initial (⟨[]⟩ : Script)) [plugged, .delLte, .freeLte] := by
  intro h
  have hdel := h.2 _ rfl
  have hfree := hdel.2 _ rfl
  exact hfree.1.1 (.inl rfl)

end PyModules.Lte
