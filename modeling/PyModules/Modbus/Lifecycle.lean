import PyModules.Library.Slot
import PyModules.Modbus.PyModbus

/-!
# The life of the Modbus context

The static `mb` is the module's only handle on a libmodbus context. Every call acts
on it as one event of the pointer machine, so the runs that never hand a freed
context to libmodbus and never lose one are those that keep to the phase protocol.
-/

namespace PyModules.Modbus

/-- The functions Python can call, with their arguments and the answers they get. -/
inductive Call
  | newRtu (args : List PyObject) (env : NewEnv)
  | newTcp (args : List PyObject) (env : NewEnv)
  | setSlave (args : List PyObject)
  | setTimeout (args : List PyObject)
  | readRegisters (args : List PyObject) (env : ReadEnv)
  | freeRtu
  | freeTcp
  deriving DecidableEq, Repr

/-- The function a call runs. -/
def Call.body (target : Platform) : Call → CM Mem PyRef
  | .newRtu args env => Modbus.newRtu args env
  | .newTcp args env => Modbus.newTcp args env
  | .setSlave args => Modbus.setSlave args
  | .setTimeout args => Modbus.setTimeout args
  | .readRegisters args env => Modbus.readRegisters target args env
  | .freeRtu => Modbus.freeRtu
  | .freeTcp => Modbus.freeTcp

/-- Python calls a function with the error indicator clear. -/
def exec (target : Platform) (mem : Mem) (c : Call) : Except Fault (PyRef × Proc Mem) :=
  (c.body target).run ⟨none, mem⟩

/-- The memory after a call. -/
def step (target : Platform) (mem : Mem) (c : Call) : Except Fault Mem :=
  (exec target mem c).map fun r => r.2.mem

/-- The static context as a pointer machine. -/
def owner (mem : Mem) : Slot.State := ⟨mem.mb, mem.contexts.next, mem.contexts.live⟩

/-- The static context was freed. -/
def Stale (mem : Mem) : Prop := ∃ p, mem.mb = some p ∧ mem.contexts.cell p = none

/-- The pointer machine's faults are uses of a stale context. -/
theorem owner_faults_iff {mem : Mem} {e : Slot.Event} :
    (owner mem).Faults e ↔ (e = .use ∨ e = .release) ∧ Stale mem := by
  simp [Slot.State.Faults, owner, Stale, Heap.live]

/-- The pointer and the live contexts are the same. -/
def SameOwner (mem mem' : Mem) : Prop := owner mem' = owner mem

/-- A stale context is a matter of the pointer and the live contexts. -/
theorem stale_iff {mem : Mem} : Stale mem ↔ (owner mem).Faults .use := by
  simp [owner_faults_iff]

instance : IsFrame SameOwner Stale where
  refl _ := rfl
  trans _ _ _ h h' := h'.trans h
  back _ _ h := by
    rw [stale_iff, stale_iff, h]
    exact id

/-- The static variables and the contexts are the same. -/
structure SameContexts (mem mem' : Mem) : Prop where
  mb : mem'.mb = mem.mb
  slaveAddr : mem'.slaveAddr = mem.slaveAddr
  contexts : mem'.contexts = mem.contexts

/-- The same contexts have the same owner. -/
theorem SameContexts.sameOwner {mem mem' : Mem} (h : SameContexts mem mem') :
    SameOwner mem mem' := by
  rw [SameOwner, owner, owner, h.mb, h.contexts]

instance : IsFrame SameContexts Stale where
  refl _ := ⟨rfl, rfl, rfl⟩
  trans _ _ _ h h' := ⟨h'.mb.trans h.mb, h'.slaveAddr.trans h.slaveAddr,
    h'.contexts.trans h.contexts⟩
  back _ _ h := IsFrame.back _ _ h.sameOwner

instance (mb : Option ℕ) : IsFrame SameOwner (fun mem => mem.mb = mb → Stale mem) where
  refl := IsFrame.refl Stale
  trans := IsFrame.trans Stale
  back m m' h hm' hm := IsFrame.back m m' h (hm' ((congrArg Slot.State.ptr h).trans hm))

instance (mb : Option ℕ) : IsFrame SameContexts (fun mem => mem.mb = mb → Stale mem) where
  refl := IsFrame.refl Stale
  trans := IsFrame.trans Stale
  back m m' h hm' hm := IsFrame.back m m' h (hm' (h.mb.trans hm))

/-- A program that uses the context, and may change what is stored in it. -/
abbrev UsesContext {α : Type} (x : CM Mem α) : Prop := Frames SameOwner Stale x

/-- A program that uses the context without changing it. -/
abbrev ReadsContext {α : Type} (x : CM Mem α) : Prop := Frames SameContexts Stale x

/-! ## Programs that use the context -/

/-- Reading a freed context is reading through a stale pointer. -/
theorem frames_deref {R : Mem → Mem → Prop} [IsFrame R Stale] (p : ℕ) :
    Frames R (fun mem => mem.mb = some p → Stale mem) (deref p) where
  keeps s a s' h := by
    rw [run_deref] at h
    split at h
    · cases h
      exact IsFrame.refl Stale _
    · cases h
  freed s h hp := by
    rw [run_deref] at h
    split at h
    · cases h
    · exact ⟨p, hp, ‹_›⟩

/-- Setting the slave address of the static context. -/
theorem usesContext_setSlave (args : List PyObject) : UsesContext (setSlave args) := by
  unfold setSlave
  split
  · exact Frames.raise _
  · refine Frames.bind (Frames.modify fun _ => rfl) fun _ => Frames.ite (Frames.raise _) ?_
    refine Frames.onPointer
      (x := fun ctx => modbusSetSlave ctx _ >>= fun _ => pure pyTrue) fun ctx => ?_
    cases ctx with
    | none => exact Frames.pure _
    | some p =>
      refine ((frames_deref p).bind fun c => ?_).bind fun _ => Frames.pure _
      refine Frames.ite (Frames.bind (Frames.modify fun mem => ?_) fun _ => Frames.pure _)
        (Frames.pure _)
      simp [SameOwner, owner, Mem.setSlave]

/-- Setting the timeout of the static context. -/
theorem readsContext_setTimeout (args : List PyObject) : ReadsContext (setTimeout args) := by
  unfold setTimeout
  split
  · exact Frames.raise _
  · refine Frames.onPointer
      (x := fun ctx => modbusSetResponseTimeout ctx _ _ >>= fun _ => pure pyTrue) fun ctx => ?_
    cases ctx with
    | none => exact Frames.pure _
    | some p => exact ((frames_deref p).bind fun c => Frames.pure _).bind fun _ => Frames.pure _

theorem readsContext_load {α : Type} (dest : List α) (k : ℕ) : ReadsContext (load dest k) := by
  unfold load
  split
  · exact Frames.pure _
  · exact Frames.fault (by decide)

theorem readsContext_accumulate (wrap : ℤ → ℤ) (u16 : List UInt16) (base todo j : ℕ) (ieee : ℤ) :
    ReadsContext (accumulate wrap u16 base todo j ieee) := by
  induction todo generalizing j ieee with
  | zero => exact Frames.pure _
  | succ todo ih => exact (readsContext_load _ _).bind fun word => ih _ _

theorem readsContext_element (type : PyDataType) (dest : Dest) (i : ℕ) :
    ReadsContext (element type dest i) := by
  cases type
  case u16 => exact (readsContext_load _ _).bind fun _ => Frames.pure _
  case s16 => exact (readsContext_load _ _).bind fun _ => Frames.pure _
  case b08 => exact (readsContext_load _ _).bind fun _ => Frames.pure _
  all_goals exact (readsContext_accumulate _ _ _ _ _ _).bind fun _ => Frames.pure _

theorem readsContext_setItems {element : ℕ → CM Mem PyAtom}
    (helement : ∀ i, ReadsContext (element i)) (todo i : ℕ) (pList : Option (List PyAtom)) :
    ReadsContext (setItems element todo i pList) := by
  induction todo generalizing i pList with
  | zero => exact Frames.pure _
  | succ todo ih =>
    refine (helement i).bind fun v => ?_
    cases pList with
    | none => exact Frames.fault (by decide)
    | some items => exact ih _ _

theorem readsContext_listNew (target : Platform) (n : ℤ) : ReadsContext (listNew target n) :=
  Frames.ite ((Frames.pyErrSet _ _).bind fun _ => Frames.pure _)
    (Frames.ite ((Frames.pyErrSet _ _).bind fun _ => Frames.pure _) (Frames.pure _))

theorem readsContext_asLong (target : Platform) (a : PyAtom) : ReadsContext (asLong target a) := by
  unfold asLong
  split
  · exact (Frames.pyErrSet _ _).bind fun _ => Frames.pure _
  · exact Frames.ite (Frames.pure _) ((Frames.pyErrSet _ _).bind fun _ => Frames.pure _)

theorem readsContext_asUTF8 (a : PyAtom) : ReadsContext (asUTF8 a) := by
  unfold asUTF8
  split
  · exact Frames.pure _
  · exact (Frames.pyErrSet _ _).bind fun _ => Frames.pure _
  · exact (Frames.pyErrSet _ _).bind fun _ => Frames.pure _

theorem frames_request {α : Type} (mb : Option ℕ) (function : ℕ) (limit addr nb : ℤ)
    (answer : Option (List α)) (dest : List α) :
    Frames SameContexts (fun mem => mem.mb = mb → Stale mem)
      (request mb function limit addr nb answer dest) := by
  cases mb with
  | none => exact Frames.pure _
  | some p =>
    refine (frames_deref p).bind fun c => Frames.ite (Frames.pure _) ?_
    refine (Frames.ite (Frames.pure _) (Frames.fault (by decide))).bind fun _ => ?_
    refine Frames.bind (Frames.modify fun _ => ⟨rfl, rfl, rfl⟩) fun _ => ?_
    split
    · exact Frames.pure _
    · exact Frames.ite (Frames.pure _) (Frames.fault (by decide))

/-- Dispatching a request through the static context. -/
theorem frames_dispatch (mb : Option ℕ) (code addr nb : ℤ) (env : ReadEnv) (dest : Dest) :
    Frames SameContexts (fun mem => mem.mb = mb → Stale mem)
      (dispatch mb code addr nb env dest) := by
  refine Frames.ite ?_ (Frames.ite ?_ (Frames.pure _))
  · refine ((frames_request _ _ _ _ _ _ _).bind fun r => ?_).bind fun _ => Frames.pure _
    split
    · exact Frames.pure _
    · exact Frames.pure _
  · refine ((frames_request _ _ _ _ _ _ _).bind fun r => ?_).bind fun _ => Frames.pure _
    split
    · exact Frames.pure _
    · exact Frames.pure _

/-- Reading and decoding a block. -/
theorem readsContext_readBlock (target : Platform) (code addr pynb : ℤ) (type : PyDataType)
    (env : ReadEnv) : ReadsContext (readBlock target code addr pynb type env) := by
  refine Frames.onPointer (x := fun mb => dispatch mb _ _ _ _ _ >>= _) fun mb => ?_
  refine (frames_dispatch mb _ _ _ _ _).bind fun answer => Frames.mono ?_ fun _ h _ => h
  split
  · exact Frames.raise _
  · refine Frames.ite (Frames.raise _) ((readsContext_listNew _ _).bind fun pList => ?_)
    exact (readsContext_setItems (readsContext_element _ _) _ _ _).bind fun _ => Frames.pure _

/-- Converting the arguments and reading. -/
theorem readsContext_readRegisters (target : Platform) (args : List PyObject) (env : ReadEnv) :
    ReadsContext (readRegisters target args env) := by
  unfold readRegisters
  split
  · exact Frames.raise _
  · refine (readsContext_asLong _ _).bind fun code => (readsContext_asLong _ _).bind fun addr => ?_
    refine (readsContext_asUTF8 _).bind fun typeName => ?_
    split
    · exact Frames.fault (by decide)
    · split
      · exact Frames.raise _
      · exact readsContext_readBlock _ _ _ _ _ _
  · exact Frames.raise _

/-! ## Events -/

/-- How a constructor leaves the static context. -/
def creation (env : NewEnv) : Slot.Creation :=
  if !env.creates then .null else if env.connects then .held else .dead

/-- The arguments of `read_registers` get as far as libmodbus. -/
def reachesRead (target : Platform) (args : List PyObject) : Bool :=
  match parseRead args with
  | some ([codeObj, _, .str (some typeName)], _) =>
    (findType typeName).isSome && decide (toInt32 (cLong target codeObj) ∈ [1, 2, 3, 4])
  | _ => false

/-- The arguments of `set_slave` get as far as libmodbus. -/
def reachesSetSlave (args : List PyObject) : Bool :=
  match parseOne convertInt args with
  | some slave => decide (0 ≤ slave ∧ slave ≤ 247)
  | none => false

/-- The event of the pointer machine that a call is. -/
def Call.event (target : Platform) : Call → Slot.Event
  | .newRtu args env => if (parseNewRtu args).isSome then .create (creation env) else .idle
  | .newTcp args env => if (parseNewTcp args).isSome then .create (creation env) else .idle
  | .setSlave args => if reachesSetSlave args then .use else .idle
  | .setTimeout args => if (parseTimeout args).isSome then .use else .idle
  | .readRegisters args _ => if reachesRead target args then .use else .idle
  | .freeRtu => .release
  | .freeTcp => .release

/-- A constructor acts on the pointer as its outcome says. -/
theorem construct_created (backend : Backend) (env : NewEnv) (s : Proc Mem) :
    ∃ r s', (construct backend env).run s = .ok (r, s') ∧
      owner s'.mem = (owner s.mem).after (.create (creation env)) := by
  cases hcreates : env.creates with
  | false =>
    refine ⟨_, _, run_construct_null backend hcreates s, ?_⟩
    simp [creation, hcreates, owner, Slot.State.after]
  | true =>
    cases hconnects : env.connects with
    | false =>
      refine ⟨_, _, run_construct_dead backend hcreates hconnects s, ?_⟩
      simp [creation, hcreates, hconnects, owner, Slot.State.after, Mem.created]
    | true =>
      refine ⟨_, _, run_construct_held backend hcreates hconnects s, ?_⟩
      simp only [creation, hcreates, hconnects, owner, Slot.State.after]
      split <;> simp [Mem.created, Mem.setSlave]

/-- Releasing a context that is not stale frees it. -/
theorem release_freed {s : Proc Mem} (h : ¬Stale s.mem) :
    ∃ contexts, release.run s = .ok (pyNone, ⟨s.err, { s.mem with contexts := contexts }⟩) ∧
      owner { s.mem with contexts := contexts } = (owner s.mem).after .release := by
  cases hp : s.mem.mb with
  | none =>
    have hrun : release.run s = .ok (pyNone, s) := by
      simp [release, hp, modbusClose, modbusFree]
    exact ⟨s.mem.contexts, hrun, by simp [owner, Slot.State.after, hp]⟩
  | some p =>
    cases hcell : s.mem.contexts.cell p with
    | none => exact absurd ⟨p, hp, hcell⟩ h
    | some c =>
      refine ⟨s.mem.contexts.free p, ?_, by simp [owner, Slot.State.after, hp]⟩
      simp [release, hp, modbusClose, modbusFree, hcell]

/-- Releasing a stale context hands a freed context to libmodbus. -/
theorem release_stale {s : Proc Mem} (h : Stale s.mem) :
    release.run s = .error .useAfterFree := by
  obtain ⟨p, hp, hcell⟩ := h
  simp [release, hp, modbusClose, hcell]

/-! ## Uses -/

/-- A call that gets as far as libmodbus through a stale context faults. -/
theorem use_stale {target : Platform} {c : Call} (hc : c.event target = .use) {s : Proc Mem}
    (h : Stale s.mem) : (c.body target).run s = .error .useAfterFree := by
  obtain ⟨p, hp, hcell⟩ := h
  cases c with
  | newRtu args env =>
    simp only [Call.event] at hc
    split at hc <;> cases hc
  | newTcp args env =>
    simp only [Call.event] at hc
    split at hc <;> cases hc
  | setSlave args =>
    have hreach : reachesSetSlave args = true := by
      by_contra hreach
      simp [Call.event, hreach] at hc
    simp only [reachesSetSlave] at hreach
    split at hreach
    · rename_i slave hparse
      have hrange : ¬(slave < 0 ∨ slave > 247) := by
        have := of_decide_eq_true hreach
        omega
      simp only [Call.body, setSlave, hparse, if_neg hrange]
      simp [modbusSetSlave, hp, hcell]
    · cases hreach
  | setTimeout args =>
    cases hparse : parseTimeout args with
    | none => simp [Call.event, hparse] at hc
    | some t => simp [Call.body, setTimeout, hparse, modbusSetResponseTimeout, hp, hcell]
  | readRegisters args env =>
    have hreach : reachesRead target args = true := by
      by_contra hreach
      simp [Call.event, hreach] at hc
    simp only [reachesRead] at hreach
    split at hreach
    · rename_i codeObj addrObj typeName pynb hparse
      simp only [Bool.and_eq_true, decide_eq_true_eq] at hreach
      obtain ⟨htype, hcode⟩ := hreach
      obtain ⟨type, htype⟩ := Option.isSome_iff_exists.mp htype
      rw [Call.body, run_readRegisters hparse htype]
      exact run_readBlock_freed hcode hp hcell
    · cases hreach
  | freeRtu => cases hc
  | freeTcp => cases hc

/-- A call that does not get that far touches no freed memory. -/
theorem idle_unfreed {target : Platform} {c : Call} (hc : c.event target = .idle)
    (s : Proc Mem) : (c.body target).run s ≠ .error .useAfterFree := by
  cases c with
  | newRtu args env =>
    cases hparse : parseNewRtu args with
    | none => simp [Call.body, newRtu, hparse]
    | some a => simp [Call.event, hparse] at hc
  | newTcp args env =>
    cases hparse : parseNewTcp args with
    | none => simp [Call.body, newTcp, hparse]
    | some a => simp [Call.event, hparse] at hc
  | setSlave args =>
    cases hparse : parseOne convertInt args with
    | none => simp [Call.body, setSlave, hparse]
    | some slave =>
      have hbad : slave < 0 ∨ slave > 247 := by
        by_contra hgood
        have hrange : 0 ≤ slave ∧ slave ≤ 247 := by omega
        simp [Call.event, reachesSetSlave, hparse, hrange] at hc
      simp [Call.body, setSlave, hparse, hbad]
  | setTimeout args =>
    cases hparse : parseTimeout args with
    | none => simp [Call.body, setTimeout, hparse]
    | some t => simp [Call.event, hparse] at hc
  | readRegisters args env =>
    rcases readRegisters_cases target args env s with ⟨msg, hrun⟩ | hrun |
      ⟨codeObj, addrObj, typeName, pynb, type, hparse, htype⟩
    · simp [Call.body, hrun]
    · simp [Call.body, hrun]
    · have hcode : toInt32 (cLong target codeObj) ∉ [1, 2, 3, 4] := by
        intro hcode
        simp only [Call.event, reachesRead, hparse, htype, Option.isSome_some, hcode,
          decide_true, Bool.and_self, if_true] at hc
        cases hc
      simp [Call.body, run_readRegisters hparse htype, run_readBlock_unsupported hcode]
  | freeRtu => cases hc
  | freeTcp => cases hc

/-- Calls that neither construct nor release leave the pointer and the contexts alone. -/
theorem usesContext_body {target : Platform} {c : Call}
    (hc : c.event target = .use ∨ c.event target = .idle) : UsesContext (c.body target) := by
  cases c with
  | newRtu args env =>
    cases hparse : parseNewRtu args with
    | none => simpa [Call.body, newRtu, hparse] using Frames.raise _
    | some a => simp [Call.event, hparse] at hc
  | newTcp args env =>
    cases hparse : parseNewTcp args with
    | none => simpa [Call.body, newTcp, hparse] using Frames.raise _
    | some a => simp [Call.event, hparse] at hc
  | setSlave args => exact usesContext_setSlave args
  | setTimeout args => exact (readsContext_setTimeout args).relax fun _ _ h => h.sameOwner
  | readRegisters args env =>
    exact (readsContext_readRegisters target args env).relax fun _ _ h => h.sameOwner
  | freeRtu => simp [Call.event] at hc
  | freeTcp => simp [Call.event] at hc

/-- The event of a call tells a constructor, and what releases the context. -/
theorem body_of_event (target : Platform) (c : Call) :
    match c.event target with
    | .create k => ∃ backend env, c.body target = construct backend env ∧ k = creation env
    | .release => c.body target = release
    | .use => True
    | .idle => True := by
  cases c with
  | newRtu args env =>
    cases hparse : parseNewRtu args with
    | none => simp [Call.event, hparse]
    | some a =>
      simp only [Call.event, hparse, Option.isSome_some, if_true]
      exact ⟨.rtu, env, by simp [Call.body, newRtu, hparse], rfl⟩
  | newTcp args env =>
    cases hparse : parseNewTcp args with
    | none => simp [Call.event, hparse]
    | some a =>
      simp only [Call.event, hparse, Option.isSome_some, if_true]
      exact ⟨.tcp, env, by simp [Call.body, newTcp, hparse], rfl⟩
  | setSlave args => cases hreach : reachesSetSlave args <;> simp [Call.event, hreach]
  | setTimeout args => cases hparse : parseTimeout args <;> simp [Call.event, hparse]
  | readRegisters args env => cases hreach : reachesRead target args <;> simp [Call.event, hreach]
  | freeRtu => rfl
  | freeTcp => rfl

/-- A constructor call whose arguments parse is a construction. -/
theorem body_create {target : Platform} {c : Call} {k : Slot.Creation}
    (hc : c.event target = .create k) :
    ∃ backend env, c.body target = construct backend env ∧ k = creation env := by
  have hbody := body_of_event target c
  rwa [hc] at hbody

/-- The calls that release the context. -/
theorem body_release {target : Platform} {c : Call} (hc : c.event target = .release) :
    c.body target = release := by
  have hbody := body_of_event target c
  rwa [hc] at hbody

/-! ## Whole runs -/

/-- A constructor stores what it creates, and drops what `mb` held. -/
theorem step_create {target : Platform} {c : Call} {k : Slot.Creation}
    (hc : c.event target = .create k) (mem : Mem) :
    ∃ mem', step target mem c = .ok mem' ∧ owner mem' = (owner mem).after (.create k) := by
  obtain ⟨backend, env, hbody, rfl⟩ := body_create hc
  obtain ⟨r, s', hrun, howner⟩ := construct_created backend env ⟨none, mem⟩
  exact ⟨s'.mem, map_eq_ok.mpr ⟨(r, s'), by rwa [exec, hbody], rfl⟩, howner⟩

/-- A release frees the context, or touches one that was freed. -/
theorem step_release {target : Platform} {c : Call} (hc : c.event target = .release)
    (mem : Mem) :
    (Stale mem → step target mem c = .error .useAfterFree) ∧
      (¬Stale mem →
        ∃ mem', step target mem c = .ok mem' ∧ owner mem' = (owner mem).after .release) := by
  constructor
  · intro hst
    rw [step, exec, body_release hc, map_eq_error]
    exact release_stale hst
  · intro hfresh
    obtain ⟨contexts, hrun, howner⟩ := release_freed (s := ⟨none, mem⟩) hfresh
    exact ⟨_, map_eq_ok.mpr ⟨_, by rwa [exec, body_release hc], rfl⟩, howner⟩

/-- A call hands a freed context to libmodbus precisely where the pointer machine touches a freed
object. -/
theorem step_stale_iff {target : Platform} {mem : Mem} {c : Call} :
    step target mem c = .error .useAfterFree ↔ (owner mem).Faults (c.event target) := by
  rw [owner_faults_iff]
  constructor
  · intro hstep
    have hrun := map_eq_error.mp hstep
    cases hc : c.event target with
    | idle => exact absurd hrun (idle_unfreed hc _)
    | use => exact ⟨.inl rfl, (usesContext_body (.inl hc)).freed _ hrun⟩
    | create k =>
      obtain ⟨mem', hok, _⟩ := step_create hc mem
      rw [hstep] at hok
      cases hok
    | release =>
      refine ⟨.inr rfl, ?_⟩
      by_contra hfresh
      obtain ⟨mem', hok, _⟩ := (step_release hc mem).2 hfresh
      rw [hstep] at hok
      cases hok
  · rintro ⟨hc | hc, hst⟩
    · exact map_eq_error.mpr (use_stale hc hst)
    · exact (step_release hc mem).1 hst

/-- The Modbus machine refines the pointer machine. -/
theorem step_refines (target : Platform) :
    Slot.Refines (step target) (fun mem c => step target mem c = .error .useAfterFree) owner
      (Call.event target) := by
  refine Slot.Refines.of_steps (fun mem c => step_stale_iff) ?_ ?_ ?_
  · intro mem c k hc
    exact step_create hc mem
  · intro mem c mem' hc hstep
    by_cases hst : Stale mem
    · rw [(step_release hc mem).1 hst] at hstep
      cases hstep
    · obtain ⟨mem1, hok, howner⟩ := (step_release hc mem).2 hst
      rw [hok] at hstep
      cases hstep
      exact howner
  · intro mem c mem' hc hstep
    obtain ⟨r, hrun, rfl⟩ := map_eq_ok.mp hstep
    exact (usesContext_body hc).keeps _ _ _ hrun

/-- Every context created is the current one or was freed. -/
def NoneLost (mem : Mem) : Prop :=
  ∀ p < mem.contexts.next, mem.mb = some p ∨ mem.contexts.cell p = none

/-- The call hands no freed context to libmodbus, and loses none. -/
def CallSafe (target : Platform) (mem : Mem) (c : Call) : Prop :=
  step target mem c ≠ .error .useAfterFree ∧
    ∀ mem', step target mem c = .ok mem' → NoneLost mem'

/-- Arguments and answers of a `new_rtu` that succeeds. -/
def opened : Call := .newRtu [.atom (.str (some (lit "/dev/ttymxc1")))] ⟨true, true, ""⟩

end PyModules.Modbus
