import PyModules.Modbus.Lifecycle

/-!
# The slave address

`set_slave` parses its argument into the static `slave_addr` and checks it afterwards;
the constructors replay the static into every new context. This file compares the
address stored in the context with the last address that `set_slave` accepted.
-/

namespace PyModules.Modbus

/-- The memory, and the argument of the last `set_slave` that returned True. -/
structure Tracked where
  mem : Mem
  accepted : ℤ

/-- At import no `set_slave` was called, and the address is 1. -/
def Tracked.initial : Tracked := ⟨Mem.initial, 1⟩

/-- The last accepted argument after a call that returned `r`. -/
def nextAccepted (accepted : ℤ) (c : Call) (r : PyRef) : ℤ :=
  match c with
  | .setSlave args => if r = pyTrue then (parseOne convertInt args).getD accepted else accepted
  | _ => accepted

/-- One call, with the last accepted argument kept up to date. -/
def trackedStep (target : Platform) (t : Tracked) (c : Call) : Except Fault Tracked :=
  (exec target t.mem c).map fun r => ⟨r.2.mem, nextAccepted t.accepted c r.1⟩

/-- The calls that give a context its address. -/
def Call.Configures : Call → Prop
  | .newRtu _ _ | .newTcp _ _ | .setSlave _ => True
  | _ => False

/-- What a call that returned `r` must leave behind. -/
structure Agreement (t : Tracked) (c : Call) (r : PyRef) (mem : Mem) : Prop where
  /-- The static address is a valid one. -/
  range : 0 ≤ mem.slaveAddr ∧ mem.slaveAddr ≤ 247
  /-- A `set_slave` that raises changes nothing. -/
  unchanged : ∀ args, c = .setSlave args → r = NULL → mem = t.mem
  /-- After a success, a live context has the address accepted last. -/
  agrees : c.Configures → r = pyTrue → ∀ p ctx, mem.mb = some p →
    mem.contexts.cell p = some ctx → ctx.slave = nextAccepted t.accepted c r

/-- A call keeps the agreement, if it returns. -/
def Agrees (target : Platform) (t : Tracked) (c : Call) : Prop :=
  ∀ r s', exec target t.mem c = .ok (r, s') → Agreement t c r s'.mem

/-- `set_slave` is called with an address it accepts, unless its argument is no C `int`. -/
def AddressInRange (_ : Tracked) : Call → Prop
  | .setSlave args => ∀ slave, parseOne convertInt args = some slave → 0 ≤ slave ∧ slave ≤ 247
  | _ => True

/-- The static address is valid and is the one accepted last. -/
structure InSync (t : Tracked) : Prop where
  range : 0 ≤ t.mem.slaveAddr ∧ t.mem.slaveAddr ≤ 247
  accepted : t.mem.slaveAddr = t.accepted

/-! ## What each call leaves behind -/

/-- Both kinds of context accept a valid address. -/
theorem accepts_of_range {slave : ℤ} (h : 0 ≤ slave ∧ slave ≤ 247) (backend : Backend) :
    backend.Accepts slave := Or.inl h

/-- A context has the address stored in it. -/
theorem slave_of_setSlave {mem : Mem} {p : ℕ} {slave : ℤ} {ctx : Context}
    (h : (mem.setSlave p slave).contexts.cell p = some ctx) : ctx.slave = slave := by
  simp only [Mem.setSlave, Heap.modify_cell_self, Option.map_eq_some_iff] at h
  obtain ⟨c, _, rfl⟩ := h
  rfl

/-- A `set_slave` with a valid address: NULL takes nothing, and a live context the address. -/
theorem run_setSlave {args : List PyObject} {slave : ℤ}
    (hparse : parseOne convertInt args = some slave) (hrange : 0 ≤ slave ∧ slave ≤ 247)
    {s s' : Proc Mem} {r : PyRef} (hrun : (setSlave args).run s = .ok (r, s')) :
    r = pyTrue ∧ s'.mem.slaveAddr = slave ∧
      ∀ p ctx, s'.mem.mb = some p → s'.mem.contexts.cell p = some ctx → ctx.slave = slave := by
  have hno : ¬(slave < 0 ∨ slave > 247) := by omega
  simp only [setSlave, hparse, if_neg hno, StateT.run_bind, run_modifyMem, run_getMem,
    ok_bind] at hrun
  cases hmb : s.mem.mb with
  | none =>
    simp only [hmb, modbusSetSlave, StateT.run_pure, pure_eq_ok, ok_bind, Except.ok.injEq,
      Prod.mk.injEq] at hrun
    obtain ⟨rfl, rfl⟩ := hrun
    exact ⟨rfl, rfl, fun p ctx hp => absurd hp (Option.some_ne_none p).symm⟩
  | some q =>
    cases hcell : s.mem.contexts.cell q with
    | none => simp [hmb, modbusSetSlave, hcell] at hrun
    | some c =>
      rw [hmb, run_modbusSetSlave (by exact hcell), if_pos (accepts_of_range hrange _)] at hrun
      cases hrun
      refine ⟨rfl, rfl, fun p ctx hp hctx => ?_⟩
      have hpq : q = p := Option.some.inj hp
      subst hpq
      exact slave_of_setSlave hctx

/-- A `set_slave` with an address out of range raises, and keeps the address. -/
theorem run_setSlave_rejected {args : List PyObject} {slave : ℤ}
    (hparse : parseOne convertInt args = some slave) (hbad : slave < 0 ∨ slave > 247)
    (s : Proc Mem) :
    (setSlave args).run s =
      .ok (NULL, ⟨some ⟨.module, "Invalid slave_addr = [0 .. 247]"⟩,
        { s.mem with slaveAddr := slave }⟩) := by
  simp [setSlave, hparse, hbad]

/-- A constructor keeps the static address, and hands a valid one to the new context. -/
theorem construct_slave {backend : Backend} {env : NewEnv} {s s' : Proc Mem} {r : PyRef}
    (hrange : 0 ≤ s.mem.slaveAddr ∧ s.mem.slaveAddr ≤ 247)
    (hrun : (construct backend env).run s = .ok (r, s')) :
    s'.mem.slaveAddr = s.mem.slaveAddr ∧
      (r = pyTrue → ∀ p ctx, s'.mem.mb = some p → s'.mem.contexts.cell p = some ctx →
        ctx.slave = s.mem.slaveAddr) := by
  have hnull : NULL ≠ pyTrue := by decide
  cases hcreates : env.creates with
  | false =>
    rw [run_construct_null backend hcreates] at hrun
    cases hrun
    exact ⟨rfl, fun h => absurd h hnull⟩
  | true =>
    cases hconnects : env.connects with
    | false =>
      rw [run_construct_dead backend hcreates hconnects] at hrun
      cases hrun
      exact ⟨rfl, fun h => absurd h hnull⟩
    | true =>
      rw [run_construct_held backend hcreates hconnects, if_pos (accepts_of_range hrange _)]
        at hrun
      cases hrun
      refine ⟨rfl, fun _ p ctx hp hctx => ?_⟩
      have hpq : s.mem.contexts.next = p := Option.some.inj hp
      subst hpq
      exact slave_of_setSlave hctx

/-- Releasing the context keeps the static address. -/
theorem release_slave {s s' : Proc Mem} {r : PyRef} (hrun : release.run s = .ok (r, s')) :
    s'.mem.slaveAddr = s.mem.slaveAddr := by
  by_cases hst : Stale s.mem
  · rw [release_stale hst] at hrun
    cases hrun
  · obtain ⟨contexts, hfreed, _⟩ := release_freed hst
    rw [hfreed] at hrun
    cases hrun
    rfl

/-- A call that does not set the address and keeps it in the static variable. -/
theorem agreement_of_kept {t : Tracked} (h : InSync t) {c : Call} {r : PyRef} {mem : Mem}
    (hc : ∀ args, c ≠ .setSlave args) (hkept : mem.slaveAddr = t.mem.slaveAddr)
    (hagrees : c.Configures → r = pyTrue → ∀ p ctx, mem.mb = some p →
      mem.contexts.cell p = some ctx → ctx.slave = t.mem.slaveAddr) :
    Agreement t c r mem ∧ mem.slaveAddr = nextAccepted t.accepted c r := by
  have hnext : nextAccepted t.accepted c r = t.accepted := by
    cases c with
    | setSlave args => exact absurd rfl (hc args)
    | _ => rfl
  refine ⟨⟨hkept ▸ h.range, fun args hargs => absurd hargs (hc args), ?_⟩, ?_⟩
  · intro hconf hr p ctx hp hctx
    rw [hnext, ← h.accepted]
    exact hagrees hconf hr p ctx hp hctx
  · rw [hnext, hkept, h.accepted]

/-- A call that raises before it does anything. -/
theorem agreement_of_raise {t : Tracked} (h : InSync t) {c : Call} (hc : ∀ args, c ≠ .setSlave args)
    {msg : String} {r : PyRef} {s' : Proc Mem}
    (hrun : (raise msg : CM Mem PyRef).run ⟨none, t.mem⟩ = .ok (r, s')) :
    Agreement t c r s'.mem ∧ s'.mem.slaveAddr = nextAccepted t.accepted c r := by
  cases hrun
  have hnull : NULL ≠ pyTrue := by decide
  exact agreement_of_kept h hc rfl fun _ hr => absurd hr hnull

/-- A call that constructs a context. -/
theorem agreement_of_construct {t : Tracked} (h : InSync t) {c : Call}
    (hc : ∀ args, c ≠ .setSlave args) {backend : Backend} {env : NewEnv} {r : PyRef}
    {s' : Proc Mem} (hrun : (construct backend env).run ⟨none, t.mem⟩ = .ok (r, s')) :
    Agreement t c r s'.mem ∧ s'.mem.slaveAddr = nextAccepted t.accepted c r := by
  obtain ⟨hkept, hagrees⟩ := construct_slave h.range hrun
  exact agreement_of_kept h hc hkept fun _ => hagrees

/-- In sync, a call that respects the range keeps the agreement and the sync. -/
theorem agreement_of_inRange {target : Platform} {t : Tracked} (h : InSync t) {c : Call}
    (hc : AddressInRange t c) {r : PyRef} {s' : Proc Mem}
    (hrun : exec target t.mem c = .ok (r, s')) :
    Agreement t c r s'.mem ∧ s'.mem.slaveAddr = nextAccepted t.accepted c r := by
  have hnull : NULL ≠ pyTrue := by decide
  cases c with
  | newRtu args env =>
    simp only [exec, Call.body, newRtu] at hrun
    split at hrun
    · exact agreement_of_raise h (fun _ => Call.noConfusion) hrun
    · exact agreement_of_construct h (fun _ => Call.noConfusion) hrun
  | newTcp args env =>
    simp only [exec, Call.body, newTcp] at hrun
    split at hrun
    · exact agreement_of_raise h (fun _ => Call.noConfusion) hrun
    · exact agreement_of_construct h (fun _ => Call.noConfusion) hrun
  | setSlave args =>
    cases hparse : parseOne convertInt args with
    | none =>
      simp only [exec, Call.body, setSlave, hparse, run_raise] at hrun
      cases hrun
      refine ⟨⟨h.range, fun _ _ _ => rfl, fun _ hr => absurd hr hnull⟩, ?_⟩
      simpa [nextAccepted, hnull] using h.accepted
    | some slave =>
      have hrange := hc slave hparse
      obtain ⟨rfl, hslave, hctx⟩ := run_setSlave hparse hrange hrun
      have hnext : nextAccepted t.accepted (.setSlave args) pyTrue = slave := by
        simp [nextAccepted, hparse]
      refine ⟨⟨hslave ▸ hrange, fun _ _ hr => absurd hr.symm hnull, ?_⟩, ?_⟩
      · intro _ _ p ctx hp hcell
        rw [hnext]
        exact hctx p ctx hp hcell
      · rw [hnext, hslave]
  | setTimeout args =>
    have hkept := ((readsContext_setTimeout args).keeps _ _ _ hrun).slaveAddr
    exact agreement_of_kept h (fun _ => Call.noConfusion) hkept fun hconf => hconf.elim
  | readRegisters args env =>
    have hkept := ((readsContext_readRegisters target args env).keeps _ _ _ hrun).slaveAddr
    exact agreement_of_kept h (fun _ => Call.noConfusion) hkept fun hconf => hconf.elim
  | freeRtu =>
    exact agreement_of_kept h (fun _ => Call.noConfusion) (release_slave hrun)
      fun hconf => hconf.elim
  | freeTcp =>
    exact agreement_of_kept h (fun _ => Call.noConfusion) (release_slave hrun)
      fun hconf => hconf.elim

/-- An agreement shows that the call respected the range. -/
theorem inRange_of_agrees {target : Platform} {t : Tracked} {c : Call}
    (h : Agrees target t c) : AddressInRange t c := by
  cases c with
  | setSlave args =>
    intro slave hparse
    by_contra hrange
    have hbad : slave < 0 ∨ slave > 247 := by omega
    have hagree := h _ _ (run_setSlave_rejected hparse hbad ⟨none, t.mem⟩)
    exact hrange hagree.range
  | _ => trivial

/-- From import, the addresses agree along a run precisely when every `set_slave` in it
whose argument is a C `int` is given an address in 0 .. 247. -/
theorem slave_agrees_iff_inRange (target : Platform) (calls : List Call) :
    Runs.Always (trackedStep target) (Agrees target) Tracked.initial calls ↔
      Runs.Always (trackedStep target) AddressInRange Tracked.initial calls := by
  have hinit : InSync Tracked.initial := ⟨by decide, rfl⟩
  refine Runs.always_iff_always (I := InSync) ?_ ?_ hinit calls
  · intro t c h
    exact ⟨inRange_of_agrees, fun hc r s' hrun => (agreement_of_inRange h hc hrun).1⟩
  · intro t c t' h hc hstep
    obtain ⟨⟨r, s'⟩, hrun, rfl⟩ := map_eq_ok.mp hstep
    obtain ⟨hagree, hnext⟩ := agreement_of_inRange h hc hrun
    exact ⟨hagree.range, hnext⟩

/-- `set_slave(300)` raises but keeps 300. -/
theorem setSlave_keeps_rejected :
    ¬Runs.Always (trackedStep armv7) (Agrees armv7) Tracked.initial
      [.setSlave [.atom (.int 300)]] := by
  intro h
  have hrange := (h.1 _ _ rfl).range
  exact absurd hrange.2 (by decide)

end PyModules.Modbus
