import PyModules.Lte.Lifecycle
import PyModules.Lte.Setup

/-!
# The settings along a run

A run that keeps to the phase protocol has the settings of its open module on the line, and
otherwise the settings from before the import.
-/

namespace PyModules.Lte

/-- What the context is to the calls so far: NULL, released or never connected, or open with the
arguments of its `new_lte`. -/
inductive Life
  | null
  | stale
  | held (a : SerialArgs)
  deriving DecidableEq, Repr

/-- The phase of the context. -/
def Life.phase : Life → Slot.Phase
  | .null => .null
  | .stale => .stale
  | .held _ => .held

/-- The context after a release, which leaves a NULL context alone. -/
def Life.released : Life → Life
  | .null => .null
  | _ => .stale

/-- The context after a call. -/
def Life.next (l : Life) : Call → Life
  | .newLte args env => match parseNewLte args with
    | none => l
    | some a =>
      if NoStream a env then l
      else match creation a env with
        | .held => .held a
        | .dead => .stale
        | _ => .null
  | .delLte | .freeLte => l.released
  | .command _ => l

/-- The phase protocol, with a `tcsetattr` that succeeds at each release. -/
def Life.legal (l : Life) (c : Call × Bool) : Prop :=
  l.phase.legal c.1.event ∧ (c.1.event = .release → c.2)

instance (l : Life) (c : Call × Bool) : Decidable (l.legal c) :=
  inferInstanceAs (Decidable (_ ∧ _))

/-- The settings of all lines: those of an open one are its module's, the others are as they
were. -/
def inEffect (tios : List UInt8 → Termios) : Life → List UInt8 → Termios
  | .held a => Function.update tios a.device (configure (uartOf a))
  | _ => tios

/-- The lines and the module are where the calls have brought them. -/
structure Settled {π : Type} (original : List UInt8 → Termios) (w : Setup π) (l : Life) : Prop where
  inPhase : Slot.InPhase (owner w.mem) l.phase
  tios : w.tios = inEffect original l
  held : ∀ a, l = .held a → ∃ p m fd, w.mem.ctx = some p ∧ w.mem.modules.cell p = some m ∧
    m.s = some fd ∧ m.uart = uartOf a ∧ w.oldTios p = original a.device
  parity : ∀ a, l = .held a → a.parity = 78 ∨ a.parity = 69 ∨ a.parity = 79

/-- The phases of the context follow the events of the calls. -/
theorem Life.phase_next (l : Life) (c : Call) : (l.next c).phase = l.phase.next c.event := by
  cases c with
  | newLte args env =>
    cases hargs : parseNewLte args with
    | none => simp [Life.next, Call.event, hargs, Slot.Phase.next]
    | some a =>
      by_cases hno : NoStream a env
      · simp [Life.next, Call.event, hargs, hno, Slot.Phase.next]
      · cases hcreation : creation a env <;>
          simp [Life.next, Call.event, hargs, hno, hcreation, Slot.Phase.next, Life.phase]
  | delLte | freeLte => cases l <;> rfl
  | command c =>
    cases hreaches : c.Reaches <;> cases l <;>
      simp [Life.next, Call.event, hreaches, Slot.Phase.next, Life.phase]

/-- A release puts all lines back. -/
@[simp] theorem inEffect_released (original : List UInt8 → Termios) (l : Life) :
    inEffect original l.released = original := by
  cases l <;> rfl

/-- A module that connects has one of the three parities. -/
theorem parity_of_creation_held {a : SerialArgs} {env : NewLteEnv} (h : creation a env = .held) :
    a.parity = 78 ∨ a.parity = 69 ∨ a.parity = 79 := by
  unfold creation at h
  split at h
  · cases h
  · split at h
    · cases h
    · split at h
      · cases h
      · rename_i hparity
        exact not_not.mp hparity

/-- A held module that the machine agrees with is alive. -/
theorem live_of_inPhase_held {π : Type} {mem : Mem π} (h : Slot.InPhase (owner mem) .held) :
    ∃ p, mem.ctx = some p ∧ mem.modules.cell p ≠ none := by
  obtain ⟨p, _, hp, hlive⟩ := h
  have hmem : p ∈ mem.modules.live := by
    rw [show mem.modules.live = {p} from hlive]
    exact Set.mem_singleton p
  obtain ⟨m, hm⟩ := Heap.mem_live.mp hmem
  exact ⟨p, hp, by rw [hm]; exact Option.some_ne_none m⟩

/-- Nor is there a module while none is held. -/
theorem dead_of_inPhase {π : Type} {mem : Mem π} {ph : Slot.Phase}
    (h : Slot.InPhase (owner mem) ph) (hph : ph ≠ .held) (p : ℕ) : mem.modules.cell p = none := by
  have hlive : mem.modules.live = ∅ := by
    cases ph with
    | null => exact h.2
    | held => exact absurd rfl hph
    | stale => exact h.choose_spec.2.2
  by_contra hne
  obtain ⟨m, hm⟩ := Option.ne_none_iff_exists'.mp hne
  have hmem : p ∈ mem.modules.live := Heap.mem_live.mpr ⟨m, hm⟩
  rw [hlive] at hmem
  exact hmem

section Steps

variable {π : Type} [Tty π] {original : List UInt8 → Termios} {w w' : Setup π} {l : Life}

/-- Every legal call keeps the phase. -/
theorem Settled.inPhase_next (h : Settled original w l) {c : Call × Bool} (hlegal : l.legal c)
    (hstep : Setup.step w c = .ok w') : Slot.InPhase (owner w'.mem) (l.next c.1).phase := by
  have howner := step_refines.moves w.mem c.1 w'.mem (Setup.step_projects hstep)
  rw [howner, Life.phase_next]
  exact h.inPhase.after hlegal.1

/-- A `new_lte` with complete arguments. -/
theorem Settled.newLte (h : Settled original w l) {args : List PyObject} {env : NewLteEnv}
    {restores : Bool} (hlegal : l.legal (.newLte args env, restores)) {a : SerialArgs}
    (hargs : parseNewLte args = some a)
    (hstep : Setup.step w (.newLte args env, restores) = .ok w') :
    Settled original w' (l.next (.newLte args env)) := by
  have hphase := h.inPhase_next hlegal hstep
  have hstream : ¬NoStream a env := by
    intro hno
    obtain ⟨_, hrun, _⟩ := map_eq_ok.mp (Setup.step_projects hstep)
    rw [exec, Call.body, newLte_noStream hargs hno] at hrun
    cases hrun
  have hfree : l.phase ≠ .held := by
    have hcreate := hlegal.1
    simp only [Call.event, hargs, if_neg hstream] at hcreate
    exact hcreate.1
  have htios : w.tios = original := by
    rw [h.tios]
    cases l with
    | null | stale => rfl
    | held a => exact absurd rfl hfree
  have hnext : ∀ a', l.next (.newLte args env) = .held a' → a' = a := by
    intro a' ha'
    simp only [Life.next, hargs, if_neg hstream] at ha'
    cases hcreation : creation a env <;> simp [hcreation] at ha'
    exact ha'.symm
  obtain ⟨⟨r, s'⟩, hrun, rfl⟩ := map_eq_ok.mp hstep
  rcases Setup.cases_of_newLte hargs hrun with ⟨hsame, hdead⟩ | ⟨p, fd, hctx, hcell, hset, hold⟩
  · cases hlife : l.next (.newLte args env) with
    | null | stale =>
      rw [hlife] at hphase
      exact ⟨hphase, hsame.trans htios, fun a' ha' => Life.noConfusion ha',
        fun a' ha' => Life.noConfusion ha'⟩
    | held a' =>
      rw [hlife] at hphase
      obtain ⟨p, hp, hlive⟩ := live_of_inPhase_held hphase
      exact absurd (hdead p hp) hlive
  · have hheld : l.next (.newLte args env) = .held a := by
      cases hlife : l.next (.newLte args env) with
      | held a' => rw [hnext a' hlife]
      | null | stale =>
        rw [hlife] at hphase
        have hdead := dead_of_inPhase hphase (by decide) p
        rw [hdead] at hcell
        cases hcell
    have hcreation : creation a env = .held := by
      simp only [Life.next, hargs, if_neg hstream] at hheld
      cases hcreation : creation a env <;> simp [hcreation] at hheld
      rfl
    rw [hheld] at hphase ⊢
    refine ⟨hphase, hset.trans (by rw [htios]; rfl), fun a' ha' => ?_, fun a' ha' => ?_⟩
    · cases ha'
      exact ⟨p, _, fd, hctx, hcell, rfl, rfl, hold.trans (by rw [htios])⟩
    · cases ha'
      exact parity_of_creation_held hcreation

/-- A release. -/
theorem Settled.release (h : Settled original w l) {c : Call} {restores : Bool}
    (hc : c = .delLte ∨ c = .freeLte) (hlegal : l.legal (c, restores))
    (hstep : Setup.step w (c, restores) = .ok w') : Settled original w' (l.next c) := by
  have hphase := h.inPhase_next hlegal hstep
  have hevent : c.event = .release := by rcases hc with rfl | rfl <;> rfl
  obtain rfl : restores = true := hlegal.2 hevent
  have hbody : ∃ r, Setup.body (c, true) =
      (do Setup.freeLte true; return r : CM (Setup π) PyRef) := by
    rcases hc with rfl | rfl
    · exact ⟨pyNone, rfl⟩
    · exact ⟨NULL, rfl⟩
  obtain ⟨r, hbody⟩ := hbody
  obtain ⟨⟨_, s'⟩, hrun, rfl⟩ := map_eq_ok.mp hstep
  rw [hbody, StateT.run_bind] at hrun
  have hnext : l.next c = l.released := by rcases hc with rfl | rfl <;> rfl
  cases l with
  | null =>
    have hctx : w.mem.ctx = none := h.inPhase.1
    have hfree : (Setup.freeLte true).run ⟨none, w⟩ = .ok ((), ⟨none, w⟩) := by
      simp [Setup.freeLte, Setup.moduleClose, moduleFree, Except.map, hctx, Setup.put]
    rw [hfree] at hrun
    cases hrun
    rw [hnext] at hphase ⊢
    exact ⟨hphase, h.tios, fun a ha => Life.noConfusion ha, fun a ha => Life.noConfusion ha⟩
  | stale =>
    have hlegal := hlegal.1
    rw [hevent] at hlegal
    exact absurd rfl hlegal
  | held a =>
    obtain ⟨p, m, fd, hctx, hcell, hs, huart, hold⟩ := h.held a rfl
    obtain ⟨s1, hfree, htios⟩ := Setup.run_freeLte_held (s := ⟨none, w⟩) hctx hcell hs
    rw [hfree] at hrun
    cases hrun
    rw [hnext] at hphase ⊢
    refine ⟨hphase, ?_, fun a ha => Life.noConfusion ha, fun a ha => Life.noConfusion ha⟩
    rw [htios, huart, hold, h.tios, inEffect_released]
    simp [inEffect, uartOf]

/-- A legal call takes the lines and the module to where it takes the context. -/
theorem Settled.next (h : Settled original w l) {c : Call × Bool} (hlegal : l.legal c)
    (hstep : Setup.step w c = .ok w') : Settled original w' (l.next c.1) := by
  obtain ⟨c, restores⟩ := c
  cases c with
  | newLte args env =>
    cases hargs : parseNewLte args with
    | none =>
      have hnext : l.next (.newLte args env) = l := by simp [Life.next, hargs]
      obtain ⟨⟨r, s'⟩, hrun, rfl⟩ := map_eq_ok.mp hstep
      simp only [Setup.body, Setup.newLte, hargs, run_raise] at hrun
      cases hrun
      rw [hnext]
      exact h
    | some a => exact h.newLte hlegal hargs hstep
  | delLte => exact h.release (.inl rfl) hlegal hstep
  | freeLte => exact h.release (.inr rfl) hlegal hstep
  | command c =>
    have hphase := h.inPhase_next hlegal hstep
    obtain ⟨⟨r, s'⟩, hrun, rfl⟩ := map_eq_ok.mp hstep
    obtain ⟨⟨_, s0⟩, hbase, heq⟩ := map_eq_ok.mp hrun
    obtain ⟨rfl, rfl⟩ := Prod.mk.inj heq
    have hsame : SameContext w.mem s0.mem := (LineOnly.command c).keeps _ _ _ hbase
    refine ⟨hphase, h.tios, fun a ha => ?_, h.parity⟩
    obtain ⟨p, m, fd, hctx, hcell, hs, huart, hold⟩ := h.held a ha
    rw [← hsame.modules] at hcell
    exact ⟨p, m, fd, hsame.ctx.trans hctx, hcell, hs, huart, hold⟩

end Steps

/-- The context after the calls from import. -/
def lifeAfter (calls : List (Call × Bool)) : Life := calls.foldl (fun l c => Life.next l c.1) .null

/-- Along a run that keeps to the phase protocol, with every `tcsetattr` of a release successful,
the settings of all lines are a function of the calls: the line of the open module has the
settings of its `new_lte`, and the others, after a release all of them, those from before the
import. The settings are what the arguments are taken for, and those asked for precisely if
these are standard. -/
theorem settings_follow_calls {π : Type} [Tty π] (tty : π) (oldTios : ℕ → Termios)
    (original : List UInt8 → Termios) {calls : List (Call × Bool)}
    (hlegal : Runs.Accepts (fun l c => Life.next l c.1) Life.legal .null calls) {w : Setup π}
    (hafter : Runs.after Setup.step ⟨Mem.initial tty, oldTios, original⟩ calls = .ok w) :
    w.tios = inEffect original (lifeAfter calls) ∧
      ∀ a, lifeAfter calls = .held a →
        Meets (w.tios a.device) (taken a) ∧ (Meets (w.tios a.device) a ↔ Standard a) := by
  have hinit : Settled original ⟨Mem.initial tty, oldTios, original⟩ .null :=
    ⟨⟨rfl, Heap.live_empty⟩, rfl, fun a ha => Life.noConfusion ha, fun a ha => Life.noConfusion ha⟩
  have hnext : ∀ (w : Setup π) (l : Life) (c : Call × Bool) (w' : Setup π),
      Settled original w l → l.legal c → Setup.step w c = .ok w' →
        Settled original w' (l.next c.1) := fun _ _ _ _ h hc hstep => h.next hc hstep
  have hsettled : Settled original w (lifeAfter calls) := hlegal.after hnext hinit hafter
  refine ⟨hsettled.tios, fun a ha => ?_⟩
  rw [hsettled.tios, ha, inEffect, Function.update_self]
  exact ⟨meets_taken (hsettled.parity a ha), meets_configure_iff (hsettled.parity a ha)⟩

/-- Opened, deleted, and opened again, the module finds the settings it asks for on its line. -/
theorem settings_of_reopened :
    ∃ w, Runs.after Setup.step ⟨Mem.initial (⟨[]⟩ : Script), fun _ => .zero, fun _ => .zero⟩
        [(plugged, true), (.delLte, true), (plugged, true)] = .ok w ∧
      Meets (w.tios (lit "/dev/ttyUSB2")) ⟨lit "/dev/ttyUSB2", 3000000, 78, 8, 1⟩ := by
  obtain ⟨w, hafter⟩ : ∃ w, Runs.after Setup.step
      ⟨Mem.initial (⟨[]⟩ : Script), fun _ => .zero, fun _ => .zero⟩
      [(plugged, true), (.delLte, true), (plugged, true)] = .ok w := ⟨_, rfl⟩
  have hlife : lifeAfter [(plugged, true), (.delLte, true), (plugged, true)] =
      .held ⟨lit "/dev/ttyUSB2", 3000000, 78, 8, 1⟩ := by decide +kernel
  have hmeets := ((settings_follow_calls _ _ _ (by decide +kernel) hafter).2 _ hlife).2
  exact ⟨w, hafter, hmeets.mpr ⟨by decide, by decide, .inl rfl⟩⟩

end PyModules.Lte
