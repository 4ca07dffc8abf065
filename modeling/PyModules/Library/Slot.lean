import Mathlib.Data.Set.Lattice
import Mathlib.Tactic.Common
import PyModules.Library.Runs

/-!
# One static pointer that owns an object

A module that keeps its only handle in a static pointer can lose the object (by
overwriting the pointer) or use it after freeing it (by not clearing the pointer).
The abstract machine here has just that pointer and the set of live objects. Its
safe runs are exactly those that keep to a three-phase protocol, and the result
carries over to any machine that refines it.
-/

namespace Slot

/-- The static pointer and the objects allocated and not freed. -/
structure State where
  /-- The static pointer; NULL is `none`. -/
  ptr : Option ℕ
  /-- The next identity to hand out. -/
  next : ℕ
  /-- Objects allocated and not freed. -/
  live : Set ℕ

/-- How a constructor call leaves the pointer and the object. -/
inductive Creation
  /-- NULL is stored and nothing was allocated. -/
  | null
  /-- NULL is stored, the object allocated having been freed again. -/
  | undone
  /-- NULL is stored although an object was allocated. -/
  | leaked
  /-- The new object was freed again, but its address stays in the pointer. -/
  | dead
  /-- The pointer holds the new, live object. -/
  | held
  deriving DecidableEq, Repr

/-- What one call does with the pointer. -/
inductive Event
  /-- The pointer is not looked at. -/
  | idle
  /-- The pointer is overwritten by a constructor. -/
  | create (c : Creation)
  /-- The object is used, unless the pointer is NULL. -/
  | use
  /-- The object is freed, unless the pointer is NULL; the pointer keeps its value. -/
  | release
  deriving DecidableEq, Repr

/-- The event touches an object that was already freed. -/
def State.Faults (s : State) (e : Event) : Prop :=
  (e = .use ∨ e = .release) ∧ ∃ p, s.ptr = some p ∧ p ∉ s.live

/-- The state after an event that does not fault. -/
def State.after (s : State) : Event → State
  | .idle => s
  | .use => s
  | .release => { s with live := s.live \ {p | s.ptr = some p} }
  | .create .null => { s with ptr := none }
  | .create .undone => ⟨none, s.next + 1, s.live⟩
  | .create .leaked => ⟨none, s.next + 1, insert s.next s.live⟩
  | .create .dead => ⟨some s.next, s.next + 1, s.live⟩
  | .create .held => ⟨some s.next, s.next + 1, insert s.next s.live⟩

/-- No object is live but the one the pointer names. -/
def State.Tidy (s : State) : Prop := ∀ a ∈ s.live, s.ptr = some a

/-- The phases of the pointer in a safe run. -/
inductive Phase
  /-- The pointer is NULL. -/
  | null
  /-- The pointer names a live object. -/
  | held
  /-- The pointer names a freed object. -/
  | stale
  deriving DecidableEq, Repr

/-- The events a safe run may take in each phase: nothing touches a stale pointer,
no constructor runs while an object is held, and no constructor leaks. -/
def Phase.legal : Phase → Event → Prop
  | _, .idle => True
  | ph, .use => ph ≠ .stale
  | ph, .release => ph ≠ .stale
  | ph, .create c => ph ≠ .held ∧ c ≠ .leaked

instance (ph : Phase) (e : Event) : Decidable (ph.legal e) := by
  cases e <;> unfold Phase.legal <;> infer_instance

/-- The phase after an event. -/
def Phase.next : Phase → Event → Phase
  | ph, .idle => ph
  | ph, .use => ph
  | .null, .release => .null
  | _, .release => .stale
  | _, .create .null => .null
  | _, .create .undone => .null
  | _, .create .leaked => .null
  | _, .create .dead => .stale
  | _, .create .held => .held

/-- The states of each phase. -/
def InPhase (s : State) : Phase → Prop
  | .null => s.ptr = none ∧ s.live = ∅
  | .held => ∃ p < s.next, s.ptr = some p ∧ s.live = {p}
  | .stale => ∃ p < s.next, s.ptr = some p ∧ s.live = ∅

/-- In every phase the machine is tidy. -/
theorem InPhase.tidy {s : State} {ph : Phase} (h : InPhase s ph) : s.Tidy := by
  intro a ha
  cases ph with
  | null => simp [h.2] at ha
  | held =>
    obtain ⟨p, _, hp, hlive⟩ := h
    rw [hlive, Set.mem_singleton_iff] at ha
    rw [hp, ha]
  | stale =>
    obtain ⟨p, _, _, hlive⟩ := h
    simp [hlive] at ha

/-- Using or freeing the object faults in the stale phase and only there. -/
theorem InPhase.faults_iff {s : State} {ph : Phase} (h : InPhase s ph) {e : Event} :
    s.Faults e ↔ (e = .use ∨ e = .release) ∧ ph = .stale := by
  refine and_congr_right fun _ => ?_
  cases ph with
  | null => simp [h.1]
  | held =>
    obtain ⟨p, _, hp, hlive⟩ := h
    simp [hp, hlive]
  | stale =>
    obtain ⟨p, _, hp, hlive⟩ := h
    simp [hp, hlive]

/-- A legal event moves to the next phase of the protocol. -/
theorem InPhase.after {s : State} {ph : Phase} {e : Event} (h : InPhase s ph)
    (hlegal : ph.legal e) : InPhase (s.after e) (ph.next e) := by
  cases e with
  | idle => exact h
  | use => exact h
  | release =>
    cases ph with
    | null => exact ⟨h.1, by simp [State.after, h.2]⟩
    | held =>
      obtain ⟨p, hlt, hp, hlive⟩ := h
      exact ⟨p, hlt, hp, by simp [State.after, hp, hlive]⟩
    | stale => exact absurd rfl hlegal
  | create c =>
    have hempty : s.live = ∅ := by
      cases ph with
      | null => exact h.2
      | held => exact absurd rfl hlegal.1
      | stale => exact h.choose_spec.2.2
    cases c with
    | null => exact ⟨rfl, hempty⟩
    | undone => exact ⟨rfl, hempty⟩
    | leaked => exact absurd rfl hlegal.2
    | dead => exact ⟨s.next, Nat.lt_succ_self _, rfl, hempty⟩
    | held => exact ⟨s.next, Nat.lt_succ_self _, rfl, by simp [State.after, hempty]⟩

/-- A constructor that the protocol forbids loses an object: one that is live
stays live, and the pointer names another or none. -/
theorem InPhase.not_tidy_create {s : State} {ph : Phase} {c : Creation} (h : InPhase s ph)
    (hillegal : ¬ph.legal (.create c)) : ¬(s.after (.create c)).Tidy := by
  intro htidy
  by_cases hleak : c = .leaked
  · subst hleak
    have hptr := htidy s.next (Set.mem_insert _ _)
    simp [State.after] at hptr
  · have hheld : ph = .held := by
      by_contra hne
      exact hillegal ⟨hne, hleak⟩
    subst hheld
    obtain ⟨p, hlt, _, hlive⟩ := h
    have hmem : p ∈ (s.after (.create c)).live := by
      cases c <;> simp [State.after, hlive]
    have hptr := htidy p hmem
    cases c with
    | null => simp [State.after] at hptr
    | undone => simp [State.after] at hptr
    | leaked => exact hleak rfl
    | dead =>
      simp only [State.after, Option.some.injEq] at hptr
      omega
    | held =>
      simp only [State.after, Option.some.injEq] at hptr
      omega

/-- A machine refines the pointer machine: each input acts on the pointer as one
event, and the machine `touches` a freed object exactly where the pointer machine
does. Constructors always complete; other inputs may end the run for reasons of
their own. -/
structure Refines {σ ι ε : Type*} (step : σ → ι → Except ε σ) (touches : σ → ι → Prop)
    (abs : σ → State) (event : ι → Event) : Prop where
  /-- Freed objects are touched where the pointer machine touches them. -/
  faults : ∀ s i, touches s i ↔ (abs s).Faults (event i)
  /-- Completed steps are the pointer machine's. -/
  moves : ∀ s i s', step s i = .ok s' → abs s' = (abs s).after (event i)
  /-- Constructors complete. -/
  creates : ∀ s i c, event i = .create c → ∃ s', step s i = .ok s'

variable {σ ι ε : Type*} {step : σ → ι → Except ε σ} {touches : σ → ι → Prop} {abs : σ → State}
  {event : ι → Event}

/-- A machine refines the pointer machine when each kind of input does: constructors and
releases are described in full, and the others leave the pointer alone. -/
theorem Refines.of_steps
    (hfaults : ∀ s i, touches s i ↔ (abs s).Faults (event i))
    (hcreate : ∀ s i c, event i = .create c →
      ∃ s', step s i = .ok s' ∧ abs s' = (abs s).after (.create c))
    (hrelease : ∀ s i s', event i = .release → step s i = .ok s' →
      abs s' = (abs s).after .release)
    (hkeep : ∀ s i s', event i = .use ∨ event i = .idle → step s i = .ok s' → abs s' = abs s) :
    Refines step touches abs event where
  faults := hfaults
  moves s i s' hs := by
    cases hi : event i with
    | idle => exact hkeep s i s' (.inr hi) hs
    | use => exact hkeep s i s' (.inl hi) hs
    | release => exact hrelease s i s' hi hs
    | create c =>
      obtain ⟨s1, hs1, habs⟩ := hcreate s i c hi
      rw [hs1] at hs
      cases hs
      exact habs
  creates s i c hi := by
    obtain ⟨s', hs', _⟩ := hcreate s i c hi
    exact ⟨s', hs'⟩

/-- The step touches no freed object, and leaves no object behind that the pointer
does not name. -/
def Safe (step : σ → ι → Except ε σ) (touches : σ → ι → Prop) (abs : σ → State) (s : σ)
    (i : ι) : Prop :=
  ¬touches s i ∧ ∀ s', step s i = .ok s' → (abs s').Tidy

/-- In a refining machine a step is safe precisely when the protocol allows its event. -/
theorem Refines.safe_iff_legal (h : Refines step touches abs event) {s : σ} {ph : Phase} {i : ι}
    (hph : InPhase (abs s) ph) : Safe step touches abs s i ↔ ph.legal (event i) := by
  have hfault := (h.faults s i).trans hph.faults_iff
  constructor
  · rintro ⟨hfree, htidy⟩
    have hno : ¬((event i = .use ∨ event i = .release) ∧ ph = .stale) :=
      fun hbad => hfree (hfault.mpr hbad)
    cases he : event i with
    | idle => trivial
    | use => exact fun hst => hno ⟨Or.inl he, hst⟩
    | release => exact fun hst => hno ⟨Or.inr he, hst⟩
    | create c =>
      obtain ⟨s', hs'⟩ := h.creates s i c he
      by_contra hillegal
      refine hph.not_tidy_create hillegal ?_
      rw [← he, ← h.moves s i s' hs']
      exact htidy s' hs'
  · intro hlegal
    constructor
    · intro hbad
      obtain ⟨huse, hst⟩ := hfault.mp hbad
      rcases huse with huse | huse <;> rw [huse] at hlegal <;> exact hlegal hst
    · intro s' hs'
      rw [h.moves s i s' hs']
      exact (hph.after hlegal).tidy

/-- The safe runs of a refining machine are exactly the runs that keep to the
phase protocol. -/
theorem Refines.safe_iff_follows (h : Refines step touches abs event) {s : σ} {ph : Phase}
    (hph : InPhase (abs s) ph) (is : List ι) :
    Runs.Always step (Safe step touches abs) s is ↔
      Runs.Follows step (fun ph i => ph.next (event i)) (fun ph i => ph.legal (event i))
        ph s is := by
  refine Runs.always_iff_follows (R := fun s ph => InPhase (abs s) ph) ?_ ?_ hph is
  · intro s ph i hR
    exact h.safe_iff_legal hR
  · intro s ph i s' hR hlegal hs
    rw [h.moves s i s' hs]
    exact hR.after hlegal

end Slot
