import Mathlib.Tactic.Common

/-!
# What a computation spends

A computation that keeps a log of what it does, or ends without a result. A bound on the
operations it adds to the log is proved along its structure, where it may be split and shared
out like any sum; what a loop saves for later iterations is a term of its bound.
-/

variable {ω α β : Type}

/-- From every log the computation returns `v`, and adds at most `n` operations to the log, all
of them allowed. -/
def Spends (allowed : ω → Prop) (x : StateT (List ω) Option α) (v : α) (n : ℕ) : Prop :=
  ∀ log, ∃ added, x.run log = some (v, added ++ log) ∧ (∀ a ∈ added, allowed a) ∧
    added.length ≤ n

namespace Spends

variable {allowed : ω → Prop} {x : StateT (List ω) Option α} {v : α} {n : ℕ}

/-- A bound may be raised. -/
theorem mono (hx : Spends allowed x v n) {n' : ℕ} (hn : n ≤ n') : Spends allowed x v n' := by
  intro log
  obtain ⟨added, hrun, hadded, hlength⟩ := hx log
  exact ⟨added, hrun, hadded, by omega⟩

/-- A result alone spends nothing. -/
theorem pure (v : α) (n : ℕ) : Spends allowed (Pure.pure v) v n :=
  fun _ => ⟨[], rfl, fun _ ha => absurd ha List.not_mem_nil, Nat.zero_le n⟩

/-- What the first part of a sequence leaves of a bound is for the rest. -/
theorem bind {f : α → StateT (List ω) Option β} {w : β} {total : ℕ}
    (hx : Spends allowed x v n) (hn : n ≤ total) (hf : Spends allowed (f v) w (total - n)) :
    Spends allowed (x >>= f) w total := by
  intro log
  obtain ⟨added, hrun, hadded, hlength⟩ := hx log
  obtain ⟨more, hrest, hmore, hlength'⟩ := hf (added ++ log)
  refine ⟨more ++ added, ?_, ?_, ?_⟩
  · rw [StateT.run_bind, hrun, List.append_assoc]
    exact hrest
  · intro a ha
    rcases List.mem_append.mp ha with ha | ha
    · exact hmore a ha
    · exact hadded a ha
  · rw [List.length_append]
    omega

/-- A single operation. -/
theorem one {a : ω} (ha : allowed a) (hrun : ∀ log, x.run log = some (v, a :: log)) :
    Spends allowed x v 1 := by
  intro log
  refine ⟨[a], hrun log, fun b hb => ?_, Nat.le_refl 1⟩
  rwa [List.mem_singleton.mp hb]

/-- A computation with a log of its own, whose operations are noted down in another. -/
def within {ω' : Type} (note : ω' → ω) (x : StateT (List ω') Option α) :
    StateT (List ω) Option α :=
  fun log => (x.run []).map fun r => (r.1, r.2.map note ++ log)

/-- It spends as much in the other log. -/
theorem of_within {ω' : Type} {note : ω' → ω} {allowed' : ω' → Prop}
    {x : StateT (List ω') Option α} (hx : Spends allowed' x v n)
    (hnote : ∀ a, allowed' a → allowed (note a)) : Spends allowed (within note x) v n := by
  intro log
  obtain ⟨added, hrun, hadded, hlength⟩ := hx []
  refine ⟨added.map note, ?_, ?_, by rwa [List.length_map]⟩
  · change (x.run []).map _ = _
    rw [hrun, List.append_nil]
    rfl
  · intro a ha
    obtain ⟨b, hb, rfl⟩ := List.mem_map.mp ha
    exact hnote b (hadded b hb)

end Spends
