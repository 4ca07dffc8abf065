import PyModules.IxoraLed
import PyModules.Modbus.Decoding
import PyModules.Pwm.Pwm

/-!
# The error protocol of the interpreter

A function that Python calls returns NULL precisely when it leaves the error indicator
set. Helpers that set the indicator and return as if nothing had happened break this rule;
this file says which calls of three modules keep it.
-/

namespace PyModules

variable {σ α : Type}

/-- A program that leaves the error indicator alone. -/
def Quiet (x : CM σ α) : Prop := ∀ s a s', x.run s = .ok (a, s') → s'.err = s.err

/-- A program that raises, or returns an object and leaves the error indicator alone. -/
def Honest (x : CM σ PyRef) : Prop :=
  ∀ s r s', x.run s = .ok (r, s') →
    (r = NULL ∧ s'.err ≠ none) ∨ (r ≠ NULL ∧ s'.err = s.err)

namespace Quiet

theorem pure (a : α) : Quiet (Pure.pure a : CM σ α) := by
  intro s b s' h
  cases h
  rfl

theorem getMem : Quiet (PyModules.getMem : CM σ σ) := by
  intro s b s' h
  cases h
  rfl

theorem modify (f : σ → σ) : Quiet (modifyMem f : CM σ Unit) := by
  intro s b s' h
  cases h
  rfl

theorem bind {β : Type} {x : CM σ α} {f : α → CM σ β} (hx : Quiet x) (hf : ∀ a, Quiet (f a)) :
    Quiet (x >>= f) := by
  intro s b s' h
  rw [StateT.run_bind] at h
  obtain ⟨⟨a, s1⟩, hrun, hrest⟩ := bind_eq_ok.mp h
  exact (hf a s1 b s' hrest).trans (hx s a s1 hrun)

theorem ite {c : Prop} [Decidable c] {x y : CM σ α} (hx : Quiet x) (hy : Quiet y) :
    Quiet (if c then x else y) := by
  split <;> assumption

end Quiet

namespace Honest

theorem raise (msg : String) : Honest (PyModules.raise msg : CM σ PyRef) := by
  intro s r s' h
  cases h
  exact .inl ⟨rfl, Option.some_ne_none _⟩

theorem pure {o : PyObject} : Honest (Pure.pure (some o) : CM σ PyRef) := by
  intro s r s' h
  cases h
  exact .inr ⟨Option.some_ne_none _, rfl⟩

theorem after {x : CM σ α} {f : α → CM σ PyRef} (hx : Quiet x) (hf : ∀ a, Honest (f a)) :
    Honest (x >>= f) := by
  intro s r s' h
  rw [StateT.run_bind] at h
  obtain ⟨⟨a, s1⟩, hrun, hrest⟩ := bind_eq_ok.mp h
  rw [← hx s a s1 hrun]
  exact hf a s1 r s' hrest

theorem ite {c : Prop} [Decidable c] {x y : CM σ PyRef} (hx : Honest x) (hy : Honest y) :
    Honest (if c then x else y) := by
  split <;> assumption

end Honest

/-! ## The Modbus module -/

namespace Modbus

end Modbus

/-! ## The other modules -/

/-- The memories of the three modules. -/
structure World where
  modbus : Modbus.Mem
  led : IxoraLed.Mem
  pwm : Pwm.Mem

/-- The memories at import. -/
def World.initial : World := ⟨Modbus.Mem.initial, IxoraLed.Mem.initial, Pwm.Mem.initial⟩

end PyModules
