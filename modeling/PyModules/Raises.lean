import PyModules.ErrorProtocol
import PyModules.Stdio

/-!
# Functions that raise the exception of their module

A function that raises the exception of its module and no other does so by its parts: the
parts leave the error indicator alone, or they signal that they have raised, and the function
returns NULL at once.
-/

namespace PyModules

variable {σ α : Type}

/-- An object and no exception, or NULL and the exception of the module. -/
def ReturnsOwn (r : PyRef) (err : Option PyErr) : Prop :=
  r ≠ NULL ∧ err = none ∨ r = NULL ∧ ∃ msg, err = some ⟨.module, msg⟩

/-- Called with the error indicator clear, the program returns in one of these two ways. -/
def RaisesOwn (x : CM σ PyRef) : Prop :=
  ∀ mem r s', x.run ⟨none, mem⟩ = .ok (r, s') → ReturnsOwn r s'.err

theorem Quiet.fault (f : Fault) : Quiet (PyModules.fault f : CM σ α) := by
  intro s a s' h
  cases h

namespace RaisesOwn

theorem raise (msg : String) : RaisesOwn (PyModules.raise msg : CM σ PyRef) := by
  intro mem r s' h
  cases h
  exact .inr ⟨rfl, msg, rfl⟩

theorem pure {o : PyObject} : RaisesOwn (Pure.pure (some o) : CM σ PyRef) := by
  intro mem r s' h
  cases h
  exact .inl ⟨Option.some_ne_none _, rfl⟩

theorem fault (f : Fault) : RaisesOwn (PyModules.fault f : CM σ PyRef) := by
  intro mem r s' h
  cases h

theorem after {x : CM σ α} {f : α → CM σ PyRef} (hx : Quiet x) (hf : ∀ a, RaisesOwn (f a)) :
    RaisesOwn (x >>= f) := by
  intro mem r s' h
  rw [StateT.run_bind] at h
  obtain ⟨⟨a, s1⟩, hrun, hrest⟩ := bind_eq_ok.mp h
  have herr : s1.err = none := hx _ a s1 hrun
  obtain ⟨err, mem1⟩ := s1
  cases herr
  exact hf a mem1 r s' hrest

theorem ite {c : Prop} [Decidable c] {x y : CM σ PyRef} (hx : RaisesOwn x) (hy : RaisesOwn y) :
    RaisesOwn (if c then x else y) := by
  split <;> assumption

end RaisesOwn

end PyModules
