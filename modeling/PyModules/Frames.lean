import PyModules.Runtime

/-!
# What a call leaves alone

A frame is a relation between memories that a call keeps, together with the one
reason for which the call may touch freed memory. Frames pass through the structure
of a program, so that only the primitive operations need a look.
-/

namespace PyModules

variable {σ α β : Type}

/-- A relation that can be a frame: it may be kept any number of times, and the reason
to touch freed memory was there before. -/
class IsFrame (R : σ → σ → Prop) (bad : σ → Prop) : Prop where
  refl : ∀ m, R m m
  trans : ∀ m m' m'', R m m' → R m' m'' → R m m''
  back : ∀ m m', R m m' → bad m' → bad m

/-- The program keeps the relation, and touches freed memory for the given reason only. -/
structure Frames (R : σ → σ → Prop) (bad : σ → Prop) (x : CM σ α) : Prop where
  keeps : ∀ s a s', x.run s = .ok (a, s') → R s.mem s'.mem
  freed : ∀ s, x.run s = .error .useAfterFree → bad s.mem

namespace Frames

variable {R : σ → σ → Prop} {bad : σ → Prop}

/-- Nothing a sequence does escapes the frame of its parts. -/
theorem bind [IsFrame R bad] {x : CM σ α} {f : α → CM σ β} (hx : Frames R bad x)
    (hf : ∀ a, Frames R bad (f a)) : Frames R bad (x >>= f) where
  keeps s b s' h := by
    rw [StateT.run_bind] at h
    obtain ⟨r, hrun, hrest⟩ := bind_eq_ok.mp h
    exact IsFrame.trans bad _ _ _ (hx.keeps s r.1 r.2 hrun) ((hf r.1).keeps r.2 b s' hrest)
  freed s h := by
    rw [StateT.run_bind] at h
    cases hrun : x.run s with
    | error e =>
      rw [hrun, error_bind] at h
      cases h
      exact hx.freed s hrun
    | ok r =>
      rw [hrun, ok_bind] at h
      exact IsFrame.back _ _ (hx.keeps s r.1 r.2 hrun) ((hf r.1).freed r.2 h)

/-- A choice is framed by both sides. -/
theorem ite {c : Prop} [Decidable c] {x y : CM σ α} (hx : Frames R bad x)
    (hy : Frames R bad y) : Frames R bad (if c then x else y) := by
  split <;> assumption

/-- A program that returns without changing the memory is framed. -/
theorem of_ok [IsFrame R bad] {x : CM σ α}
    (h : ∀ s, ∃ a s', x.run s = .ok (a, s') ∧ s'.mem = s.mem) : Frames R bad x where
  keeps s a s' hrun := by
    obtain ⟨b, s1, hok, hmem⟩ := h s
    rw [hok] at hrun
    cases hrun
    rw [hmem]
    exact IsFrame.refl bad _
  freed s hrun := by
    obtain ⟨b, s1, hok, _⟩ := h s
    rw [hok] at hrun
    cases hrun

theorem pure [IsFrame R bad] (a : α) : Frames R bad (Pure.pure a : CM σ α) :=
  of_ok fun s => ⟨a, s, rfl, rfl⟩

theorem getMem [IsFrame R bad] : Frames R bad (PyModules.getMem : CM σ σ) :=
  of_ok fun s => ⟨s.mem, s, rfl, rfl⟩

theorem pyErrSet [IsFrame R bad] (exc : PyExc) (msg : String) :
    Frames R bad (PyModules.pyErrSet exc msg : CM σ Unit) :=
  of_ok fun s => ⟨(), ⟨some ⟨exc, msg⟩, s.mem⟩, rfl, rfl⟩

theorem raise [IsFrame R bad] (msg : String) :
    Frames R bad (PyModules.raise msg : CM σ PyRef) :=
  (pyErrSet .module msg).bind fun _ => pure NULL

/-- Failing for another reason than freed memory is harmless. -/
theorem fault {f : Fault} (hf : f ≠ .useAfterFree) :
    Frames R bad (PyModules.fault f : CM σ α) where
  keeps s a s' h := by cases h
  freed s h := by
    cases h
    exact absurd rfl hf

/-- A change of the memory that keeps the relation. -/
theorem modify {f : σ → σ} (hf : ∀ m, R m (f m)) : Frames R bad (modifyMem f : CM σ Unit) where
  keeps s a s' h := by
    cases h
    exact hf s.mem
  freed s h := by cases h

/-- A relation may be weakened. -/
theorem relax {R' : σ → σ → Prop} {x : CM σ α} (hx : Frames R bad x)
    (h : ∀ m m', R m m' → R' m m') : Frames R' bad x :=
  ⟨fun s a s' hrun => h _ _ (hx.keeps s a s' hrun), hx.freed⟩

/-- A reason may be weakened. -/
theorem mono {bad' : σ → Prop} {x : CM σ α} (hx : Frames R bad x) (h : ∀ m, bad m → bad' m) :
    Frames R bad' x :=
  ⟨hx.keeps, fun s hrun => h _ (hx.freed s hrun)⟩

/-- A program that first looks at a part of the memory, such as a static pointer, may use
what it found there as a reason. -/
theorem onPointer {ρ : Type} {ptr : σ → ρ} {x : ρ → CM σ α}
    (h : ∀ o, Frames R (fun m => ptr m = o → bad m) (x o)) :
    Frames R bad (PyModules.getMem >>= fun m => x (ptr m)) where
  keeps s a s' hrun := (h (ptr s.mem)).keeps s a s' hrun
  freed s hrun := (h (ptr s.mem)).freed s hrun rfl

end Frames

end PyModules
