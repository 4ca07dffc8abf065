import Mathlib.Tactic.Common

/-!
# Programs on a larger state

A model may be given more state than it had, for data that its first version left out. A program
on the larger states projects to one on the smaller if it does the same on the part they share;
what was proved of the smaller one then holds of the larger. The rules follow the structure of
the program, and a program on the part that is shared may run inside the larger one as it is.
-/

universe u

variable {σ τ α β : Type u} {ε : Type*}

/-- A program on the states `τ` does what another does on the part of them that `view` shows. -/
def Projects (view : τ → σ) (x : StateT τ (Except ε) α) (y : StateT σ (Except ε) α) : Prop :=
  ∀ t, (x.run t).map (fun r => (r.1, view r.2)) = y.run (view t)

namespace Projects

variable {view : τ → σ} {put : σ → τ → τ} {x : StateT τ (Except ε) α} {y : StateT σ (Except ε) α}

/-- A program on the part that is shown, run inside a larger one. -/
def inside (view : τ → σ) (put : σ → τ → τ) (y : StateT σ (Except ε) α) :
    StateT τ (Except ε) α :=
  fun t => (y.run (view t)).map fun r => (r.1, put r.2 t)

/-- A program projects to the one that runs inside it. -/
theorem of_inside (hput : ∀ s t, view (put s t) = s) (y : StateT σ (Except ε) α) :
    Projects view (inside view put y) y := by
  intro t
  change ((y.run (view t)).map _).map _ = _
  cases y.run (view t) with
  | error e => rfl
  | ok r =>
    change Except.ok (r.1, view (put r.2 t)) = _
    rw [hput]

/-- A result alone projects to itself. -/
theorem pure (a : α) : Projects view (Pure.pure a : StateT τ (Except ε) α) (Pure.pure a) :=
  fun _ => rfl

/-- A program that changes only what is not shown projects to its result. -/
theorem hidden {a : α} {f : τ → τ} (hrun : ∀ t, x.run t = .ok (a, f t))
    (hview : ∀ t, view (f t) = view t) : Projects view x (Pure.pure a) := by
  intro t
  rw [hrun]
  change Except.ok (a, view (f t)) = .ok (a, view t)
  rw [hview]

/-- A sequence projects part by part. -/
theorem bind {f : α → StateT τ (Except ε) β} {g : α → StateT σ (Except ε) β}
    (hx : Projects view x y) (hf : ∀ a, Projects view (f a) (g a)) :
    Projects view (x >>= f) (y >>= g) := by
  intro t
  rw [StateT.run_bind, StateT.run_bind, ← hx t]
  cases x.run t with
  | error e => rfl
  | ok r => exact hf r.1 r.2

/-- What is only done to the part that is not shown may be left out. -/
theorem bind_hidden {f : α → StateT τ (Except ε) β} {z : StateT σ (Except ε) β} {a : α}
    (hx : Projects view x (Pure.pure a)) (hf : Projects view (f a) z) :
    Projects view (x >>= f) z := by
  intro t
  have hfirst := hx t
  rw [StateT.run_bind]
  cases hrun : x.run t with
  | error e =>
    rw [hrun] at hfirst
    cases hfirst
  | ok r =>
    rw [hrun] at hfirst
    obtain ⟨rfl, hview⟩ := Prod.mk.inj (Except.ok.inj hfirst)
    have hrest := hf r.2
    rw [hview] at hrest
    exact hrest

/-- A choice projects side by side. -/
theorem ite {c : Prop} [Decidable c] {x' : StateT τ (Except ε) α} {y' : StateT σ (Except ε) α}
    (hx : Projects view x y) (hx' : Projects view x' y') :
    Projects view (if c then x else x') (if c then y else y') := by
  split
  · exact hx
  · exact hx'

/-- A run that ends well is a run of the program it projects to. -/
theorem run_ok (h : Projects view x y) {t t' : τ} {a : α} (hrun : x.run t = .ok (a, t')) :
    y.run (view t) = .ok (a, view t') := by
  rw [← h t, hrun]
  rfl

end Projects
