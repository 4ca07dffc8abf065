import PyModules.Library.Runs

/-!
# Machines side by side

Two machines that share nothing run next to each other, each input being for one of them.
However the inputs are interleaved, a run of the pair is a run of each machine on its own
inputs.
-/

namespace Parallel

variable {σ τ ι κ ε : Type*}

/-- A step of one of two machines. -/
def step (f : σ → ι → Except ε σ) (g : τ → κ → Except ε τ) (s : σ × τ) :
    ι ⊕ κ → Except ε (σ × τ)
  | .inl i => (f s.1 i).map fun s' => (s', s.2)
  | .inr k => (g s.2 k).map fun t' => (s.1, t')

variable {f : σ → ι → Except ε σ} {g : τ → κ → Except ε τ}

end Parallel
