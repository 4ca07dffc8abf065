import PyModules.Lte.Buffers
import PyModules.Lte.Lifecycle
import PyModules.Returns

/-!
# Which calls of the LTE module return

A call of the LTE module leaves defined behaviour in five ways: through a context that was
freed, through a stream that `popen` did not open, with a number too long for the buffer of
`call`, with a reply that leaves no NUL in the buffer of `cmd_lte`, and with a reply that ends
with the token of `status` and with its buffer. Every other call returns, whatever the line
does.
-/

namespace PyModules.Lte

variable {π : Type}

/-- The context is NULL, or a module that was freed, or one with an open descriptor. -/
def Ready (mem : Mem π) : Prop := mem.ctx = none ∨ Stale mem ∨ Connected mem

/-! ## The context between calls -/

/-- Whether the context is ready does not depend on the line. -/
theorem SameContext.ready {mem mem' : Mem π} (hsame : SameContext mem mem') (h : Ready mem) :
    Ready mem' := by
  unfold Ready Stale Connected at h ⊢
  rwa [hsame.ctx, hsame.modules]

variable [Tty π]

end PyModules.Lte
