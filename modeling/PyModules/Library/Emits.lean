import Mathlib.Data.List.Basic

/-!
# Programs that emit operations

A program in a state that keeps a log of the operations it makes. What the program adds to
the log is described together with its result, and the descriptions compose: the rules
follow the structure of the program, so that a loop needs one induction and a primitive
operation one look.
-/

universe u

variable {σ α β : Type u} {ε ω ι ο : Type*}

/-- Under an invariant that it keeps, the program adds operations to the log that are right
for its result. -/
def Emits (inv : σ → Prop) (log : σ → List ω) (x : StateT σ (Except ε) α)
    (G : α → List ω → Prop) : Prop :=
  ∀ s a s', inv s → x.run s = .ok (a, s') →
    inv s' ∧ ∃ ops, log s' = log s ++ ops ∧ G a ops

namespace Emits

variable {inv : σ → Prop} {log : σ → List ω} {x : StateT σ (Except ε) α} {G H : α → List ω → Prop}

/-- A description may be weakened. -/
theorem mono (h : Emits inv log x G) (hGH : ∀ a ops, G a ops → H a ops) :
    Emits inv log x H := by
  intro s a s' hs hrun
  obtain ⟨hs', ops, hlog, hG⟩ := h s a s' hs hrun
  exact ⟨hs', ops, hlog, hGH a ops hG⟩

/-- A result alone adds nothing. -/
theorem pure {a : α} (h : G a []) : Emits inv log (Pure.pure a : StateT σ (Except ε) α) G := by
  intro s b s' hs hrun
  cases hrun
  exact ⟨hs, [], (List.append_nil _).symm, h⟩

/-- A sequence adds what its parts add, in their order. -/
theorem bind {f : α → StateT σ (Except ε) β} {G' : β → List ω → Prop} (hx : Emits inv log x G)
    (hf : ∀ a ops, G a ops → Emits inv log (f a) fun b ops' => G' b (ops ++ ops')) :
    Emits inv log (x >>= f) G' := by
  intro s b s' hs hrun
  rw [StateT.run_bind] at hrun
  cases hfirst : x.run s with
  | error e =>
    rw [hfirst] at hrun
    cases hrun
  | ok r =>
    rw [hfirst] at hrun
    obtain ⟨hs1, ops, hlog, hG⟩ := hx s r.1 r.2 hs hfirst
    obtain ⟨hs', ops', hlog', hG'⟩ := hf r.1 ops hG r.2 b s' hs1 hrun
    exact ⟨hs', ops ++ ops', by rw [hlog', hlog, List.append_assoc], hG'⟩

/-- A choice is described on each side under its condition. -/
theorem ite {c : Prop} [Decidable c] {y : StateT σ (Except ε) α} (hx : c → Emits inv log x G)
    (hy : ¬c → Emits inv log y G) : Emits inv log (if c then x else y) G := by
  split
  · exact hx ‹_›
  · exact hy ‹_›

/-- A program that leaves the log and the invariant alone adds nothing. -/
theorem quiet (h : ∀ s a s', x.run s = .ok (a, s') → log s' = log s ∧ (inv s → inv s') ∧ G a []) :
    Emits inv log x G := by
  intro s a s' hs hrun
  obtain ⟨hlog, hinv, hG⟩ := h s a s' hrun
  exact ⟨hinv hs, [], by rw [hlog, List.append_nil], hG⟩

/-- A machine that answers its inputs one after the other: the answers, and the state after
them. -/
def answers (exec : σ → ι → Except ε (ο × σ)) : σ → List ι → Except ε (List ο × σ)
  | s, [] => .ok ([], s)
  | s, i :: is =>
    (exec s i).bind fun r => (answers exec r.2 is).map fun rest => (r.1 :: rest.1, rest.2)

/-- What the machine does first, and what it does then. -/
theorem answers_cons_eq_ok {exec : σ → ι → Except ε (ο × σ)} {s s' : σ} {i : ι} {is : List ι}
    {os : List ο} :
    answers exec s (i :: is) = .ok (os, s') ↔
      ∃ o s1 rest, exec s i = .ok (o, s1) ∧ answers exec s1 is = .ok (rest, s') ∧
        os = o :: rest := by
  rw [answers]
  cases hfirst : exec s i with
  | error e => simp [Except.bind]
  | ok r =>
    obtain ⟨o, s1⟩ := r
    cases hrest : answers exec s1 is with
    | error e => simp [Except.bind, Except.map, hrest]
    | ok rest => simp [Except.bind, Except.map, hrest, Prod.ext_iff, eq_comm, and_comm]

/-- The operations of a run in parts, one for each input and its answer: each part is right
for them and for the state of an automaton that follows the inputs and the answers. -/
inductive Parts {τ : Type*} (next : τ → ι → ο → τ) (G : τ → ι → ο → List ω → Prop) :
    τ → List (ι × ο) → List (List ω) → Prop
  | nil {t : τ} : Parts next G t [] []
  | cons {t : τ} {i : ι} {o : ο} {ops : List ω} {ios : List (ι × ο)} {parts : List (List ω)}
      (h : G t i o ops) (hrest : Parts next G (next t i o) ios parts) :
      Parts next G t ((i, o) :: ios) (ops :: parts)

/-- If each answer of a machine comes with operations that are right for it, in a state that
the automaton knows, then what a run adds to the log falls into parts. -/
theorem of_answers {τ : Type*} {exec : σ → ι → Except ε (ο × σ)} {log : σ → List ω}
    {next : τ → ι → ο → τ} {G : τ → ι → ο → List ω → Prop} {R : σ → τ → Prop}
    (h : ∀ s t i o s', R s t → exec s i = .ok (o, s') →
      R s' (next t i o) ∧ ∃ ops, log s' = log s ++ ops ∧ G t i o ops)
    {s s' : σ} {t : τ} (hR : R s t) {is : List ι} {os : List ο}
    (hrun : answers exec s is = .ok (os, s')) :
    ∃ parts, Parts next G t (is.zip os) parts ∧ os.length = is.length ∧
      log s' = log s ++ parts.flatten := by
  induction is generalizing s t os with
  | nil =>
    cases hrun
    exact ⟨[], .nil, rfl, (List.append_nil _).symm⟩
  | cons i is ih =>
    obtain ⟨o, s1, rest, hfirst, hrest, rfl⟩ := answers_cons_eq_ok.mp hrun
    obtain ⟨hR1, ops, hlog, hG⟩ := h s t i o s1 hR hfirst
    obtain ⟨parts, hparts, hlength, hlog'⟩ := ih hR1 hrest
    refine ⟨ops :: parts, .cons hG hparts, by rw [List.length_cons, hlength]; rfl, ?_⟩
    rw [hlog', hlog, List.flatten_cons, List.append_assoc]

end Emits
