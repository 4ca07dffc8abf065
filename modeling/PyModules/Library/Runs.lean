import Mathlib.Data.List.Basic

/-!
# Runs of a machine that can fault

A machine takes one input at a time and either moves to a new state or faults,
which ends the run. The properties here are judged at every step a run executes,
so a property may speak about the state before the step, the input, and what the
step does. The rules reduce a property of all runs to one step lemma, and compare
it with a protocol that sees the inputs only.
-/

namespace Runs

variable {σ ι ε τ : Type*}

/-- `Q` holds at every executed step of the run of `step` on the given inputs. -/
def Always (step : σ → ι → Except ε σ) (Q : σ → ι → Prop) : σ → List ι → Prop
  | _, [] => True
  | s, i :: is => Q s i ∧ ∀ s', step s i = .ok s' → Always step Q s' is

/-- The state after a run, unless it faults. -/
def after (step : σ → ι → Except ε σ) (s : σ) (is : List ι) : Except ε σ := is.foldlM step s

/-- What holds along a run holds at its last step. -/
theorem Always.at_end {step : σ → ι → Except ε σ} {Q : σ → ι → Prop} {is : List ι} {i : ι}
    {s s' : σ} (h : Always step Q s (is ++ [i])) (hs : after step s is = .ok s') : Q s' i := by
  induction is generalizing s with
  | nil =>
    cases hs
    exact h.1
  | cons j is ih =>
    rw [after, List.foldlM_cons] at hs
    cases hj : step s j with
    | error e =>
      rw [hj] at hs
      cases hs
    | ok s1 =>
      rw [hj] at hs
      exact ih (h.2 s1 hj) hs

/-- The run keeps to a protocol: an automaton with states `τ` reads the inputs and
finds each executed one `legal`. The machine decides only where the run ends. -/
def Follows (step : σ → ι → Except ε σ) (next : τ → ι → τ) (legal : τ → ι → Prop) :
    τ → σ → List ι → Prop
  | _, _, [] => True
  | t, s, i :: is =>
    legal t i ∧ ∀ s', step s i = .ok s' → Follows step next legal (next t i) s' is

/-- The protocol automaton alone accepts a list of inputs. -/
def Accepts (next : τ → ι → τ) (legal : τ → ι → Prop) : τ → List ι → Prop
  | _, [] => True
  | t, i :: is => legal t i ∧ Accepts next legal (next t i) is

instance Accepts.decidable (next : τ → ι → τ) (legal : τ → ι → Prop)
    [∀ t i, Decidable (legal t i)] : ∀ (t : τ) (is : List ι), Decidable (Accepts next legal t is)
  | _, [] => .isTrue trivial
  | t, i :: is =>
    have := Accepts.decidable next legal (next t i) is
    inferInstanceAs (Decidable (legal t i ∧ Accepts next legal (next t i) is))

/-- The automaton accepts two lists of inputs one after the other. -/
theorem accepts_append {next : τ → ι → τ} {legal : τ → ι → Prop} {t : τ} {is js : List ι} :
    Accepts next legal t (is ++ js) ↔
      Accepts next legal t is ∧ Accepts next legal (is.foldl next t) js := by
  induction is generalizing t with
  | nil => exact (true_and _).to_iff.symm
  | cons i is ih =>
    rw [List.cons_append, List.foldl_cons]
    exact (and_congr_right fun _ => ih).trans and_assoc.symm

/-- A machine whose steps follow an automaton on legal inputs ends where the automaton does. -/
theorem Accepts.after {step : σ → ι → Except ε σ} {next : τ → ι → τ} {legal : τ → ι → Prop}
    {R : σ → τ → Prop}
    (hnext : ∀ s t i s', R s t → legal t i → step s i = .ok s' → R s' (next t i))
    {is : List ι} {s s' : σ} {t : τ} (h : Accepts next legal t is) (hR : R s t)
    (hafter : Runs.after step s is = .ok s') : R s' (is.foldl next t) := by
  induction is generalizing s t with
  | nil =>
    cases hafter
    exact hR
  | cons i is ih =>
    obtain ⟨hlegal, hrest⟩ := h
    rw [Runs.after, List.foldlM_cons] at hafter
    cases hstep : step s i with
    | error e =>
      rw [hstep] at hafter
      cases hafter
    | ok s1 =>
      rw [hstep] at hafter
      exact ih hrest (hnext s t i s1 hR hlegal hstep) hafter

/-- The exactness rule for protocols. If on related states a step has property `Q`
precisely when the protocol allows its input, and allowed steps keep the states
related, then the runs with property `Q` are the runs that keep to the protocol. -/
theorem always_iff_follows {step : σ → ι → Except ε σ} {next : τ → ι → τ}
    {legal : τ → ι → Prop} {Q : σ → ι → Prop} {R : σ → τ → Prop}
    (hlegal : ∀ s t i, R s t → (Q s i ↔ legal t i))
    (hnext : ∀ s t i s', R s t → legal t i → step s i = .ok s' → R s' (next t i))
    {s : σ} {t : τ} (hR : R s t) (is : List ι) :
    Always step Q s is ↔ Follows step next legal t s is := by
  induction is generalizing s t with
  | nil => exact Iff.rfl
  | cons i is ih =>
    constructor
    · rintro ⟨hQ, hrest⟩
      have hl := (hlegal s t i hR).mp hQ
      exact ⟨hl, fun s' hs => (ih (hnext s t i s' hR hl hs)).mp (hrest s' hs)⟩
    · rintro ⟨hl, hrest⟩
      exact ⟨(hlegal s t i hR).mpr hl,
        fun s' hs => (ih (hnext s t i s' hR hl hs)).mpr (hrest s' hs)⟩

/-- The exactness rule for protocols on inputs that fit. Where fitting inputs never make the
machine fault and keep the states related, the property and the protocol may be compared
along the inputs alone. -/
theorem always_iff_accepts {step : σ → ι → Except ε σ} {next : τ → ι → τ}
    {legal fits : τ → ι → Prop} {Q : σ → ι → Prop} {R : σ → τ → Prop}
    (hlegal : ∀ s t i, R s t → fits t i → (Q s i ↔ legal t i))
    (hnext : ∀ s t i, R s t → fits t i → ∃ s', step s i = .ok s' ∧ R s' (next t i))
    {s : σ} {t : τ} (hR : R s t) {is : List ι} (hfits : Accepts next fits t is) :
    Always step Q s is ↔ Accepts next legal t is := by
  induction is generalizing s t with
  | nil => exact Iff.rfl
  | cons i is ih =>
    obtain ⟨hfit, hrest⟩ := hfits
    obtain ⟨s', hstep, hR'⟩ := hnext s t i hR hfit
    refine and_congr (hlegal s t i hR hfit) ⟨fun h => ?_, fun h s1 hs1 => ?_⟩
    · exact (ih hR' hrest).mp (h s' hstep)
    · rw [hstep] at hs1
      cases hs1
      exact (ih hR' hrest).mpr h

/-- The exactness rule for conditions on the state before a step: under an
invariant that the condition keeps, the two properties hold of the same runs. -/
theorem always_iff_always {step : σ → ι → Except ε σ} {Q C : σ → ι → Prop} {I : σ → Prop}
    (hiff : ∀ s i, I s → (Q s i ↔ C s i))
    (hkeep : ∀ s i s', I s → C s i → step s i = .ok s' → I s')
    {s : σ} (hs : I s) (is : List ι) : Always step Q s is ↔ Always step C s is := by
  induction is generalizing s with
  | nil => exact Iff.rfl
  | cons i is ih =>
    constructor
    · rintro ⟨hQ, hrest⟩
      have hC := (hiff s i hs).mp hQ
      exact ⟨hC, fun s' h => (ih (hkeep s i s' hs hC h)).mp (hrest s' h)⟩
    · rintro ⟨hC, hrest⟩
      exact ⟨(hiff s i hs).mpr hC, fun s' h => (ih (hkeep s i s' hs hC h)).mpr (hrest s' h)⟩

/-- The exactness rule under an assumption about the run: along runs that keep to it, and under
an invariant that such runs keep, the two properties hold together. -/
theorem always_iff_always_of {step : σ → ι → Except ε σ} {A Q C : σ → ι → Prop} {I : σ → Prop}
    (hiff : ∀ s i, I s → A s i → (Q s i ↔ C s i))
    (hkeep : ∀ s i s', I s → A s i → step s i = .ok s' → I s')
    {s : σ} (hs : I s) {is : List ι} (hA : Always step A s is) :
    Always step Q s is ↔ Always step C s is := by
  induction is generalizing s with
  | nil => exact Iff.rfl
  | cons i is ih =>
    obtain ⟨hfirst, hrest⟩ := hA
    refine and_congr (hiff s i hs hfirst) (forall_congr' fun s' => ?_)
    exact forall_congr' fun h => ih (hkeep s i s' hs hfirst h) (hrest s' h)

/-- Properties that agree on the inputs of a run hold of it together. -/
theorem always_congr {step : σ → ι → Except ε σ} {Q C : σ → ι → Prop} {is : List ι}
    (h : ∀ s, ∀ i ∈ is, Q s i ↔ C s i) (s : σ) : Always step Q s is ↔ Always step C s is := by
  induction is generalizing s with
  | nil => exact Iff.rfl
  | cons i is ih =>
    have hrest := ih fun s j hj => h s j (List.mem_cons_of_mem i hj)
    exact and_congr (h s i List.mem_cons_self)
      (forall_congr' fun s' => imp_congr_right fun _ => hrest s')

/-- A property that depends on the inputs alone, and keeps the machine from faulting, holds
along a run if it holds of every input. -/
theorem always_iff_forall {step : σ → ι → Except ε σ} {Q : σ → ι → Prop} {P : ι → Prop}
    (hiff : ∀ s i, Q s i ↔ P i) (hruns : ∀ s i, P i → ∃ s', step s i = .ok s') (s : σ)
    (is : List ι) : Always step Q s is ↔ ∀ i ∈ is, P i := by
  induction is generalizing s with
  | nil => simp [Always]
  | cons i is ih =>
    rw [List.forall_mem_cons]
    constructor
    · rintro ⟨hQ, hrest⟩
      have hP := (hiff s i).mp hQ
      obtain ⟨s', hstep⟩ := hruns s i hP
      exact ⟨hP, (ih s').mp (hrest s' hstep)⟩
    · rintro ⟨hP, hrest⟩
      exact ⟨(hiff s i).mpr hP, fun s' _ => (ih s').mpr hrest⟩

/-- What every step of a run does, in a relation that composes, the whole run does. -/
theorem Always.whole {step : σ → ι → Except ε σ} {R : σ → σ → Prop} (hrefl : ∀ s, R s s)
    (htrans : ∀ s s' s'', R s s' → R s' s'' → R s s'') {s : σ} {is : List ι}
    (h : Always step (fun s i => ∃ s', step s i = .ok s' ∧ R s s') s is) :
    ∃ s', after step s is = .ok s' ∧ R s s' := by
  induction is generalizing s with
  | nil => exact ⟨s, rfl, hrefl s⟩
  | cons i is ih =>
    obtain ⟨⟨s1, hstep, hfirst⟩, hrest⟩ := h
    obtain ⟨s2, hafter, hlast⟩ := ih (hrest s1 hstep)
    refine ⟨s2, ?_, htrans _ _ _ hfirst hlast⟩
    rw [after, List.foldlM_cons, hstep]
    exact hafter

/-- A weaker property of each step is a weaker property of the run. -/
theorem Always.mono {step : σ → ι → Except ε σ} {Q Q' : σ → ι → Prop}
    (h : ∀ s i, Q s i → Q' s i) {s : σ} {is : List ι} (hQ : Always step Q s is) :
    Always step Q' s is := by
  induction is generalizing s with
  | nil => trivial
  | cons i is ih => exact ⟨h s i hQ.1, fun s' hs => ih (hQ.2 s' hs)⟩

end Runs
