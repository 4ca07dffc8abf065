import PyModules.Lte.CoraSerial

/-!
# Descriptors and the modules that hold them

A `module_t` holds at most one open descriptor in its field `s`. This file shows
that opening, closing, allocating, and freeing keep the open descriptors equal to
those held, and states what each operation of the serial layer does to a process.
-/

namespace PyModules.Lte

variable {π : Type}

/-! ## Descriptors -/

/-- The module at `a` holds the descriptor `fd`. -/
def Holds (modules : Heap Module) (a fd : ℕ) : Prop :=
  ∃ m, modules.cell a = some m ∧ m.s = some fd

/-- The open descriptors are those that modules hold, each by one module. -/
structure FdsHeld (modules : Heap Module) (fds : Heap Unit) : Prop where
  /-- A descriptor is open precisely when a module holds it. -/
  open_iff : ∀ fd, fd ∈ fds.live ↔ ∃ a, Holds modules a fd
  /-- No two modules hold the same descriptor. -/
  unique : ∀ a b fd, Holds modules a fd → Holds modules b fd → a = b

/-- Only the descriptors held matter. -/
theorem FdsHeld.congr {modules modules' : Heap Module} {fds fds' : Heap Unit}
    (h : FdsHeld modules fds) (hholds : ∀ a fd, Holds modules' a fd ↔ Holds modules a fd)
    (hlive : fds'.live = fds.live) : FdsHeld modules' fds' where
  open_iff fd := by simp only [hlive, h.open_iff, hholds]
  unique a b fd ha hb := h.unique a b fd ((hholds a fd).mp ha) ((hholds b fd).mp hb)

/-- A new module holds no descriptor. -/
theorem holds_alloc {modules : Heap Module} {m : Module} (hm : m.s = none) (a fd : ℕ) :
    Holds (modules.alloc m) a fd ↔ Holds modules a fd := by
  by_cases ha : a = modules.next
  · subst ha
    simp [Holds, hm, modules.fresh _ le_rfl]
  · simp [Holds, Heap.alloc_cell_of_ne _ _ ha]

/-- Assigning `ctx->s` changes the descriptor of that module. -/
theorem holds_modify_self {modules : Heap Module} {p fd : ℕ} {f : Module → Module} {m : Module}
    (hm : modules.cell p = some m) :
    Holds (modules.modify p f) p fd ↔ (f m).s = some fd := by
  simp [Holds, hm]

/-- Assigning `ctx->s` leaves other modules alone. -/
theorem holds_modify_of_ne {modules : Heap Module} {p a : ℕ} (f : Module → Module) (ha : a ≠ p)
    (fd : ℕ) : Holds (modules.modify p f) a fd ↔ Holds modules a fd := by
  simp [Holds, Heap.modify_cell_of_ne _ _ ha]

/-- Assigning other fields leaves the descriptors alone. -/
theorem holds_modify_same {modules : Heap Module} {p : ℕ} {f : Module → Module}
    (hf : ∀ m, (f m).s = m.s) (a fd : ℕ) :
    Holds (modules.modify p f) a fd ↔ Holds modules a fd := by
  by_cases ha : a = p
  · subst ha
    simp [Holds, hf]
  · exact holds_modify_of_ne f ha fd

/-- Freeing a closed module leaves the descriptors alone. -/
theorem holds_free {modules : Heap Module} {p : ℕ} {m : Module}
    (hm : modules.cell p = some m) (hs : m.s = none) (a fd : ℕ) :
    Holds (modules.free p) a fd ↔ Holds modules a fd := by
  by_cases ha : a = p
  · subst ha
    simp [Holds, hm, hs]
  · simp [Holds, Heap.free_cell_of_ne _ ha]

/-- Storing `-1` in a module that holds no descriptor changes nothing. -/
theorem holds_modify_closed {modules : Heap Module} {p : ℕ} {f : Module → Module} {m : Module}
    (hm : modules.cell p = some m) (hs : m.s = none) (hf : (f m).s = none) (a fd : ℕ) :
    Holds (modules.modify p f) a fd ↔ Holds modules a fd := by
  by_cases ha : a = p
  · subst ha
    simp [Holds, hm, hs, hf]
  · exact holds_modify_of_ne f ha fd

/-- A descriptor opened into a module that held none is held by that module. -/
theorem FdsHeld.opened {modules : Heap Module} {fds : Heap Unit} (h : FdsHeld modules fds)
    {p : ℕ} {f : Module → Module} {m : Module} (hm : modules.cell p = some m)
    (hs : m.s = none) (hf : (f m).s = some fds.next) :
    FdsHeld (modules.modify p f) (fds.alloc ()) := by
  have hp : ∀ fd, Holds (modules.modify p f) p fd ↔ fd = fds.next := fun fd => by
    rw [holds_modify_self hm, hf, Option.some.injEq, eq_comm]
  have hother : ∀ a, a ≠ p → ∀ fd, Holds (modules.modify p f) a fd ↔ Holds modules a fd :=
    fun a ha fd => holds_modify_of_ne f ha fd
  have hnone : ∀ fd, ¬Holds modules p fd := fun fd => by simp [Holds, hm, hs]
  have hnew : ∀ a, ¬Holds modules a fds.next := fun a ha => by
    have hlive := (h.open_iff fds.next).mpr ⟨a, ha⟩
    exact absurd (Heap.lt_next_of_mem_live hlive) (Nat.lt_irrefl _)
  constructor
  · intro fd
    rw [Heap.live_alloc, Set.mem_insert_iff, h.open_iff]
    constructor
    · rintro (hfd | ⟨a, ha⟩)
      · exact ⟨p, (hp fd).mpr hfd⟩
      · have hap : a ≠ p := by
          rintro rfl
          exact hnone fd ha
        exact ⟨a, (hother a hap fd).mpr ha⟩
    · rintro ⟨a, ha⟩
      by_cases hap : a = p
      · subst hap
        exact Or.inl ((hp fd).mp ha)
      · exact Or.inr ⟨a, (hother a hap fd).mp ha⟩
  · intro a b fd ha hb
    by_cases hap : a = p <;> by_cases hbp : b = p
    · rw [hap, hbp]
    · subst hap
      rw [(hp fd).mp ha, hother b hbp] at hb
      exact absurd hb (hnew b)
    · subst hbp
      rw [(hp fd).mp hb, hother a hap] at ha
      exact absurd ha (hnew a)
    · exact h.unique a b fd ((hother a hap fd).mp ha) ((hother b hbp fd).mp hb)

/-- Closing the descriptor of a module keeps the rest held. -/
theorem FdsHeld.closed {modules : Heap Module} {fds : Heap Unit} (h : FdsHeld modules fds)
    {p fd : ℕ} {f : Module → Module} {m : Module} (hm : modules.cell p = some m)
    (hs : m.s = some fd) (hf : (f m).s = none) :
    FdsHeld (modules.modify p f) (fds.free fd) := by
  have hp : ∀ fd', ¬Holds (modules.modify p f) p fd' := fun fd' => by
    simp [holds_modify_self hm, hf]
  have hother : ∀ a, a ≠ p → ∀ fd', Holds (modules.modify p f) a fd' ↔ Holds modules a fd' :=
    fun a ha fd' => holds_modify_of_ne f ha fd'
  have hold : ∀ {a fd'}, Holds (modules.modify p f) a fd' → a ≠ p ∧ Holds modules a fd' := by
    intro a fd' ha
    have hap : a ≠ p := by
      rintro rfl
      exact hp fd' ha
    exact ⟨hap, (hother a hap fd').mp ha⟩
  constructor
  · intro fd'
    rw [Heap.live_free, Set.mem_sdiff, Set.mem_singleton_iff, h.open_iff]
    constructor
    · rintro ⟨⟨a, ha⟩, hne⟩
      have hap : a ≠ p := by
        rintro rfl
        obtain ⟨m', hm', hs'⟩ := ha
        rw [hm] at hm'
        cases hm'
        exact hne (Option.some.inj (hs'.symm.trans hs))
      exact ⟨a, (hother a hap fd').mpr ha⟩
    · rintro ⟨a, ha⟩
      obtain ⟨hap, hold⟩ := hold ha
      refine ⟨⟨a, hold⟩, ?_⟩
      rintro rfl
      exact hap (h.unique a p fd' hold ⟨m, hm, hs⟩)
  · intro a b fd' ha hb
    exact h.unique a b fd' (hold ha).2 (hold hb).2

/-! ## The serial layer -/

/-- The process after its modules and descriptors changed. -/
def Mem.withHeaps (mem : Mem π) (modules : Heap Module) (fds : Heap Unit) : Mem π :=
  { mem with modules := modules, fds := fds }

/-- `module_new` refuses an empty device or a zero baud rate before it allocates. -/
theorem moduleNew_refused {device : List UInt8} {baud : ℤ} (h : device = [] ∨ baud = 0)
    (parity : UInt8) (dataBit stopBit : ℤ) (lsusb : Option ℕ) (s : Proc (Mem π)) :
    (moduleNew device baud parity dataBit stopBit lsusb).run s = .ok (none, s) := by
  rcases h with h | h
  · simp [moduleNew, h]
  · by_cases hd : device = [] <;> simp [moduleNew, h, hd]

/-- Where `popen` fails, `module_new` hands NULL to `fgets`. -/
theorem moduleNew_noStream {device : List UInt8} {baud : ℤ} (hd : device ≠ []) (hb : baud ≠ 0)
    (parity : UInt8) (dataBit stopBit : ℤ) (s : Proc (Mem π)) :
    (moduleNew device baud parity dataBit stopBit none).run s = .error .nullPointer := by
  simp [moduleNew, hd, hb]

/-- Without the modem on the bus `module_new` returns NULL and keeps the object it
allocated. -/
theorem moduleNew_absent {device : List UInt8} {baud : ℤ} (hd : device ≠ []) (hb : baud ≠ 0)
    (parity : UInt8) (dataBit stopBit : ℤ) {number : ℕ} (h : number ≠ marks)
    (s : Proc (Mem π)) :
    (moduleNew device baud parity dataBit stopBit (some number)).run s = .ok (none,
      { s with mem := s.mem.withHeaps (s.mem.modules.alloc ⟨none, none⟩) s.mem.fds }) := by
  simp [moduleNew, hd, hb, h, Mem.withHeaps]

/-- With an unknown parity `module_new` frees the object it allocated. -/
theorem moduleNew_undone {device : List UInt8} {baud : ℤ} (hd : device ≠ []) (hb : baud ≠ 0)
    {parity : UInt8} (hp : ¬(parity = 78 ∨ parity = 69 ∨ parity = 79)) (dataBit stopBit : ℤ)
    (s : Proc (Mem π)) :
    ∃ modules, (moduleNew device baud parity dataBit stopBit (some marks)).run s =
        .ok (none, { s with mem := s.mem.withHeaps modules s.mem.fds }) ∧
      modules.next = s.mem.modules.next + 1 ∧ modules.live = s.mem.modules.live ∧
      ∀ a fd, Holds modules a fd ↔ Holds s.mem.modules a fd := by
  let serial : CoraSerial := ⟨device, baud, 0, 0, 0⟩
  let set : Module → Module := fun m => { m with backendData := some serial }
  let filled := (s.mem.modules.alloc ⟨none, none⟩).modify s.mem.modules.next set
  have hcell : filled.cell s.mem.modules.next = some ⟨none, some serial⟩ := by
    simp [filled, set]
  refine ⟨filled.free s.mem.modules.next, ?_, by simp [filled], ?_, fun a fd => ?_⟩
  · simp [moduleNew, moduleFree, uartsFree, hd, hb, hp, Mem.withHeaps, filled, set, serial]
  · simp [filled]
  · exact (holds_free hcell rfl a fd).trans
      ((holds_modify_same (f := set) (fun _ => rfl) a fd).trans (holds_alloc rfl a fd))

/-- Otherwise `module_new` returns a new module without a descriptor. -/
theorem moduleNew_created {device : List UInt8} {baud : ℤ} (hd : device ≠ []) (hb : baud ≠ 0)
    {parity : UInt8} (hp : parity = 78 ∨ parity = 69 ∨ parity = 79) (dataBit stopBit : ℤ)
    (s : Proc (Mem π)) :
    ∃ modules m, (moduleNew device baud parity dataBit stopBit (some marks)).run s =
        .ok (some s.mem.modules.next, { s with mem := s.mem.withHeaps modules s.mem.fds }) ∧
      modules.next = s.mem.modules.next + 1 ∧
      modules.live = insert s.mem.modules.next s.mem.modules.live ∧
      modules.cell s.mem.modules.next = some m ∧ m.s = none ∧
      ∀ a fd, Holds modules a fd ↔ Holds s.mem.modules a fd := by
  let serial : CoraSerial := ⟨device, baud, 0, 0, 0⟩
  let serial' : CoraSerial :=
    ⟨device, baud, parity, UInt8.ofInt dataBit, UInt8.ofInt stopBit⟩
  let set : Module → Module := fun m => { m with backendData := some serial }
  let set' : Module → Module := fun m => { m with backendData := some serial' }
  let filled := (s.mem.modules.alloc ⟨none, none⟩).modify s.mem.modules.next set
  refine ⟨filled.modify s.mem.modules.next set', ⟨none, some serial'⟩, ?_, by simp [filled],
    by simp [filled], by simp [filled, set, set'], rfl, fun a fd => ?_⟩
  · simp [moduleNew, hd, hb, hp, Mem.withHeaps, filled, set, set', serial, serial']
  · exact (holds_modify_same (f := set') (fun _ => rfl) a fd).trans
      ((holds_modify_same (f := set) (fun _ => rfl) a fd).trans (holds_alloc rfl a fd))

/-- A failed `_uarts_connect` leaves the module without a descriptor, and the open
descriptors as they were. -/
theorem uartsConnect_failed {env : ConnectEnv}
    (h : (env.opens && env.setsSpeed && env.setsAttr) = false) {ctx : ℕ} {s : Proc (Mem π)}
    {m : Module} (hm : s.mem.modules.cell ctx = some m) (hs : m.s = none) :
    ∃ modules fds m', (uartsConnect ctx env).run s =
        .ok (-1, { s with mem := s.mem.withHeaps modules fds }) ∧
      modules.next = s.mem.modules.next ∧ modules.live = s.mem.modules.live ∧
      fds.live = s.mem.fds.live ∧ modules.cell ctx = some m' ∧ m'.s = none ∧
      ∀ a fd, Holds modules a fd ↔ Holds s.mem.modules a fd := by
  let close : Module → Module := fun m => { m with s := none }
  let opened : Module → Module := fun m => { m with s := some s.mem.fds.next }
  cases ho : env.opens with
  | false =>
    refine ⟨s.mem.modules.modify ctx close, s.mem.fds, close m, ?_, rfl, by simp, rfl,
      by simp [hm], rfl, holds_modify_closed hm hs rfl⟩
    simp [uartsConnect, ho, hm, Mem.withHeaps, close]
  | true =>
    refine ⟨(s.mem.modules.modify ctx opened).modify ctx close,
      (s.mem.fds.alloc ()).free s.mem.fds.next, close (opened m), ?_, rfl, by simp,
      by simp, by simp [hm], rfl, fun a fd => ?_⟩
    · cases hsp : env.setsSpeed with
      | false => simp [uartsConnect, ho, hsp, hm, Mem.withHeaps, close, opened]
      | true =>
        have hat : env.setsAttr = false := by simpa [ho, hsp] using h
        simp [uartsConnect, ho, hsp, hat, hm, Mem.withHeaps, close, opened]
    · by_cases ha : a = ctx
      · subst ha
        simp [Holds, hm, hs, close, opened]
      · rw [holds_modify_of_ne _ ha, holds_modify_of_ne _ ha]

/-- A successful `_uarts_connect` opens one descriptor and stores it in the module. -/
theorem uartsConnect_connected {env : ConnectEnv}
    (h : (env.opens && env.setsSpeed && env.setsAttr) = true) {ctx : ℕ} {s : Proc (Mem π)}
    {m : Module} (hm : s.mem.modules.cell ctx = some m) :
    (uartsConnect ctx env).run s = .ok (0, { s with
      mem := s.mem.withHeaps
        (s.mem.modules.modify ctx fun m => { m with s := some s.mem.fds.next })
        (s.mem.fds.alloc ()) }) := by
  simp only [Bool.and_eq_true] at h
  obtain ⟨⟨ho, hsp⟩, hat⟩ := h
  simp [uartsConnect, ho, hsp, hat, hm, Mem.withHeaps]

/-- `module_close; module_free` on a live module closes its descriptor and frees it. -/
theorem close_free_live {ctx : ℕ} {s : Proc (Mem π)} {m : Module}
    (hm : s.mem.modules.cell ctx = some m) :
    ∃ modules fds, (do moduleClose (some ctx); moduleFree (some ctx) : CM (Mem π) Unit).run s =
        .ok ((), { s with mem := s.mem.withHeaps modules fds }) ∧
      modules.next = s.mem.modules.next ∧ modules.live = s.mem.modules.live \ {ctx} ∧
      (FdsHeld s.mem.modules s.mem.fds → FdsHeld modules fds) := by
  cases hs : m.s with
  | none =>
    refine ⟨s.mem.modules.free ctx, s.mem.fds, ?_, rfl, by simp,
      fun h => h.congr (holds_free hm hs) rfl⟩
    simp [moduleClose, moduleFree, uartsClose, uartsFree, hm, hs, Mem.withHeaps]
  | some fd =>
    let close : Module → Module := fun m => { m with s := none }
    have hcell : (s.mem.modules.modify ctx close).cell ctx = some (close m) := by simp [hm]
    refine ⟨(s.mem.modules.modify ctx close).free ctx, s.mem.fds.free fd, ?_, rfl, by simp,
      fun h => (h.closed hm hs rfl).congr (holds_free hcell rfl) rfl⟩
    simp [moduleClose, moduleFree, uartsClose, uartsFree, hm, hs, Mem.withHeaps, close]

end PyModules.Lte
