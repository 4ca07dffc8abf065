import PyModules.Modbus.PyModbus

/-!
# When a block read delivers a list

`read_registers` returns a list only when the device answers through a live context that has a
slave address, and every element lies within the destination array. Otherwise it raises, or
leaves defined behaviour on the way.
-/

namespace PyModules.Modbus

/-- A program that returns precisely under a condition, and changes nothing. Otherwise it leaves
an array. -/
structure Reads {α : Type} (x : CM Mem α) (P : Prop) : Prop where
  returns : P → ∀ s, ∃ v, x.run s = .ok (v, s)
  overruns : ¬P → ∀ s, x.run s = .error .outOfBounds

namespace Reads

variable {α β : Type} {P Q : Prop}

theorem pure (a : α) : Reads (Pure.pure a : CM Mem α) True :=
  ⟨fun _ _ => ⟨a, rfl⟩, fun h => absurd trivial h⟩

/-- A sequence returns if both parts do. -/
theorem bind {x : CM Mem α} {f : α → CM Mem β} (hx : Reads x P) (hf : ∀ a, Reads (f a) Q) :
    Reads (x >>= f) (P ∧ Q) where
  returns h s := by
    obtain ⟨v, hrun⟩ := hx.returns h.1 s
    obtain ⟨w, hrest⟩ := (hf v).returns h.2 s
    exact ⟨w, by rw [StateT.run_bind, hrun, ok_bind, hrest]⟩
  overruns h s := by
    by_cases hP : P
    · obtain ⟨v, hrun⟩ := hx.returns hP s
      have hrest := (hf v).overruns (fun hQ => h ⟨hP, hQ⟩) s
      rw [StateT.run_bind, hrun, ok_bind, hrest]
    · rw [StateT.run_bind, hx.overruns hP s, error_bind]

/-- The condition may be put another way. -/
theorem congr {x : CM Mem α} (hx : Reads x P) (h : P ↔ Q) : Reads x Q := by
  rwa [← h]

/-- Post-processing does not change when a program returns. -/
theorem map {x : CM Mem α} (hx : Reads x P) (f : α → β) :
    Reads (x >>= fun a => Pure.pure (f a)) P :=
  (hx.bind fun a => pure (f a)).congr (and_iff_left trivial)

end Reads

/-! ## Decoding -/

/-- Both arrays have the length they were declared with. -/
structure Dest.Full (dest : Dest) : Prop where
  u16 : dest.u16.length = MODBUS_MAX_READ_REGISTERS
  u08 : dest.u08.length = MODBUS_MAX_READ_REGISTERS

/-- A load returns within the array. -/
theorem reads_load {α : Type} (dest : List α) (k : ℕ) : Reads (load dest k) (k < dest.length) where
  returns h _ := ⟨dest[k], by simp [load, h]⟩
  overruns h _ := by simp [load, h]

/-- The words of an element are added up if the last one lies within the array. -/
theorem reads_accumulate (wrap : ℤ → ℤ) (u16 : List UInt16) (base todo j : ℕ) (ieee : ℤ) :
    Reads (accumulate wrap u16 base todo j ieee)
      (todo = 0 ∨ todo + j + base ≤ u16.length) := by
  induction todo generalizing j ieee with
  | zero => exact (Reads.pure ieee).congr (by simp)
  | succ todo ih =>
    refine ((reads_load u16 (j + base)).bind fun word => ih (j + 1) _).congr ?_
    omega

/-- An element is decoded if all its words lie within the array. -/
theorem reads_element (type : PyDataType) {dest : Dest} (h : dest.Full) (i : ℕ) :
    Reads (element type dest i) (type.width * (i + 1) ≤ MODBUS_MAX_READ_REGISTERS) := by
  have h16 := h.u16
  have h08 := h.u08
  unfold MODBUS_MAX_READ_REGISTERS at h16 h08 ⊢
  cases type
  case u16 =>
    exact ((reads_load dest.u16 i).map _).congr (by simp only [PyDataType.width]; omega)
  case s16 =>
    exact ((reads_load dest.u16 i).map _).congr (by simp only [PyDataType.width]; omega)
  case b08 =>
    exact ((reads_load dest.u08 i).map _).congr (by simp only [PyDataType.width]; omega)
  all_goals
    exact ((reads_accumulate _ dest.u16 _ _ _ _).map _).congr
      (by simp only [PyDataType.width]; omega)

/-- The items are set if every element is decoded. -/
theorem reads_setItems {element : ℕ → CM Mem PyAtom} {P : ℕ → Prop}
    (helement : ∀ i, Reads (element i) (P i)) (todo i : ℕ) (items : List PyAtom) :
    Reads (setItems element todo i (some items)) (∀ k < todo, P (k + i)) := by
  induction todo generalizing i items with
  | zero => exact (Reads.pure _).congr (by simp)
  | succ todo ih =>
    refine ((helement i).bind fun v => ih (i + 1) (items ++ [v])).congr ?_
    rw [Nat.forall_lt_succ_left', Nat.zero_add]
    simp only [Nat.add_assoc, Nat.add_comm 1]

/-- The memory after a request was sent. -/
def Mem.requested (mem : Mem) (function : ℕ) (addr nb : ℤ) : Mem :=
  { mem with requests := mem.requests ++ [⟨function, addr % 2 ^ 16, nb % 2 ^ 16⟩] }

/-- A request that libmodbus sends and the device answers within the array. -/
theorem run_request_of_answered {α : Type} {p : ℕ} {c : Context} {s : Proc Mem}
    (hlive : s.mem.contexts.cell p = some c) (haddressed : c.Addressed) {limit nb : ℤ}
    (hnb : nb ≤ limit) {data dest : List α} (hfits : data.length ≤ dest.length) (function : ℕ)
    (addr : ℤ) :
    (request (some p) function limit addr nb (some data) dest).run s =
      .ok (some (data, data ++ dest.drop data.length),
        ⟨s.err, s.mem.requested function addr nb⟩) := by
  simp [request, hlive, transmit, not_lt.mpr hnb, assert_of_holds haddressed, hfits,
    Mem.requested]

/-- The pointer names a context that was not freed, and that a request can be built for. -/
def ReadyAt (mem : Mem) (ctx : Option ℕ) : Prop :=
  ∃ p c, ctx = some p ∧ mem.contexts.cell p = some c ∧ c.Addressed

/-- How many elements the device answers to a function code. -/
def ReadEnv.answerLength (env : ReadEnv) (code : ℤ) : Option ℕ :=
  if code = 1 ∨ code = 2 then env.bits.map List.length else env.words.map List.length

/-- The module holds a context that was not freed, and that a request can be built for. -/
def Mem.Ready (mem : Mem) : Prop := ReadyAt mem mem.mb

/-- A context that is ready, a supported function code, and an answer that fits the
destination. -/
structure Answers (mem : Mem) (code : ℤ) (env : ReadEnv) : Prop where
  ready : mem.Ready
  supported : code ∈ [1, 2, 3, 4]
  answered : ∃ n, env.answerLength code = some n ∧ n ≤ MODBUS_MAX_READ_REGISTERS

/-- The arrays are full-sized before the read. -/
theorem Dest.full_zero : Dest.zero.Full := by
  constructor <;> simp only [Dest.zero, List.length_replicate]

/-- Storing an answer that fits keeps the size of the array. -/
theorem length_stored {α : Type} {data dest : List α} (h : data.length ≤ dest.length) :
    (data ++ dest.drop data.length).length = dest.length := by
  rw [List.length_append, List.length_drop]
  omega

/-- The four function codes. -/
theorem code_cases {code : ℤ} (h : code ∈ [1, 2, 3, 4]) :
    (code = 1 ∨ code = 2) ∨ ¬(code = 1 ∨ code = 2) ∧ (code = 3 ∨ code = 4) := by
  simp only [List.mem_cons, List.not_mem_nil, or_false] at h
  omega

/-- The most elements that libmodbus requests with a function code. -/
def readLimit (code : ℤ) : ℤ :=
  if code = 1 ∨ code = 2 then MODBUS_MAX_READ_BITS else MODBUS_MAX_READ_REGISTERS

/-- The arrays with an answer stored in the one that the function code fills. -/
def Dest.received (code : ℤ) (env : ReadEnv) : Dest :=
  if code = 1 ∨ code = 2 then
    { Dest.zero with
      u08 := env.bits.getD [] ++ Dest.zero.u08.drop (env.bits.getD []).length }
  else
    { Dest.zero with
      u16 := env.words.getD [] ++ Dest.zero.u16.drop (env.words.getD []).length }

/-- An answer that fits keeps the size of the arrays. -/
theorem Answers.full_received {mem : Mem} {code : ℤ} {env : ReadEnv} (h : Answers mem code env) :
    (Dest.received code env).Full := by
  have hfull := Dest.full_zero
  obtain ⟨n, hlength, hn⟩ := h.answered
  unfold Dest.received
  by_cases hbits : code = 1 ∨ code = 2
  · simp only [ReadEnv.answerLength, if_pos hbits, Option.map_eq_some_iff] at hlength
    obtain ⟨data, hdata, rfl⟩ := hlength
    rw [if_pos hbits, hdata]
    exact ⟨hfull.u16, (length_stored (hfull.u08 ▸ hn)).trans hfull.u08⟩
  · simp only [ReadEnv.answerLength, if_neg hbits, Option.map_eq_some_iff] at hlength
    obtain ⟨data, hdata, rfl⟩ := hlength
    rw [if_neg hbits, hdata]
    exact ⟨(length_stored (hfull.u16 ▸ hn)).trans hfull.u16, hfull.u08⟩

/-- A dispatched request that the device answers. -/
theorem run_dispatch_of_answers {mem : Mem} {code : ℤ} {env : ReadEnv} (h : Answers mem code env)
    {nb : ℤ} (hne : nb ≠ -1) (hnb : nb ≤ readLimit code) (addr : ℤ) (err : Option PyErr) :
    ∃ regs, (dispatch mem.mb code addr nb env Dest.zero).run ⟨err, mem⟩ =
      .ok (some (regs, Dest.received code env), ⟨err, mem.requested code.toNat addr nb⟩) ∧
      regs ≠ -1 := by
  have hfull := Dest.full_zero
  obtain ⟨⟨p, c, hmb, hlive, haddressed⟩, hcode, n, hlength, hn⟩ := h
  rcases code_cases hcode with hbits | ⟨hbits, hwords⟩
  · simp only [ReadEnv.answerLength, if_pos hbits, Option.map_eq_some_iff] at hlength
    obtain ⟨data, hdata, rfl⟩ := hlength
    have hfits : data.length ≤ Dest.zero.u08.length := hfull.u08 ▸ hn
    rw [readLimit, if_pos hbits] at hnb
    have hrequest := run_request_of_answered (s := ⟨err, mem⟩) hlive haddressed hnb hfits
      code.toNat addr
    refine ⟨nb, ?_, hne⟩
    simp [dispatch, hbits, modbusReadBits, hmb, hdata, hrequest, Dest.received]
  · simp only [ReadEnv.answerLength, if_neg hbits, Option.map_eq_some_iff] at hlength
    obtain ⟨data, hdata, rfl⟩ := hlength
    have hfits : data.length ≤ Dest.zero.u16.length := hfull.u16 ▸ hn
    rw [readLimit, if_neg hbits] at hnb
    have hrequest := run_request_of_answered (s := ⟨err, mem⟩) hlive haddressed hnb hfits
      code.toNat addr
    refine ⟨data.length, ?_, by omega⟩
    simp [dispatch, hbits, hwords, modbusReadRegisters, hmb, hdata, hrequest, Dest.received]

/-- `PyList_New` returns NULL with an exception set, or a list without items. -/
theorem run_listNew (target : Platform) (n : ℤ) (s : Proc Mem) :
    (0 ≤ n ∧ n ≤ target.listMax → (listNew target n).run s = .ok (some [], s)) ∧
      (¬(0 ≤ n ∧ n ≤ target.listMax) →
        ∃ e, (listNew target n).run s = .ok (none, ⟨some e, s.mem⟩)) := by
  constructor
  · rintro ⟨hnonneg, hmax⟩
    simp [listNew, not_lt.mpr hnonneg, not_lt.mpr hmax]
  · intro h
    by_cases hneg : n < 0
    · exact ⟨⟨.system, "bad argument to internal function"⟩, by simp [listNew, hneg]⟩
    · have hmax : n > target.listMax := by omega
      exact ⟨⟨.memory, ""⟩, by simp [listNew, hneg, hmax]⟩

/-- The block is answered, and the list it is decoded into can be built. -/
structure Delivers (target : Platform) (mem : Mem) (code pynb : ℤ) (type : PyDataType)
    (env : ReadEnv) : Prop where
  answers : Answers mem code env
  nonneg : 0 ≤ pynb
  listMax : pynb ≤ target.listMax
  fits : type.width * pynb ≤ MODBUS_MAX_READ_REGISTERS

/-- An element has some registers or bits. -/
theorem width_pos (type : PyDataType) : 0 < type.width := by
  cases type <;> decide

/-- There are at least as many registers or bits as elements. -/
theorem le_width_mul (type : PyDataType) {n : ℤ} (h : 0 ≤ n) : n ≤ type.width * n := by
  have hle := Int.mul_le_mul_of_nonneg_right (width_pos type) h
  omega

/-- All elements lie within the array if the last one does. -/
theorem fits_iff {type : PyDataType} {pynb : ℤ} (h : 0 ≤ pynb) :
    (∀ k < pynb.toNat, type.width * ((k + 0 : ℕ) + 1) ≤ (MODBUS_MAX_READ_REGISTERS : ℤ)) ↔
      type.width * pynb ≤ MODBUS_MAX_READ_REGISTERS := by
  constructor
  · intro hall
    by_cases hzero : pynb = 0
    · subst hzero
      rw [Int.mul_zero]
      exact Int.natCast_nonneg _
    · have hlast := hall (pynb.toNat - 1) (by omega)
      have hindex : ((pynb.toNat - 1 + 0 : ℕ) : ℤ) + 1 = pynb := by omega
      rwa [hindex] at hlast
  · intro hfits k hk
    have hindex : ((k + 0 : ℕ) : ℤ) + 1 ≤ pynb := by omega
    exact (Int.mul_le_mul_of_nonneg_left hindex (width_pos type).le).trans hfits

/-- The count of a block that fits is not wrapped. -/
theorem count_of_fits {type : PyDataType} {pynb : ℤ} (hnonneg : 0 ≤ pynb)
    (hfits : type.width * pynb ≤ MODBUS_MAX_READ_REGISTERS) :
    count type pynb = type.width * pynb ∧ 0 ≤ type.width * pynb := by
  have hproduct : 0 ≤ type.width * pynb := Int.mul_nonneg (width_pos type).le hnonneg
  have hsmall : type.width * pynb ≤ 125 := hfits
  generalize hnb : type.width * pynb = nb at hproduct hsmall ⊢
  refine ⟨?_, hproduct⟩
  rw [count, toInt32, hnb]
  exact Int.bmod_eq_of_le_mul_two (by omega) (by omega)

/-- A count that fits is within the limit of every function code. -/
theorem le_readLimit {nb : ℤ} (h : nb ≤ MODBUS_MAX_READ_REGISTERS) (code : ℤ) :
    nb ≤ readLimit code := by
  unfold readLimit MODBUS_MAX_READ_BITS
  unfold MODBUS_MAX_READ_REGISTERS at h ⊢
  split <;> omega

end PyModules.Modbus
