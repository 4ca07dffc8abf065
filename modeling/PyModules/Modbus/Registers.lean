import PyModules.Modbus.Decoding

/-!
# Integers read from registers

A successful read fills one of the two arrays, and the type name selects how elements are
decoded, and from which array. This file compares the returned integers with the numbers
that the registers hold, and says when they tell the answers of the device apart.
-/

namespace PyModules.Modbus

/-- The arguments make `read_registers` ask for `pynb` elements of the type. -/
def Invokes (target : Platform) (args : List PyObject) (code addr pynb : ℤ) (type : PyDataType) :
    Prop :=
  ∃ codeObj addrObj typeName,
    parseRead args = some ([codeObj, addrObj, .str (some typeName)], pynb) ∧
    findType typeName = some type ∧ toInt32 (cLong target codeObj) = code ∧
    toInt32 (cLong target addrObj) = addr

/-- Three items, the last of which names a type, ask for elements of the type. -/
theorem invokes_of_parse (target : Platform) {args : List PyObject} {codeObj addrObj : PyAtom}
    {typeName : List UInt8} {pynb : ℤ} {type : PyDataType}
    (hparse : parseRead args = some ([codeObj, addrObj, .str (some typeName)], pynb))
    (htype : findType typeName = some type) :
    Invokes target args (toInt32 (cLong target codeObj)) (toInt32 (cLong target addrObj)) pynb
      type :=
  ⟨codeObj, addrObj, typeName, hparse, htype, rfl, rfl⟩

/-- Such arguments lead to a block read. -/
theorem run_of_invokes {target : Platform} {args : List PyObject} {code addr pynb : ℤ}
    {type : PyDataType} (h : Invokes target args code addr pynb type) (s : Proc Mem) :
    ∃ err, ∀ env, (readRegisters target args env).run s =
      (readBlock target code addr pynb type env).run ⟨err, s.mem⟩ := by
  obtain ⟨codeObj, addrObj, typeName, hparse, htype, rfl, rfl⟩ := h
  exact ⟨_, fun env => run_readRegisters hparse htype env s⟩

/-- The module holds a context that was not freed. -/
def Mem.Live (mem : Mem) : Prop := ∃ p c, mem.mb = some p ∧ mem.contexts.cell p = some c

/-- A context that is ready was not freed. -/
theorem Mem.Ready.live {mem : Mem} (h : mem.Ready) : mem.Live := by
  obtain ⟨p, c, hmb, hcell, _⟩ := h
  exact ⟨p, c, hmb, hcell⟩

/-- The arguments ask for `n` elements through a context that is ready, by a function code that
is supported, and the elements fit in the arrays. -/
structure Asks (target : Platform) (mem : Mem) (args : List PyObject) (code : ℤ)
    (type : PyDataType) (n : ℕ) : Prop where
  invokes : ∃ addr, Invokes target args code addr n type
  supported : code ∈ [1, 2, 3, 4]
  ready : mem.Ready
  fits : type.width * n ≤ MODBUS_MAX_READ_REGISTERS
  listMax : (n : ℤ) ≤ target.listMax

/-- An answer of the size asked for is returned as the list of its decoded elements. -/
theorem Asks.run {target : Platform} {args : List PyObject} {code : ℤ} {type : PyDataType}
    {n : ℕ} {s : Proc Mem} (h : Asks target s.mem args code type n) {env : ReadEnv}
    (henv : env.answerLength code = some (type.width * n).toNat) :
    ∃ s', (readRegisters target args env).run s =
      .ok (some (.list ((List.range n).map (decoded type (Dest.received code env)))), s') := by
  obtain ⟨addr, hinvokes⟩ := h.invokes
  obtain ⟨err, hrun⟩ := run_of_invokes hinvokes s
  have hfits := h.fits
  have hanswers : Answers s.mem code env := ⟨h.ready, h.supported, _, henv, by omega⟩
  have hdelivers : Delivers target s.mem code n type env :=
    ⟨hanswers, by omega, h.listMax, hfits⟩
  refine ⟨⟨err, s.mem.requested code.toNat addr (type.width * n)⟩, ?_⟩
  rw [hrun, run_readBlock hdelivers, Int.toNat_natCast]

/-- The list that is returned is that one. -/
theorem Asks.items_eq {target : Platform} {args : List PyObject} {code : ℤ} {type : PyDataType}
    {n : ℕ} {s s' : Proc Mem} (h : Asks target s.mem args code type n) {env : ReadEnv}
    (henv : env.answerLength code = some (type.width * n).toNat) {items : List PyAtom}
    (hrun : (readRegisters target args env).run s = .ok (some (.list items), s')) :
    items = (List.range n).map (decoded type (Dest.received code env)) := by
  obtain ⟨s1, hlist⟩ := h.run henv
  rw [hlist, Except.ok.injEq, Prod.mk.injEq, Option.some.injEq, PyObject.list.injEq] at hrun
  exact hrun.1.symm

/-! ## The numbers in the registers -/

/-- The four types of integers in registers. -/
inductive RegisterType
  | u16
  | u32
  | s16
  | s32
  deriving DecidableEq, Repr

/-- The data type. -/
def RegisterType.type : RegisterType → PyDataType
  | .u16 => .u16
  | .u32 => .u32
  | .s16 => .s16
  | .s32 => .s32

/-- The number that element `i` of the registers `r` stands for. -/
def RegisterType.number (type : RegisterType) (r : List UInt16) (i : ℕ) : ℤ :=
  match type with
  | .u16 => Words.word r i
  | .s16 => Words.twosComplement 16 (Words.word r i)
  | .u32 => Words.word r (2 * i) + 65536 * Words.word r (2 * i + 1)
  | .s32 => Words.twosComplement 32 (Words.word r (2 * i) + 65536 * Words.word r (2 * i + 1))

/-- The registers are stored at the start of their array. -/
theorem chunk_received {code : ℤ} (hcode : code = 3 ∨ code = 4) {env : ReadEnv} {r : List UInt16}
    (hr : env.words = some r) {w i : ℕ} (hin : i * w + w ≤ r.length) :
    Words.chunk w i (Dest.received code env).u16 = Words.chunk w i r := by
  have hbits : ¬(code = 1 ∨ code = 2) := by omega
  rw [Dest.received, if_neg hbits, hr]
  exact Words.chunk_append hin _

/-- An element of one register. -/
theorem value_received_one {code : ℤ} (hcode : code = 3 ∨ code = 4) {env : ReadEnv}
    {r : List UInt16} (hr : env.words = some r) {i : ℕ} (hin : i < r.length) :
    Words.value (Words.chunk 1 i (Dest.received code env).u16) = Words.word r i := by
  rw [chunk_received hcode hr (by omega), Words.value_chunk_one hin]

/-- An `int` that takes the value of an element of two registers. -/
theorem toInt32_received_two {code : ℤ} (hcode : code = 3 ∨ code = 4) {env : ReadEnv}
    {r : List UInt16} (hr : env.words = some r) {i : ℕ} (hin : 2 * i + 1 < r.length) :
    toInt32 (Words.value (Words.chunk 2 i (Dest.received code env).u16)) =
      Words.twosComplement 32 (Words.word r (2 * i) + 65536 * Words.word r (2 * i + 1)) := by
  have hlow := Words.word_lt r (2 * i)
  have hhigh := Words.word_lt r (2 * i + 1)
  rw [chunk_received hcode hr (by omega), Words.value_chunk_two hin]
  push_cast
  exact Words.bmod_eq_twosComplement (by omega) (by omega) (by omega)

/-- A `U32` is decoded as an `int`, which is the number if its high word has no sign bit. The
other types are decoded as they should be. -/
theorem decoded_iff (type : RegisterType) {code : ℤ} (hcode : code = 3 ∨ code = 4) {env : ReadEnv}
    {r : List UInt16} (hr : env.words = some r) {n i : ℕ}
    (hlength : (r.length : ℤ) = type.type.width * n) (hi : i < n) :
    decoded type.type (Dest.received code env) i = .int (type.number r i) ↔
      (type = .u32 → Words.word r (2 * i + 1) < 2 ^ 15) := by
  cases type with
  | u16 =>
    have hin : i < r.length := by simp only [RegisterType.type, PyDataType.width] at hlength; omega
    refine iff_of_true ?_ (by simp)
    simp only [RegisterType.type, decoded, PyDataType.width, Int.toNat_one,
      value_received_one hcode hr hin, RegisterType.number]
  | s16 =>
    have hin : i < r.length := by simp only [RegisterType.type, PyDataType.width] at hlength; omega
    have hword := Words.word_lt r i
    have hsigned := Words.bmod_eq_twosComplement (k := 16) (by omega)
      (Int.natCast_nonneg (Words.word r i)) (by omega)
    refine iff_of_true ?_ (by simp)
    simp only [RegisterType.type, decoded, PyDataType.width, Int.toNat_one,
      value_received_one hcode hr hin, RegisterType.number, hsigned]
  | u32 =>
    have hin : 2 * i + 1 < r.length := by
      simp only [RegisterType.type, PyDataType.width] at hlength
      omega
    have hlow := Words.word_lt r (2 * i)
    simp only [RegisterType.type, decoded, PyDataType.width, Int.reduceToNat,
      toInt32_received_two hcode hr hin, RegisterType.number, Words.twosComplement,
      PyAtom.int.injEq, forall_const]
    split <;> omega
  | s32 =>
    have hin : 2 * i + 1 < r.length := by
      simp only [RegisterType.type, PyDataType.width] at hlength
      omega
    refine iff_of_true ?_ (by simp)
    simp only [RegisterType.type, decoded, PyDataType.width, Int.reduceToNat,
      toInt32_received_two hcode hr hin, RegisterType.number]

/-- The integers returned are the numbers in the registers, and as many as were asked for,
precisely unless an element of type `U32` has its sign bit set. -/
theorem registers_decoded_iff {target : Platform} {args : List PyObject} {code : ℤ}
    {type : RegisterType} {n : ℕ} {s : Proc Mem} (h : Asks target s.mem args code type.type n)
    (hcode : code = 3 ∨ code = 4) {env : ReadEnv} {r : List UInt16} (hr : env.words = some r)
    (hlength : (r.length : ℤ) = type.type.width * n) :
    (∃ s', (readRegisters target args env).run s =
        .ok (some (.list ((List.range n).map fun i => .int (type.number r i))), s')) ↔
      (type = .u32 → ∀ i < n, Words.word r (2 * i + 1) < 2 ^ 15) := by
  have hbits : ¬(code = 1 ∨ code = 2) := by omega
  have henv : env.answerLength code = some (type.type.width * n).toNat := by
    rw [ReadEnv.answerLength, if_neg hbits, hr, ← hlength]
    rfl
  constructor
  · rintro ⟨s', hlist⟩ htype i hi
    have hitem := List.map_inj_left.mp (h.items_eq henv hlist) i (List.mem_range.mpr hi)
    exact (decoded_iff type hcode hr hlength hi).mp hitem.symm htype
  · intro hhigh
    obtain ⟨s1, hrun⟩ := h.run henv
    refine ⟨s1, ?_⟩
    rw [hrun, List.map_congr_left fun i hi => (decoded_iff type hcode hr hlength
      (List.mem_range.mp hi)).mpr fun htype => hhigh htype i (List.mem_range.mp hi)]

/-- A module that holds a context. -/
def Mem.held : Mem := ⟨some 0, 1, Heap.empty.alloc ⟨.tcp, 255⟩, []⟩

/-- The context is ready. -/
theorem ready_held : Mem.held.Ready := ⟨0, ⟨.tcp, 255⟩, rfl, rfl, by decide⟩

/-- `read_registers([code, addr, name], n)`. -/
def readArgs (code addr : ℤ) (name : String) (n : ℤ) : List PyObject :=
  [.list [.int code, .int addr, .str (some (lit name))], .atom (.int n)]

/-- The list has three items, and the count is a C `int`. -/
theorem parseRead_readArgs (code addr : ℤ) (name : String) {n : ℤ}
    (hn : INT_MIN ≤ n ∧ n ≤ INT_MAX) :
    parseRead (readArgs code addr name n) =
      some ([.int code, .int addr, .str (some (lit name))], n) := by
  have hconvert : convertInt (.atom (.int n)) = some n := by
    simp [convertInt, PyAtom.intValue, hn]
  simp [readArgs, parseRead, required, convertList, optional, hconvert]

/-- `read_registers([3, 0, name], n)` with a count that fits. -/
theorem asks_readArgs (name : String) (n : ℕ) {type : PyDataType}
    (htype : findType (lit name) = some type) (hfits : type.width * n ≤ 125) :
    Asks armv7 Mem.held (readArgs 3 0 name n) 3 type n := by
  have hcount := le_width_mul type (Int.natCast_nonneg n)
  have hparse := parseRead_readArgs 3 0 name (n := n) (by unfold INT_MIN INT_MAX; omega)
  refine ⟨⟨0, .int 3, .int 0, lit name, hparse, htype, by decide, by decide⟩, by decide, ready_held,
    hfits, ?_⟩
  simp only [armv7]
  omega

/-- `S32` elements with both signs are decoded as they should be. -/
theorem s32_decoded :
    ∃ s', (readRegisters armv7 (readArgs 3 0 "S32" 2) ⟨none, some [5, 0, 65535, 65535], ""⟩).run
        ⟨none, Mem.held⟩ =
      .ok (some (.list ((List.range 2).map fun i =>
        .int (RegisterType.s32.number [5, 0, 65535, 65535] i))), s') := by
  have hname : findType (lit "S32") = some .s32 := by decide +kernel
  have hasks : Asks armv7 Mem.held (readArgs 3 0 "S32" 2) 3 RegisterType.s32.type 2 :=
    asks_readArgs "S32" 2 hname (by decide)
  exact (registers_decoded_iff (s := ⟨none, Mem.held⟩) hasks (.inl rfl) rfl rfl).mpr nofun

/-- A `U32` element of `0x80000000` is decoded as a negative number. -/
theorem u32_decoded_negative :
    ¬∃ s', (readRegisters armv7 (readArgs 3 0 "U32" 2) ⟨none, some [5, 0, 0, 32768], ""⟩).run
        ⟨none, Mem.held⟩ =
      .ok (some (.list ((List.range 2).map fun i =>
        .int (RegisterType.u32.number [5, 0, 0, 32768] i))), s') := by
  rintro ⟨s', hlist⟩
  have hname : findType (lit "U32") = some .u32 := by decide +kernel
  have henv : (ReadEnv.mk none (some [5, 0, 0, 32768]) "").answerLength 3 = some 4 := rfl
  have hasks : Asks armv7 Mem.held (readArgs 3 0 "U32" 2) 3 .u32 2 :=
    asks_readArgs "U32" 2 hname (by decide)
  have hitems := Asks.items_eq (s := ⟨none, Mem.held⟩) hasks henv hlist
  have hitem := List.map_inj_left.mp hitems 1 (by decide)
  have hhigh := (decoded_iff .u32 (n := 2) (.inl rfl) rfl rfl Nat.one_lt_two).mp hitem.symm
  exact absurd (hhigh rfl) (by decide)

end PyModules.Modbus
