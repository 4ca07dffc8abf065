import PyModules.Library.Words
import PyModules.Modbus.Reading

/-!
# How a block is decoded

The loops of `read_registers` add up shifted words in an `int`, an `unsigned int`, or a
`long long`. Whatever the words are, the sum is the number that they denote, low word
first, in the arithmetic of the accumulator.
-/

namespace PyModules.Modbus

/-! ## The loops -/

/-- The arithmetic of an accumulator: wrapping a summand beforehand changes nothing. -/
def Wraps (wrap : ℤ → ℤ) : Prop := ∀ a b, wrap (a + wrap b) = wrap (a + b)

theorem wraps_toUInt32 : Wraps toUInt32 := fun _ _ => Int.add_emod_emod _ _ _

theorem wraps_toInt32 : Wraps toInt32 := fun _ _ => Int.add_bmod_bmod

theorem wraps_toInt64 : Wraps toInt64 := fun _ _ => Int.add_bmod_bmod

/-- Wrapping twice is wrapping once. -/
theorem Wraps.idem {wrap : ℤ → ℤ} (h : Wraps wrap) (a : ℤ) : wrap (wrap a) = wrap a := by
  simpa using h 0 a

/-- A sum of three may be wrapped after the first two. -/
theorem Wraps.add_left {wrap : ℤ → ℤ} (h : Wraps wrap) (a b : ℤ) :
    wrap (wrap a + b) = wrap (a + b) := by
  rw [add_comm, h, add_comm]

/-- A load within the array. -/
theorem run_load {α : Type} {dest : List α} {k : ℕ} {v : α} (h : dest[k]? = some v)
    (s : Proc Mem) : (load dest k).run s = .ok (v, s) := by
  simp [load, h]

/-- The loop over `j` adds the number that its words denote, in their place. -/
theorem run_accumulate {wrap : ℤ → ℤ} (hwrap : Wraps wrap) {u16 : List UInt16}
    {base todo j : ℕ} {ieee : ℤ} (hin : j + base + todo ≤ u16.length) (hieee : wrap ieee = ieee)
    (s : Proc Mem) :
    (accumulate wrap u16 base todo j ieee).run s =
      .ok (wrap (ieee + 2 ^ (j * 16) * Words.value ((u16.drop (j + base)).take todo)), s) := by
  induction todo generalizing j ieee with
  | zero => simp [accumulate, hieee]
  | succ todo ih =>
    have hk : j + base < u16.length := by omega
    have hload := run_load (List.getElem?_eq_getElem hk) s
    have hrest : j + 1 + base = j + base + 1 := by omega
    rw [accumulate, StateT.run_bind, hload, ok_bind, ih (by omega) (hwrap.idem _), hrest,
      List.drop_eq_getElem_cons hk, List.take_succ_cons, Words.value_cons]
    have hsum : ieee + (u16[j + base].toNat : ℤ) * 2 ^ (j * 16) +
          2 ^ ((j + 1) * 16) * Words.value ((u16.drop (j + base + 1)).take todo) =
        ieee + 2 ^ (j * 16) * ((u16[j + base].toNat +
          2 ^ 16 * Words.value ((u16.drop (j + base + 1)).take todo) : ℕ) : ℤ) := by
      push_cast
      ring
    rw [hwrap.add_left, add_right_comm, hwrap, add_right_comm, hsum]

/-- The loop over `j` for element `i` of `w` words each. -/
theorem run_accumulate_chunk {wrap : ℤ → ℤ} (hwrap : Wraps wrap) (hzero : wrap 0 = 0)
    {u16 : List UInt16} {w i : ℕ} (hin : i * w + w ≤ u16.length) (s : Proc Mem) :
    (accumulate wrap u16 (i * w) w 0 0).run s =
      .ok (wrap (Words.value (Words.chunk w i u16)), s) := by
  rw [run_accumulate hwrap (by omega) hzero]
  simp [Words.chunk]

/-- Element `i` of a result, as a function of the arrays. -/
def decoded (type : PyDataType) (dest : Dest) (i : ℕ) : PyAtom :=
  let v : ℤ := Words.value (Words.chunk type.width.toNat i dest.u16)
  match type with
  | .u16 => .int v
  | .u32 => .int (toInt32 v)
  | .s16 => .int (Int.bmod v (2 ^ 16))
  | .s32 => .int (toInt32 v)
  | .f16 => .float (.single (.ofInt 32 (toInt32 v)))
  | .d32 => .float (.double (.ofInt 64 (toInt64 v)))
  | .b08 => .int (dest.u08.getD i 0).toNat

/-- An `unsigned int` handed to a function that fetches an `int`. -/
theorem toInt32_toUInt32 (v : ℤ) : toInt32 (toUInt32 v) = toInt32 v := Int.emod_bmod v (2 ^ 32)

/-- Decoding an element within the arrays. -/
theorem run_element {type : PyDataType} {dest : Dest} (hfull : dest.Full) {i : ℕ}
    (hin : type.width * (i + 1) ≤ MODBUS_MAX_READ_REGISTERS) (s : Proc Mem) :
    (element type dest i).run s = .ok (decoded type dest i, s) := by
  have h16 := hfull.u16
  have h08 := hfull.u08
  unfold MODBUS_MAX_READ_REGISTERS at h16 h08 hin
  cases type with
  | u16 =>
    have hk : i < dest.u16.length := by simp only [PyDataType.width] at hin; omega
    have hget := List.getElem?_eq_getElem hk
    simp [element, run_load hget, decoded, PyDataType.width, Words.value_chunk_one hk,
      Words.word_of_lt hk]
  | s16 =>
    have hk : i < dest.u16.length := by simp only [PyDataType.width] at hin; omega
    have hget := List.getElem?_eq_getElem hk
    simp [element, run_load hget, decoded, PyDataType.width, Words.value_chunk_one hk,
      Words.word_of_lt hk]
  | b08 =>
    have hk : i < dest.u08.length := by simp only [PyDataType.width] at hin; omega
    have hget := List.getElem?_eq_getElem hk
    simp [element, run_load hget, decoded, List.getD_eq_getElem?_getD, hget]
  | u32 =>
    have hk : i * 2 + 2 ≤ dest.u16.length := by simp only [PyDataType.width] at hin; omega
    simp [element, run_accumulate_chunk wraps_toUInt32 rfl hk, decoded, PyDataType.width,
      toInt32_toUInt32]
  | s32 =>
    have hk : i * 2 + 2 ≤ dest.u16.length := by simp only [PyDataType.width] at hin; omega
    simp [element, run_accumulate_chunk wraps_toInt32 rfl hk, decoded, PyDataType.width]
  | f16 =>
    have hk : i * 2 + 2 ≤ dest.u16.length := by simp only [PyDataType.width] at hin; omega
    simp [element, run_accumulate_chunk wraps_toInt32 rfl hk, decoded, PyDataType.width]
  | d32 =>
    have hk : i * 4 + 4 ≤ dest.u16.length := by simp only [PyDataType.width] at hin; omega
    simp [element, run_accumulate_chunk wraps_toInt64 rfl hk, decoded, PyDataType.width]

/-- The loop over `i` sets the decoded items. -/
theorem run_setItems {element : ℕ → CM Mem PyAtom} {f : ℕ → PyAtom} {n : ℕ}
    (helement : ∀ i < n, ∀ s, (element i).run s = .ok (f i, s)) {todo i : ℕ} (hin : i + todo ≤ n)
    (items : List PyAtom) (s : Proc Mem) :
    (setItems element todo i (some items)).run s =
      .ok (some (items ++ (List.range' i todo).map f), s) := by
  induction todo generalizing i items with
  | zero => simp [setItems]
  | succ todo ih =>
    rw [setItems, StateT.run_bind, helement i (by omega), ok_bind]
    dsimp only
    rw [ih (by omega), List.range'_succ, List.map_cons, List.append_assoc]
    rfl

/-- A block that is delivered is returned as the list of its decoded elements. -/
theorem run_readBlock {target : Platform} {mem : Mem} {code pynb : ℤ} {type : PyDataType}
    {env : ReadEnv} (h : Delivers target mem code pynb type env) (addr : ℤ)
    (err : Option PyErr) :
    (readBlock target code addr pynb type env).run ⟨err, mem⟩ =
      .ok (some (.list ((List.range pynb.toNat).map (decoded type (Dest.received code env)))),
        ⟨err, mem.requested code.toNat addr (type.width * pynb)⟩) := by
  obtain ⟨hcount, hproduct⟩ := count_of_fits h.nonneg h.fits
  obtain ⟨regs, hdispatch, hregs⟩ := run_dispatch_of_answers h.answers
    (show type.width * pynb ≠ -1 by omega) (le_readLimit h.fits code) addr err
  have helement : ∀ i < pynb.toNat, ∀ s,
      (element type (Dest.received code env) i).run s =
        .ok (decoded type (Dest.received code env) i, s) := by
    intro i hi s
    have hall := (fits_iff h.nonneg).mpr h.fits i hi
    exact run_element h.answers.full_received (by simpa using hall) s
  have hlist := (run_listNew target pynb
    ⟨err, mem.requested code.toNat addr (type.width * pynb)⟩).1 ⟨h.nonneg, h.listMax⟩
  have hset := run_setItems helement (Nat.zero_add pynb.toNat).le []
    ⟨err, mem.requested code.toNat addr (type.width * pynb)⟩
  simp only [readBlock, StateT.run_bind, run_getMem, ok_bind, hcount, hdispatch, if_neg hregs,
    hlist, hset]
  simp [List.range_eq_range']

/-! ## Bit patterns -/

/-- Patterns of `16 * k` bits as a block of registers, each one low word first. -/
def patternBlock (k : ℕ) (patterns : List (BitVec (16 * k))) : List UInt16 :=
  patterns.flatMap fun p => Words.split k p.toNat

/-- The loop over `j` rebuilds pattern `i` in an accumulator of its width. -/
theorem run_accumulate_pattern {k : ℕ} (hk : 0 < k) {wrap : ℤ → ℤ} (hwrap : Wraps wrap)
    (hzero : wrap 0 = 0) (hwidth : ∀ v, wrap v = Int.bmod v (2 ^ (16 * k)))
    {patterns : List (BitVec (16 * k))} {i : ℕ} {p : BitVec (16 * k)} (hp : patterns[i]? = some p)
    (rest : List UInt16) (s : Proc Mem) :
    (accumulate wrap (patternBlock k patterns ++ rest) (i * k) k 0 0).run s =
      .ok (p.toInt, s) := by
  have hlength : ∀ q : BitVec (16 * k), (Words.split k q.toNat).length = k :=
    fun q => Words.length_split k q.toNat
  have hchunk := Words.chunk_flatMap hlength hp rest
  have hin : i * k + k ≤ (patternBlock k patterns ++ rest).length := by
    have hlong := congrArg List.length hchunk
    rw [hlength, Words.chunk, List.length_take, List.length_drop] at hlong
    unfold patternBlock
    omega
  have hvalue : Words.value (Words.split k p.toNat) = p.toNat := by
    apply Words.value_split
    rw [← pow_mul]
    exact p.isLt
  rw [run_accumulate_chunk hwrap hzero hin, patternBlock, hchunk, hvalue, hwidth,
    BitVec.toInt_eq_toNat_bmod]

/-- The patterns of doubles and of floats survive the loops of `read_registers`: wherever they
are placed in a block, the accumulator holds exactly the pattern, and so does the item. -/
theorem patterns_survive (rest : List UInt16) (u08 : List UInt8) (s : Proc Mem) :
    (∀ (doubles : List (BitVec 64)) (i : ℕ) (p : BitVec 64), doubles[i]? = some p →
        (accumulate toInt64 (patternBlock 4 doubles ++ rest) (i * 4) 4 0 0).run s =
            .ok (p.toInt, s) ∧
          (element .d32 ⟨patternBlock 4 doubles ++ rest, u08⟩ i).run s =
            .ok (.float (.double p), s)) ∧
      ∀ (floats : List (BitVec 32)) (i : ℕ) (p : BitVec 32), floats[i]? = some p →
        (accumulate toInt32 (patternBlock 2 floats ++ rest) (i * 2) 2 0 0).run s =
            .ok (p.toInt, s) ∧
          (element .f16 ⟨patternBlock 2 floats ++ rest, u08⟩ i).run s =
            .ok (.float (.single p), s) := by
  constructor
  · intro doubles i p hp
    have hrun := run_accumulate_pattern (k := 4) (by omega) wraps_toInt64 rfl (fun _ => rfl) hp
      rest s
    exact ⟨hrun, by simp [element, hrun]⟩
  · intro floats i p hp
    have hrun := run_accumulate_pattern (k := 2) (by omega) wraps_toInt32 rfl (fun _ => rfl) hp
      rest s
    exact ⟨hrun, by simp [element, hrun]⟩

/-- A quiet NaN and a negative zero, in a block of 125 registers. -/
theorem negative_zero_survives :
    (element .d32 ⟨patternBlock 4 [0x7FF8000000000000, 0x8000000000000000] ++
        List.replicate 117 0, []⟩ 1).run ⟨none, Mem.initial⟩ =
      .ok (.float (.double 0x8000000000000000), ⟨none, Mem.initial⟩) :=
  ((patterns_survive (List.replicate 117 0) [] ⟨none, Mem.initial⟩).1
    [0x7FF8000000000000, 0x8000000000000000] 1 0x8000000000000000 rfl).2

end PyModules.Modbus
