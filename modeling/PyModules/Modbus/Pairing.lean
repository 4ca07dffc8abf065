import PyModules.Modbus.Registers

/-!
# The array that is filled and the array that is decoded

The function code selects the array that libmodbus fills, and the type name, on its own,
the array that is decoded. The returned list tells the answers of a device apart precisely
when the two are the same array.
-/

namespace PyModules.Modbus

/-- The types whose elements are returned as integers. -/
def PyDataType.Integer (type : PyDataType) : Prop := type ≠ .f16 ∧ type ≠ .d32

/-- The elements that the device answers to a function code. -/
def ReadEnv.elements (env : ReadEnv) (code : ℤ) : Option (List ℕ) :=
  if code = 1 ∨ code = 2 then env.bits.map (List.map UInt8.toNat)
  else env.words.map (List.map UInt16.toNat)

/-- The device answers with `k` elements; those of a bit code are bits. -/
def ReadEnv.Supplies (env : ReadEnv) (code : ℤ) (k : ℕ) : Prop :=
  ∃ data, env.elements code = some data ∧ data.length = k ∧
    (code = 1 ∨ code = 2 → ∀ b ∈ data, b ≤ 1)

/-- Answers of `k` elements that differ lead to lists that differ. -/
def TellsApart (target : Platform) (s : Proc Mem) (args : List PyObject) (code : ℤ) (k : ℕ) :
    Prop :=
  ∀ env env', env.Supplies code k → env'.Supplies code k →
    env.elements code ≠ env'.elements code →
    ∃ items items' s1 s2, (readRegisters target args env).run s = .ok (some (.list items), s1) ∧
      (readRegisters target args env').run s = .ok (some (.list items'), s2) ∧ items ≠ items'

/-- The size of an answer. -/
theorem ReadEnv.Supplies.answerLength {env : ReadEnv} {code : ℤ} {k : ℕ}
    (h : env.Supplies code k) : env.answerLength code = some k := by
  obtain ⟨data, hdata, hlength, _⟩ := h
  have hmap : env.answerLength code = (env.elements code).map List.length := by
    unfold ReadEnv.answerLength ReadEnv.elements
    split <;> simp [Function.comp_def]
  rw [hmap, hdata, Option.map_some, hlength]

/-- The decoded elements of two answers are the same. -/
def SameDecoded (type : PyDataType) (code : ℤ) (n : ℕ) (env env' : ReadEnv) : Prop :=
  ∀ i < n, decoded type (Dest.received code env) i = decoded type (Dest.received code env') i

/-- A read tells answers apart if the decoded elements determine the answer. -/
theorem Asks.tellsApart_iff {target : Platform} {args : List PyObject} {code : ℤ}
    {type : PyDataType} {n : ℕ} {s : Proc Mem} (h : Asks target s.mem args code type n) :
    TellsApart target s args code (type.width * n).toNat ↔
      ∀ env env', env.Supplies code (type.width * n).toNat →
        env'.Supplies code (type.width * n).toNat → SameDecoded type code n env env' →
        env.elements code = env'.elements code := by
  refine forall_congr' fun env => forall_congr' fun env' => imp_congr_right fun henv =>
    imp_congr_right fun henv' => ?_
  constructor
  · intro hapart hsame
    by_contra hne
    obtain ⟨items, items', s1, s2, hlist, hlist', hdiffer⟩ := hapart hne
    rw [h.items_eq henv.answerLength hlist, h.items_eq henv'.answerLength hlist'] at hdiffer
    exact hdiffer (List.map_congr_left fun i hi => hsame i (List.mem_range.mp hi))
  · intro hsame hne
    obtain ⟨s1, hrun⟩ := h.run henv.answerLength
    obtain ⟨s2, hrun'⟩ := h.run henv'.answerLength
    refine ⟨_, _, s1, s2, hrun, hrun', fun heq => hne (hsame fun i hi => ?_)⟩
    exact List.map_inj_left.mp heq i (List.mem_range.mpr hi)

/-! ## The right array -/

/-- The decoded bits determine the bits. -/
theorem elements_eq_of_bits {code : ℤ} (hbits : code = 1 ∨ code = 2) {n : ℕ} {env env' : ReadEnv}
    (henv : env.Supplies code n) (henv' : env'.Supplies code n)
    (hsame : SameDecoded .b08 code n env env') : env.elements code = env'.elements code := by
  obtain ⟨_, hdata, hlength, _⟩ := henv
  obtain ⟨_, hdata', hlength', _⟩ := henv'
  rw [ReadEnv.elements, if_pos hbits, Option.map_eq_some_iff] at hdata hdata'
  obtain ⟨bits, hsome, rfl⟩ := hdata
  obtain ⟨bits', hsome', rfl⟩ := hdata'
  rw [List.length_map] at hlength hlength'
  have heq : bits = bits' := by
    apply List.ext_getElem (hlength.trans hlength'.symm)
    intro i hi hi'
    have hitem := hsame i (by omega)
    simpa [decoded, Dest.received, hbits, hsome, hsome', List.getElem?_append_left, hi, hi',
      UInt8.toNat_inj] using hitem
  rw [ReadEnv.elements, ReadEnv.elements, if_pos hbits, if_pos hbits, hsome, hsome', heq]

/-- An integer decoded from registers determines their words. -/
theorem chunk_eq_of_decoded {type : PyDataType} (hint : type.Integer) (hwords : type ≠ .b08)
    {dest dest' : Dest} {i : ℕ}
    (hlength : (Words.chunk type.width.toNat i dest.u16).length = type.width.toNat)
    (hlength' : (Words.chunk type.width.toNat i dest'.u16).length = type.width.toNat)
    (h : decoded type dest i = decoded type dest' i) :
    Words.chunk type.width.toNat i dest.u16 = Words.chunk type.width.toNat i dest'.u16 := by
  apply Words.value_inj (hlength.trans hlength'.symm)
  have hlt := Words.value_lt (Words.chunk type.width.toNat i dest.u16)
  have hlt' := Words.value_lt (Words.chunk type.width.toNat i dest'.u16)
  rw [hlength] at hlt
  rw [hlength'] at hlt'
  cases type with
  | u16 => simpa [decoded] using h
  | s16 =>
    simp only [decoded, PyAtom.int.injEq] at h
    exact Words.eq_of_bmod_eq hlt hlt' h
  | u32 =>
    simp only [decoded, PyAtom.int.injEq] at h
    exact Words.eq_of_bmod_eq hlt hlt' h
  | s32 =>
    simp only [decoded, PyAtom.int.injEq] at h
    exact Words.eq_of_bmod_eq hlt hlt' h
  | f16 => exact absurd rfl hint.1
  | d32 => exact absurd rfl hint.2
  | b08 => exact absurd rfl hwords

/-- The number of elements requested, as a product of numbers. -/
theorem toNat_width_mul (type : PyDataType) (n : ℕ) :
    (type.width * n).toNat = type.width.toNat * n := by
  rw [Int.toNat_mul (width_pos type).le (Int.natCast_nonneg n), Int.toNat_natCast]

/-- The decoded integers determine the registers. -/
theorem elements_eq_of_words {code : ℤ} (hcode : code = 3 ∨ code = 4) {type : PyDataType}
    (hint : type.Integer) (hwords : type ≠ .b08) {n : ℕ} {env env' : ReadEnv}
    (henv : env.Supplies code (type.width * n).toNat)
    (henv' : env'.Supplies code (type.width * n).toNat)
    (hsame : SameDecoded type code n env env') : env.elements code = env'.elements code := by
  have hbits : ¬(code = 1 ∨ code = 2) := by omega
  obtain ⟨_, hdata, hlength, _⟩ := henv
  obtain ⟨_, hdata', hlength', _⟩ := henv'
  rw [ReadEnv.elements, if_neg hbits, Option.map_eq_some_iff] at hdata hdata'
  obtain ⟨r, hsome, rfl⟩ := hdata
  obtain ⟨r', hsome', rfl⟩ := hdata'
  rw [List.length_map, toNat_width_mul] at hlength hlength'
  have heq : r = r' := by
    apply Words.eq_of_chunks hlength hlength'
    intro i hi
    have hlast : i * type.width.toNat + type.width.toNat ≤ type.width.toNat * n := by
      rw [← Nat.succ_mul, Nat.mul_comm]
      exact Nat.mul_le_mul_left _ hi
    have hchunk := chunk_received hcode hsome (hlast.trans_eq hlength.symm)
    have hchunk' := chunk_received hcode hsome' (hlast.trans_eq hlength'.symm)
    have hsize := Words.length_chunk (hlast.trans_eq hlength.symm)
    have hsize' := Words.length_chunk (hlast.trans_eq hlength'.symm)
    rw [← hchunk] at hsize ⊢
    rw [← hchunk'] at hsize' ⊢
    exact chunk_eq_of_decoded hint hwords hsize hsize' (hsame i hi)
  rw [ReadEnv.elements, ReadEnv.elements, if_neg hbits, if_neg hbits, hsome, hsome', heq]

/-! ## The wrong array -/

/-- An answer of `k + 1` elements, the first of which is `b`, and the others are 0. -/
def firstElement (b k : ℕ) : ReadEnv :=
  ⟨some (.ofNat b :: List.replicate k 0), some (.ofNat b :: List.replicate k 0), ""⟩

/-- The elements are the same for every function code. -/
theorem elements_firstElement {b : ℕ} (hb : b ≤ 1) (k : ℕ) (code : ℤ) :
    (firstElement b k).elements code = some (b :: List.replicate k 0) := by
  have h8 : b % 256 = b := Nat.mod_eq_of_lt (by omega)
  have h16 : b % 65536 = b := Nat.mod_eq_of_lt (by omega)
  unfold ReadEnv.elements firstElement
  split <;> simp [h8, h16]

/-- The answer is one of bits. -/
theorem supplies_firstElement {b : ℕ} (hb : b ≤ 1) (k : ℕ) (code : ℤ) :
    (firstElement b k).Supplies code (k + 1) := by
  refine ⟨_, elements_firstElement hb k code, by simp, fun _ d hd => ?_⟩
  rcases List.mem_cons.mp hd with rfl | hd
  · exact hb
  · rw [List.eq_of_mem_replicate hd]
    exact Nat.zero_le 1

/-- Where the function code fills the other array, all answers are decoded alike. -/
theorem sameDecoded_of_mismatch {type : PyDataType} {code : ℤ}
    (h : ¬((code = 1 ∨ code = 2) ↔ type = .b08)) (n : ℕ) (env env' : ReadEnv) :
    SameDecoded type code n env env' := by
  intro i _
  by_cases hbits : code = 1 ∨ code = 2
  · have htype : type ≠ .b08 := fun htype => h (iff_of_true hbits htype)
    cases type <;> simp_all [decoded, Dest.received]
  · have htype : type = .b08 := by
      by_contra htype
      exact h (iff_of_false hbits htype)
    simp [htype, decoded, Dest.received, hbits]

/-- Where the function code fills the other array, two answers lead to the same list. -/
theorem Asks.not_tellsApart {target : Platform} {args : List PyObject} {code : ℤ}
    {type : PyDataType} {n : ℕ} {s : Proc Mem} (h : Asks target s.mem args code type n)
    (hpos : 1 ≤ n) (hmismatch : ¬((code = 1 ∨ code = 2) ↔ type = .b08)) :
    ¬TellsApart target s args code (type.width * n).toNat := by
  rw [h.tellsApart_iff]
  intro hapart
  have hsome : 0 < type.width * n := Int.mul_pos (width_pos type) (by omega)
  obtain ⟨k, hk⟩ : ∃ k, (type.width * n).toNat = k + 1 := ⟨(type.width * n).toNat - 1, by omega⟩
  rw [hk] at hapart
  have heq := hapart _ _ (supplies_firstElement (Nat.zero_le 1) k code)
    (supplies_firstElement le_rfl k code) (sameDecoded_of_mismatch hmismatch n _ _)
  rw [elements_firstElement (Nat.zero_le 1), elements_firstElement le_rfl] at heq
  simp at heq

/-- For a supported function code, an integer type, and at least one element, the returned list
tells all answers apart precisely when bits are read as `B08` and registers as another type. -/
theorem tellsApart_iff_paired {target : Platform} {args : List PyObject} {code : ℤ}
    {type : PyDataType} {n : ℕ} {s : Proc Mem} (h : Asks target s.mem args code type n)
    (hint : type.Integer) (hpos : 1 ≤ n) :
    TellsApart target s args code (type.width * n).toNat ↔
      ((code = 1 ∨ code = 2) ↔ type = .b08) := by
  constructor
  · intro hapart
    by_contra hmismatch
    exact h.not_tellsApart hpos hmismatch hapart
  · intro hpaired
    rw [h.tellsApart_iff]
    intro env env' henv henv' hsame
    rcases code_cases h.supported with hbits | ⟨hbits, hwords⟩
    · obtain rfl := hpaired.mp hbits
      have hsize : (PyDataType.b08.width * n).toNat = n := by simp [PyDataType.width]
      rw [hsize] at henv henv'
      exact elements_eq_of_bits hbits henv henv' hsame
    · have htype : type ≠ .b08 := fun htype => hbits (hpaired.mpr htype)
      exact elements_eq_of_words hwords hint htype henv henv' hsame

/-- Registers read as `U32` are told apart. -/
theorem u32_tellsApart : TellsApart armv7 ⟨none, Mem.held⟩ (readArgs 3 0 "U32" 2) 3 4 := by
  have hname : findType (lit "U32") = some .u32 := by decide +kernel
  have hasks := asks_readArgs "U32" 2 hname (by decide)
  exact (tellsApart_iff_paired (s := ⟨none, Mem.held⟩) hasks ⟨by decide, by decide⟩
    (by decide)).mpr (by decide)

/-- `read_registers([3, 0, 'B08'], 1)` returns the same list for all registers. -/
theorem b08_registers_not_tellsApart :
    ¬TellsApart armv7 ⟨none, Mem.held⟩ (readArgs 3 0 "B08" 1) 3 1 := by
  have hname : findType (lit "B08") = some .b08 := by decide +kernel
  have hasks := asks_readArgs "B08" 1 hname (by decide)
  exact Asks.not_tellsApart (s := ⟨none, Mem.held⟩) hasks le_rfl (by decide)

end PyModules.Modbus
