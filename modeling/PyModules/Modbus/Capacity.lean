import PyModules.Modbus.Outcomes

/-!
# The size of the destination arrays

Both arrays have as many elements as libmodbus requests registers at most. More bits than
that can be requested, and a count that wraps around is not the size of the list. Apart from
these two cases, no read leaves an array.
-/

namespace PyModules.Modbus

/-- How many elements libmodbus stores after a success: all bits up to `nb`, and all registers
of the response, which are as many as were requested on the wire. -/
def storedLength (code nb : ℤ) : ℕ :=
  if code = 1 ∨ code = 2 then nb.toNat else (nb % 2 ^ 16).toNat

/-- The most bits or registers in a response, whose data has up to 251 bytes. -/
def responseLimit (code : ℤ) : ℤ := if code = 1 ∨ code = 2 then 251 * 8 else 251 / 2

/-- If the device answers, libmodbus stores what it accepts as a response. -/
def ReadEnv.Conforms (env : ReadEnv) (code nb : ℤ) : Prop :=
  ∀ n, env.answerLength code = some n → n = storedLength code nb ∧ nb % 2 ^ 16 ≤ responseLimit code

/-- No answer makes the read leave an array. -/
def WithinArrays (target : Platform) (args : List PyObject) (code nb : ℤ) : Prop :=
  ∀ s env, env.Conforms code nb → (readRegisters target args env).run s ≠ .error .outOfBounds

/-- A block read leaves an array precisely if it sends its request, and the answer or an element
of the list lies outside of the array. -/
theorem readBlock_overruns_iff {target : Platform} {code pynb : ℤ} {type : PyDataType}
    {env : ReadEnv} (hne : ∀ n, env.answerLength code = some n → count type pynb ≠ -1) (addr : ℤ)
    (s : Proc Mem) :
    (readBlock target code addr pynb type env).run s = .error .outOfBounds ↔
      Sends s.mem code (count type pynb) ∧ env.Overruns target code pynb type := by
  by_cases hsends : Sends s.mem code (count type pynb)
  · rw [and_iff_right hsends]
    rcases readBlock_sent target addr env hsends hne with
      ⟨hout, hrun⟩ | ⟨hin, ⟨r, err, hrun⟩ | hrun⟩
    · exact iff_of_true hrun hout
    · simp [hrun, hin]
    · simp [hrun, hin]
  · refine iff_of_false ?_ fun h => hsends h.1
    rcases readBlock_unsent target addr env hsends with ⟨e, hrun⟩ | ⟨_, hrun⟩ | ⟨_, hrun⟩
    · simp [hrun]
    · simp [hrun]
    · simp [hrun]

/-- The answer of zeros that the device may give. -/
def zeros (code nb : ℤ) : ReadEnv :=
  ⟨some (List.replicate (storedLength code nb) 0),
    some (List.replicate (storedLength code nb) 0), ""⟩

/-- The size of the answer. -/
theorem answerLength_zeros (code nb : ℤ) :
    (zeros code nb).answerLength code = some (storedLength code nb) := by
  unfold zeros ReadEnv.answerLength
  split <;> simp

/-- What is stored fits the array if the count does, and the other way round if it is accepted. -/
theorem storedLength_fits_iff {code nb : ℤ} (hlimit : nb ≤ readLimit code)
    (hresponse : nb % 2 ^ 16 ≤ responseLimit code) :
    storedLength code nb ≤ MODBUS_MAX_READ_REGISTERS ↔ nb ≤ MODBUS_MAX_READ_REGISTERS := by
  unfold storedLength
  unfold readLimit at hlimit
  unfold responseLimit at hresponse
  unfold MODBUS_MAX_READ_REGISTERS at hlimit ⊢
  split <;> rename_i hbits
  · omega
  · rw [if_neg hbits] at hlimit hresponse
    omega

/-- A count of -1 is not accepted. -/
theorem ne_of_response {code nb : ℤ} (h : nb % 2 ^ 16 ≤ responseLimit code) : nb ≠ -1 := by
  rintro rfl
  unfold responseLimit at h
  split at h <;> omega

/-- A count or a list that does not fit makes the read leave an array. -/
theorem not_withinArrays {target : Platform} {args : List PyObject} {code addr pynb : ℤ}
    {type : PyDataType} (h : Invokes target args code addr pynb type) (hcode : code ∈ [1, 2, 3, 4])
    (hlimit : count type pynb ≤ readLimit code)
    (hresponse : count type pynb % 2 ^ 16 ≤ responseLimit code)
    (hout : MODBUS_MAX_READ_REGISTERS < count type pynb ∨ Outside target pynb type) :
    ¬WithinArrays target args code (count type pynb) := by
  intro hwithin
  have hconforms : (zeros code (count type pynb)).Conforms code (count type pynb) := by
    intro n hn
    rw [answerLength_zeros] at hn
    exact ⟨(Option.some.inj hn).symm, hresponse⟩
  obtain ⟨err, hblock⟩ := run_of_invokes h ⟨none, Mem.held⟩
  apply hwithin ⟨none, Mem.held⟩ _ hconforms
  rw [hblock, readBlock_overruns_iff fun _ _ => ne_of_response hresponse]
  refine ⟨⟨hcode, ready_held, hlimit⟩, _, answerLength_zeros code _, hout.imp_left fun hcount => ?_⟩
  rw [← not_le, storedLength_fits_iff hlimit hresponse]
  exact not_le.mpr hcount

/-- With a function code that libmodbus reads and a count that it can answer, a read stays within
the arrays precisely if the count fits, and so do all elements of the list. -/
theorem withinArrays_iff {target : Platform} {args : List PyObject} {code addr pynb : ℤ}
    {type : PyDataType} (h : Invokes target args code addr pynb type) :
    WithinArrays target args code (count type pynb) ↔
      (code ∈ [1, 2, 3, 4] → count type pynb ≤ readLimit code →
        count type pynb % 2 ^ 16 ≤ responseLimit code →
        count type pynb ≤ MODBUS_MAX_READ_REGISTERS ∧
          (0 ≤ pynb → pynb ≤ target.listMax →
            type.width * pynb ≤ MODBUS_MAX_READ_REGISTERS)) := by
  constructor
  · intro hwithin hcode hlimit hresponse
    constructor
    · by_contra hcount
      exact not_withinArrays h hcode hlimit hresponse (.inl (not_le.mp hcount)) hwithin
    · intro hnonneg hmax
      by_contra hlist
      exact not_withinArrays h hcode hlimit hresponse
        (.inr ⟨⟨hnonneg, hmax⟩, not_le.mp hlist⟩) hwithin
  · intro hfits s env hconforms
    obtain ⟨err, hblock⟩ := run_of_invokes h s
    rw [hblock, Ne, readBlock_overruns_iff fun n hn => ne_of_response (hconforms n hn).2]
    rintro ⟨hsends, n, hn, hout⟩
    obtain ⟨rfl, hresponse⟩ := hconforms n hn
    obtain ⟨hcount, hlist⟩ := hfits hsends.supported hsends.limit hresponse
    rcases hout with hstored | ⟨⟨hnonneg, hmax⟩, hout⟩
    · exact absurd ((storedLength_fits_iff hsends.limit hresponse).mpr hcount) (not_le.mpr hstored)
    · exact absurd (hlist hnonneg hmax) (not_le.mpr hout)

/-- `read_registers([3, 0, 'D32'], 31)` reads 124 registers, and stays within the array. -/
theorem d32_withinArrays : WithinArrays armv7 (readArgs 3 0 "D32" 31) 3 124 := by
  have hinvokes : Invokes armv7 (readArgs 3 0 "D32" 31) 3 0 31 .d32 :=
    ⟨.int 3, .int 0, lit "D32", parseRead_readArgs 3 0 "D32" (by decide), by decide +kernel,
      by decide, by decide⟩
  exact (withinArrays_iff hinvokes).mpr (by decide)

/-- `read_registers([1, 0, 'B08'], 126)` reads 126 bits, one more than the array holds. -/
theorem b08_not_withinArrays : ¬WithinArrays armv7 (readArgs 1 0 "B08" 126) 1 126 := by
  have hinvokes : Invokes armv7 (readArgs 1 0 "B08" 126) 1 0 126 .b08 :=
    ⟨.int 1, .int 0, lit "B08", parseRead_readArgs 1 0 "B08" (by decide), by decide +kernel,
      by decide, by decide⟩
  exact not_withinArrays hinvokes (by decide) (by decide) (by decide) (.inl (by decide))

end PyModules.Modbus
