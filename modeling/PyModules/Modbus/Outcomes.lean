import PyModules.Modbus.Registers

/-!
# How far a block read gets

`read_registers` ends before anything is sent, or it sends one request. What comes after that
depends on the answer of the device, but the request does not.
-/

namespace PyModules.Modbus

/-- libmodbus builds a request: the context is live, and the count is within the limit. -/
structure Builds (mem : Mem) (code nb : ℤ) : Prop where
  supported : code ∈ [1, 2, 3, 4]
  live : mem.Live
  limit : nb ≤ readLimit code

/-- libmodbus sends a request: it builds one, and on a serial line the context has a slave
address. -/
structure Sends (mem : Mem) (code nb : ℤ) : Prop where
  supported : code ∈ [1, 2, 3, 4]
  ready : mem.Ready
  limit : nb ≤ readLimit code

/-! ## Requests without a result -/

section Request

variable {α : Type} {function : ℕ} {limit addr nb : ℤ} {dest : List α} {s : Proc Mem}

/-- Nothing is sent without a context, or beyond the limit. -/
theorem run_request_refused {ctx : Option ℕ} (answer : Option (List α))
    (h : ctx = none ∨ (∃ p c, ctx = some p ∧ s.mem.contexts.cell p = some c) ∧ limit < nb) :
    (request ctx function limit addr nb answer dest).run s = .ok (none, s) := by
  rcases h with rfl | ⟨⟨p, c, rfl, hlive⟩, hlimit⟩
  · rfl
  · simp [request, hlive, transmit, hlimit]

/-- A request cannot be built without a slave address. -/
theorem run_request_aborts {p : ℕ} {c : Context} (hlive : s.mem.contexts.cell p = some c)
    (hlimit : nb ≤ limit) (haddressed : ¬c.Addressed) (answer : Option (List α)) :
    (request (some p) function limit addr nb answer dest).run s = .error .abort := by
  simp [request, hlive, transmit, not_lt.mpr hlimit, run_assert_failed haddressed]

/-- A request that the device does not answer is sent all the same. -/
theorem run_request_unanswered {p : ℕ} {c : Context} (hlive : s.mem.contexts.cell p = some c)
    (haddressed : c.Addressed) (hlimit : nb ≤ limit) :
    (request (some p) function limit addr nb none dest).run s =
      .ok (none, ⟨s.err, s.mem.requested function addr nb⟩) := by
  simp [request, hlive, transmit, not_lt.mpr hlimit, assert_of_holds haddressed, Mem.requested]

/-- An answer that is longer than the array is stored past its end. -/
theorem run_request_overruns {p : ℕ} {c : Context} (hlive : s.mem.contexts.cell p = some c)
    (haddressed : c.Addressed) (hlimit : nb ≤ limit) {data : List α}
    (hlong : dest.length < data.length) :
    (request (some p) function limit addr nb (some data) dest).run s = .error .outOfBounds := by
  simp [request, hlive, transmit, not_lt.mpr hlimit, assert_of_holds haddressed,
    not_le.mpr hlong]

end Request

/-- The request for the bits or the registers of a block ends as `x` does, without a result. -/
def Requested (code addr nb : ℤ) (env : ReadEnv) (s : Proc Mem) (x : Except Fault (Proc Mem)) :
    Prop :=
  ∀ {α : Type} (answer : Option (List α)) (dest : List α),
    answer.map List.length = env.answerLength code → dest.length = MODBUS_MAX_READ_REGISTERS →
    (request s.mem.mb code.toNat (readLimit code) addr nb answer dest).run s =
      x.map fun s' => (none, s')

/-- A block read whose request has no result raises the message of libmodbus, or faults. -/
theorem run_readBlock_of_requested {target : Platform} {code addr pynb : ℤ} {type : PyDataType}
    {env : ReadEnv} {s : Proc Mem} {x : Except Fault (Proc Mem)} (hcode : code ∈ [1, 2, 3, 4])
    (h : Requested code addr (count type pynb) env s x) :
    (readBlock target code addr pynb type env).run s =
      x.map fun s' => (NULL, ⟨some ⟨.module, env.strerror⟩, s'.mem⟩) := by
  have hfull := Dest.full_zero
  unfold Requested readLimit ReadEnv.answerLength at h
  rcases code_cases hcode with hbits | ⟨hbits, hwords⟩
  · simp only [if_pos hbits] at h
    have hrequest := h env.bits Dest.zero.u08 rfl hfull.u08
    cases x <;> simp [readBlock, dispatch, hbits, modbusReadBits, hrequest, Except.map]
  · simp only [if_neg hbits] at h
    have hrequest := h env.words Dest.zero.u16 rfl hfull.u16
    cases x <;> simp [readBlock, dispatch, hbits, hwords, modbusReadRegisters, hrequest, Except.map]

/-! ## What a block read does -/

section Block

variable {target : Platform} {code addr pynb : ℤ} {type : PyDataType} {env : ReadEnv}
  {s : Proc Mem}

/-- Without a context, and beyond the limit, a block read raises and sends nothing. -/
theorem run_readBlock_refused (hcode : code ∈ [1, 2, 3, 4])
    (h : s.mem.mb = none ∨ s.mem.Live ∧ readLimit code < count type pynb) :
    (readBlock target code addr pynb type env).run s =
      .ok (NULL, ⟨some ⟨.module, env.strerror⟩, s.mem⟩) :=
  run_readBlock_of_requested (x := .ok s) hcode fun answer _ _ _ => run_request_refused answer h

/-- A block read uses a context that was freed. -/
theorem run_readBlock_stale (hcode : code ∈ [1, 2, 3, 4]) (hmb : s.mem.mb ≠ none)
    (h : ¬s.mem.Live) :
    (readBlock target code addr pynb type env).run s = .error .useAfterFree := by
  obtain ⟨p, hp⟩ := Option.ne_none_iff_exists'.mp hmb
  refine run_readBlock_freed hcode hp ?_
  by_contra hcell
  obtain ⟨c, hc⟩ := Option.ne_none_iff_exists'.mp hcell
  exact h ⟨p, c, hp, hc⟩

/-- A block read through a context without a slave address aborts. -/
theorem run_readBlock_aborts (h : Builds s.mem code (count type pynb)) (hready : ¬s.mem.Ready) :
    (readBlock target code addr pynb type env).run s = .error .abort := by
  obtain ⟨p, c, hp, hlive⟩ := h.live
  refine run_readBlock_of_requested (x := .error .abort) h.supported fun answer _ _ _ => ?_
  rw [hp]
  exact run_request_aborts hlive h.limit (fun haddressed => hready ⟨p, c, hp, hlive, haddressed⟩)
    answer

/-- A block that the device does not answer is requested, and the call raises. -/
theorem run_readBlock_unanswered (h : Sends s.mem code (count type pynb))
    (henv : env.answerLength code = none) :
    (readBlock target code addr pynb type env).run s =
      .ok (NULL, ⟨some ⟨.module, env.strerror⟩,
        s.mem.requested code.toNat addr (count type pynb)⟩) := by
  obtain ⟨p, c, hp, hlive, haddressed⟩ := h.ready
  refine run_readBlock_of_requested
    (x := .ok ⟨s.err, s.mem.requested code.toNat addr (count type pynb)⟩) h.supported
    fun answer dest hlength _ => ?_
  rw [henv, Option.map_eq_none_iff] at hlength
  rw [hp, hlength]
  exact run_request_unanswered hlive haddressed h.limit

/-- An answer that is longer than the array overruns it. -/
theorem run_readBlock_overruns (h : Sends s.mem code (count type pynb)) {n : ℕ}
    (henv : env.answerLength code = some n) (hlong : MODBUS_MAX_READ_REGISTERS < n) :
    (readBlock target code addr pynb type env).run s = .error .outOfBounds := by
  obtain ⟨p, c, hp, hlive, haddressed⟩ := h.ready
  refine run_readBlock_of_requested (x := .error .outOfBounds) h.supported
    fun answer dest hlength hdest => ?_
  rw [henv, Option.map_eq_some_iff] at hlength
  obtain ⟨data, rfl, rfl⟩ := hlength
  rw [hp]
  exact run_request_overruns hlive haddressed h.limit (hdest ▸ hlong)

/-- What is left of a block read once the device has answered. -/
def decodeBlock (target : Platform) (pynb : ℤ) (type : PyDataType) (dest : Dest) :
    CM Mem PyRef := do
  let pList ← listNew target pynb
  let pList ← setItems (element type dest) pynb.toNat 0 pList
  return pList.map .list

/-- An answer that fits the array is stored there, and decoded. -/
theorem run_readBlock_answered (h : Sends s.mem code (count type pynb))
    (hne : count type pynb ≠ -1) (hanswers : Answers s.mem code env) :
    (readBlock target code addr pynb type env).run s =
      (decodeBlock target pynb type (Dest.received code env)).run
        ⟨s.err, s.mem.requested code.toNat addr (count type pynb)⟩ := by
  obtain ⟨regs, hdispatch, hregs⟩ := run_dispatch_of_answers hanswers hne h.limit addr s.err
  simp only [readBlock, StateT.run_bind, run_getMem, ok_bind, hdispatch, if_neg hregs, decodeBlock]

end Block

/-! ## Decoding an answer -/

/-- There is a list of the requested length, and it has elements that lie outside the array. -/
def Outside (target : Platform) (pynb : ℤ) (type : PyDataType) : Prop :=
  (0 ≤ pynb ∧ pynb ≤ target.listMax) ∧ MODBUS_MAX_READ_REGISTERS < type.width * pynb

/-- Decoding an answer overruns the array, or it returns, or it writes to a list that could not
be created. -/
theorem decodeBlock_cases (target : Platform) (pynb : ℤ) (type : PyDataType) {dest : Dest}
    (hfull : dest.Full) (s : Proc Mem) :
    Outside target pynb type ∧
        (decodeBlock target pynb type dest).run s = .error .outOfBounds ∨
      ¬Outside target pynb type ∧
        ((∃ r err, (decodeBlock target pynb type dest).run s = .ok (r, ⟨err, s.mem⟩)) ∨
          (decodeBlock target pynb type dest).run s = .error .nullPointer) := by
  by_cases hlist : 0 ≤ pynb ∧ pynb ≤ target.listMax
  · have hitems := reads_setItems (reads_element type hfull) pynb.toNat 0 []
    have hnew := (run_listNew target pynb s).1 hlist
    by_cases hfits : type.width * pynb ≤ MODBUS_MAX_READ_REGISTERS
    · obtain ⟨pList, hset⟩ := hitems.returns ((fits_iff hlist.1).mpr hfits) s
      refine .inr ⟨fun h => absurd hfits (not_le.mpr h.2), .inl ⟨pList.map .list, s.err, ?_⟩⟩
      simp [decodeBlock, hnew, hset]
    · have hset := hitems.overruns (fun hall => hfits ((fits_iff hlist.1).mp hall)) s
      refine .inl ⟨⟨hlist, not_le.mp hfits⟩, ?_⟩
      simp [decodeBlock, hnew, hset]
  · refine .inr ⟨fun h => hlist h.1, ?_⟩
    obtain ⟨e, hnull⟩ := (run_listNew target pynb s).2 hlist
    cases hn : pynb.toNat with
    | zero => exact .inl ⟨NULL, some e, by simp [decodeBlock, hnull, hn, setItems, NULL]⟩
    | succ k =>
      -- The first element is within the array, and there is no list to put it in.
      have hfirst : type.width * ((0 : ℕ) + 1) ≤ MODBUS_MAX_READ_REGISTERS := by
        cases type <;> decide
      obtain ⟨v, hv⟩ := (reads_element type hfull 0).returns hfirst ⟨some e, s.mem⟩
      exact .inr (by simp [decodeBlock, hnull, hn, setItems, hv])

/-! ## What a block read can do -/

/-- The answer, or an element of the list, lies outside the array. -/
def ReadEnv.Overruns (env : ReadEnv) (target : Platform) (code pynb : ℤ) (type : PyDataType) :
    Prop :=
  ∃ n, env.answerLength code = some n ∧
    (MODBUS_MAX_READ_REGISTERS < n ∨ Outside target pynb type)

/-- A block read that sends its request leaves an array precisely if something lies outside of
it. Otherwise no other request is sent, unless an item is set in a list that was not created. -/
theorem readBlock_sent (target : Platform) (addr : ℤ) (env : ReadEnv) {code pynb : ℤ}
    {type : PyDataType} {s : Proc Mem} (h : Sends s.mem code (count type pynb))
    (hne : ∀ n, env.answerLength code = some n → count type pynb ≠ -1) :
    env.Overruns target code pynb type ∧
        (readBlock target code addr pynb type env).run s = .error .outOfBounds ∨
      ¬env.Overruns target code pynb type ∧
        ((∃ r err, (readBlock target code addr pynb type env).run s =
          .ok (r, ⟨err, s.mem.requested code.toNat addr (count type pynb)⟩)) ∨
        (readBlock target code addr pynb type env).run s = .error .nullPointer) := by
  unfold ReadEnv.Overruns
  cases hanswer : env.answerLength code with
  | none =>
    refine .inr ⟨?_, .inl ⟨NULL, _, run_readBlock_unanswered h hanswer⟩⟩
    rintro ⟨n, hn, _⟩
    cases hn
  | some n =>
    by_cases hlong : MODBUS_MAX_READ_REGISTERS < n
    · exact .inl ⟨⟨n, rfl, .inl hlong⟩, run_readBlock_overruns h hanswer hlong⟩
    · have hanswers : Answers s.mem code env :=
        ⟨h.ready, h.supported, n, hanswer, not_lt.mp hlong⟩
      rw [run_readBlock_answered h (hne n hanswer) hanswers]
      rcases decodeBlock_cases target pynb type hanswers.full_received _ with
        ⟨houtside, hrun⟩ | ⟨hinside, hrun⟩
      · exact .inl ⟨⟨n, rfl, .inr houtside⟩, hrun⟩
      · refine .inr ⟨?_, hrun⟩
        rintro ⟨_, hn, hout⟩
        cases hn
        exact hout.elim hlong hinside

/-- A block read that sends nothing raises the exception of the module, uses a context that was
freed, or aborts. -/
theorem readBlock_unsent (target : Platform) (addr : ℤ) (env : ReadEnv) {code pynb : ℤ}
    {type : PyDataType} {s : Proc Mem} (h : ¬Sends s.mem code (count type pynb)) :
    (∃ msg, (readBlock target code addr pynb type env).run s =
        .ok (NULL, ⟨some ⟨.module, msg⟩, s.mem⟩)) ∨
      (code ∈ [1, 2, 3, 4] ∧ s.mem.mb ≠ none ∧ ¬s.mem.Live) ∧
        (readBlock target code addr pynb type env).run s = .error .useAfterFree ∨
      (Builds s.mem code (count type pynb) ∧ ¬s.mem.Ready) ∧
        (readBlock target code addr pynb type env).run s = .error .abort := by
  by_cases hcode : code ∈ [1, 2, 3, 4]
  · by_cases hmb : s.mem.mb = none
    · exact .inl ⟨_, run_readBlock_refused hcode (.inl hmb)⟩
    · by_cases hlive : s.mem.Live
      · by_cases hlimit : count type pynb ≤ readLimit code
        · have hready : ¬s.mem.Ready := fun hready => h ⟨hcode, hready, hlimit⟩
          have hbuilds : Builds s.mem code (count type pynb) := ⟨hcode, hlive, hlimit⟩
          exact .inr (.inr ⟨⟨hbuilds, hready⟩, run_readBlock_aborts hbuilds hready⟩)
        · exact .inl ⟨_, run_readBlock_refused hcode (.inr ⟨hlive, not_le.mp hlimit⟩)⟩
      · exact .inr (.inl ⟨⟨hcode, hmb, hlive⟩, run_readBlock_stale hcode hmb hlive⟩)
  · exact .inl ⟨_, run_readBlock_unsupported hcode s⟩

end PyModules.Modbus
