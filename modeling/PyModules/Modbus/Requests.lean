import PyModules.Modbus.Outcomes

/-!
# The request that is sent

Between the objects that `read_registers` is given and the request stand two conversions to
`int`, the comparison of three bytes of the type name, and a multiplication. None of them is
checked. This file says when the request is the one that the objects describe.
-/

namespace PyModules.Modbus

/-- The request that three items and a count describe. -/
structure Describes (codeObj addrObj typeObj : PyAtom) (pynb : ℤ) (request : Request) : Prop where
  code : codeObj.intValue = some (request.function : ℤ) ∧ request.function ∈ [1, 2, 3, 4]
  addr : addrObj.intValue = some request.addr ∧ 0 ≤ request.addr ∧ request.addr ≤ 65535
  nb : ∃ type name, (type, name) ∈ typeNames ∧ typeObj = .str (some name) ∧
    request.nb = type.width * pynb

/-- Whatever the device answers, the call raises and sends nothing, or it sends the request that
its arguments describe. A call that leaves an array later on has sent the request before; one that
uses a freed context or aborts has not. -/
def Faithful (target : Platform) (s : Proc Mem) (args : List PyObject)
    (codeObj addrObj typeObj : PyAtom) (pynb : ℤ) : Prop :=
  ∀ env,
    (∃ s', (readRegisters target args env).run s = .ok (NULL, s') ∧ s'.err ≠ none ∧
      s'.mem.requests = s.mem.requests) ∨
    ∃ request, Describes codeObj addrObj typeObj pynb request ∧
      (readRegisters target args env).run s ≠ .error .useAfterFree ∧
      (readRegisters target args env).run s ≠ .error .abort ∧
      ∀ r s', (readRegisters target args env).run s = .ok (r, s') →
        s'.mem.requests = s.mem.requests ++ [request]

/-- The conversions and the multiplication lose nothing. -/
structure Lossless (target : Platform) (codeObj addrObj : PyAtom) (typeName : List UInt8)
    (type : PyDataType) (pynb : ℤ) : Prop where
  code : codeObj.intValue = some (toInt32 (cLong target codeObj))
  addr : ∃ v, addrObj.intValue = some v ∧ 0 ≤ v ∧ v < 2 ^ 16
  name : typeName.length = 3
  nb : 0 ≤ pynb ∧ type.width * pynb < 2 ^ 16

/-! ## The type name -/

/-- The names are told apart. -/
theorem findType_name {type : PyDataType} {name : List UInt8} (h : (type, name) ∈ typeNames) :
    findType name = some type ∧ name.length = 3 := by
  have hall : ∀ entry ∈ typeNames, findType entry.2 = some entry.1 ∧ entry.2.length = 3 := by
    decide +kernel
  exact hall _ h

/-- A text of three bytes that is found is a name. -/
theorem name_of_findType {type : PyDataType} {name : List UInt8} (h : findType name = some type)
    (hlength : name.length = 3) : (type, name) ∈ typeNames := by
  rw [findType, Option.map_eq_some_iff] at h
  obtain ⟨entry, hfind, rfl⟩ := h
  have hmem := List.mem_of_find?_eq_some hfind
  have hprefix : entry.2 <+: name := by simpa using List.find?_some hfind
  have hname := hprefix.eq_of_length ((findType_name hmem).2.trans hlength.symm)
  rwa [← hname]

/-! ## The request -/

/-- A small address is converted as it is. -/
theorem addr_of_lossless {target : Platform} (hlong : 32 ≤ target.longBits) {addrObj : PyAtom}
    {v : ℤ} (hv : addrObj.intValue = some v) (hrange : 0 ≤ v ∧ v < 2 ^ 16) :
    toInt32 (cLong target addrObj) % 2 ^ 16 = v := by
  have hpow : (2 : ℤ) ^ 31 ≤ 2 ^ (target.longBits - 1) :=
    pow_le_pow_right₀ (by omega) (by omega)
  have hlow : -2 ^ (target.longBits - 1) ≤ v ∧ v < 2 ^ (target.longBits - 1) := by omega
  have hsmall : toInt32 v = v := Int.bmod_eq_of_le_mul_two (by omega) (by omega)
  rw [cLong, hv]
  simp only [if_pos hlow, hsmall]
  omega

/-- A count that does not wrap around on the wire. -/
theorem count_of_lossless {type : PyDataType} {pynb : ℤ} (hnonneg : 0 ≤ pynb)
    (hnb : type.width * pynb < 2 ^ 16) :
    count type pynb = type.width * pynb ∧ 0 ≤ type.width * pynb := by
  have hproduct : 0 ≤ type.width * pynb := Int.mul_nonneg (width_pos type).le hnonneg
  refine ⟨?_, hproduct⟩
  rw [count, toInt32]
  exact Int.bmod_eq_of_le_mul_two (by omega) (by omega)

/-- The request that is sent is the one that is described precisely if nothing is lost. -/
theorem describes_iff_lossless {target : Platform} (hlong : 32 ≤ target.longBits)
    {codeObj addrObj : PyAtom} {typeName : List UInt8} {type : PyDataType} {pynb : ℤ}
    (htype : findType typeName = some type)
    (hcode : toInt32 (cLong target codeObj) ∈ [1, 2, 3, 4]) :
    Describes codeObj addrObj (.str (some typeName)) pynb
        ⟨(toInt32 (cLong target codeObj)).toNat, toInt32 (cLong target addrObj) % 2 ^ 16,
          count type pynb % 2 ^ 16⟩ ↔
      Lossless target codeObj addrObj typeName type pynb := by
  have hnonneg : 0 ≤ toInt32 (cLong target codeObj) := by
    rcases code_cases hcode with h | ⟨_, h⟩ <;> omega
  constructor
  · rintro ⟨⟨hfunction, _⟩, ⟨haddr, hlow, hhigh⟩, type', name, hname, hstr, hnb⟩
    obtain rfl := Option.some.inj (PyAtom.str.inj hstr)
    obtain ⟨hfind, hlength⟩ := findType_name hname
    obtain rfl := Option.some.inj (htype.symm.trans hfind)
    dsimp only at hfunction haddr hlow hhigh hnb
    have hpos := width_pos type
    refine ⟨?_, ⟨_, haddr, hlow, by omega⟩, hlength, ?_, by omega⟩
    · rwa [Int.toNat_of_nonneg hnonneg] at hfunction
    · have hproduct : 0 ≤ type.width * pynb := by omega
      exact nonneg_of_mul_nonneg_right hproduct hpos
  · rintro ⟨hfunction, ⟨v, hv, hrange⟩, hlength, hcount, hnb⟩
    obtain ⟨hexact, hproduct⟩ := count_of_lossless hcount hnb
    refine ⟨⟨?_, ?_⟩, ?_, type, typeName, name_of_findType htype hlength, rfl, ?_⟩
    · rwa [Int.toNat_of_nonneg hnonneg]
    · rcases code_cases hcode with (h | h) | ⟨_, h | h⟩ <;> simp [h]
    · have hhigh : v ≤ 65535 := by omega
      rw [addr_of_lossless hlong hv hrange]
      exact ⟨hv, hrange.1, hhigh⟩
    · rw [hexact]
      exact Int.emod_eq_of_lt hproduct hnb

/-- No answer. -/
def silent : ReadEnv := ⟨none, none, ""⟩

theorem answerLength_silent (code : ℤ) : silent.answerLength code = none := by
  simp [silent, ReadEnv.answerLength]

/-- Once a request is sent, the call is faithful precisely if nothing is lost. -/
theorem faithful_iff_of_sends {target : Platform} (hlong : 32 ≤ target.longBits)
    {args : List PyObject} {codeObj addrObj : PyAtom} {typeName : List UInt8} {pynb : ℤ}
    {type : PyDataType} {s : Proc Mem}
    (hparse : parseRead args = some ([codeObj, addrObj, .str (some typeName)], pynb))
    (htype : findType typeName = some type)
    (hsends : Sends s.mem (toInt32 (cLong target codeObj)) (count type pynb)) :
    Faithful target s args codeObj addrObj (.str (some typeName)) pynb ↔
      Lossless target codeObj addrObj typeName type pynb := by
  obtain ⟨err, hblock⟩ := run_of_invokes (invokes_of_parse target hparse htype) s
  rw [← describes_iff_lossless hlong htype hsends.supported]
  constructor
  · intro hfaithful
    -- The request shows when the device does not answer.
    have hsilent := (hblock silent).trans (run_readBlock_unanswered (s := ⟨err, s.mem⟩) hsends
      (answerLength_silent _))
    rcases hfaithful silent with ⟨s', hrun, _, hquiet⟩ | ⟨request, hdescribes, _, _, hsent⟩
    · rw [hsilent] at hrun
      cases hrun
      simp [Mem.requested] at hquiet
    · have hrequests := List.append_cancel_left (hsent _ _ hsilent)
      rwa [← (List.cons.inj hrequests).1] at hdescribes
  · intro hdescribes env
    have hlossless := (describes_iff_lossless hlong htype hsends.supported).mp hdescribes
    obtain ⟨hexact, hproduct⟩ := count_of_lossless hlossless.nb.1 hlossless.nb.2
    refine .inr ⟨_, hdescribes, ?_⟩
    rw [hblock]
    rcases readBlock_sent target (toInt32 (cLong target addrObj)) env (s := ⟨err, s.mem⟩) hsends
      (fun _ _ => by omega) with ⟨_, hrun⟩ | ⟨_, ⟨r, err', hrun⟩ | hrun⟩
    · simp [hrun]
    · rw [hrun]
      refine ⟨by simp, by simp, fun r' s' h => ?_⟩
      cases h
      rfl
    · simp [hrun]

/-- A faithful call is given a type name with an encoding, for otherwise NULL is compared. -/
theorem Faithful.name {target : Platform} {args : List PyObject}
    {codeObj addrObj typeObj : PyAtom} {pynb : ℤ} {s : Proc Mem}
    (h : Faithful target s args codeObj addrObj typeObj pynb)
    (hparse : parseRead args = some ([codeObj, addrObj, typeObj], pynb)) :
    ∃ typeName, typeObj = .str (some typeName) := by
  by_contra hname
  rcases h silent with ⟨s', hrun, _⟩ | ⟨_, hdescribes, _⟩
  · rw [run_readRegisters_null hparse hname] at hrun
    cases hrun
  · obtain ⟨_, name, _, hstr, _⟩ := hdescribes.nb
    exact hname ⟨name, hstr⟩

/-- A faithful call uses no freed context. -/
theorem Faithful.live {target : Platform} {args : List PyObject} {codeObj addrObj : PyAtom}
    {typeName : List UInt8} {pynb : ℤ} {type : PyDataType} {s : Proc Mem}
    (h : Faithful target s args codeObj addrObj (.str (some typeName)) pynb)
    (hparse : parseRead args = some ([codeObj, addrObj, .str (some typeName)], pynb))
    (htype : findType typeName = some type)
    (hcode : toInt32 (cLong target codeObj) ∈ [1, 2, 3, 4]) (hmb : s.mem.mb ≠ none) :
    s.mem.Live := by
  by_contra hdead
  obtain ⟨err, hblock⟩ := run_of_invokes (invokes_of_parse target hparse htype) s
  have hstale := (hblock silent).trans (run_readBlock_stale (s := ⟨err, s.mem⟩) hcode hmb hdead)
  rcases h silent with ⟨s', hrun, _⟩ | ⟨_, _, hsafe, _⟩
  · rw [hstale] at hrun
    cases hrun
  · exact hsafe hstale

/-- A faithful call does not abort: the context that a request is built for has a slave address. -/
theorem Faithful.ready {target : Platform} {args : List PyObject} {codeObj addrObj : PyAtom}
    {typeName : List UInt8} {pynb : ℤ} {type : PyDataType} {s : Proc Mem}
    (h : Faithful target s args codeObj addrObj (.str (some typeName)) pynb)
    (hparse : parseRead args = some ([codeObj, addrObj, .str (some typeName)], pynb))
    (htype : findType typeName = some type)
    (hbuilds : Builds s.mem (toInt32 (cLong target codeObj)) (count type pynb)) :
    s.mem.Ready := by
  by_contra hready
  obtain ⟨err, hblock⟩ := run_of_invokes (invokes_of_parse target hparse htype) s
  have habort := (hblock silent).trans (run_readBlock_aborts (s := ⟨err, s.mem⟩) hbuilds hready)
  rcases h silent with ⟨s', hrun, _⟩ | ⟨_, _, _, hsafe, _⟩
  · rw [habort] at hrun
    cases hrun
  · exact hsafe habort

/-- The call is faithful precisely if the type name is a string with an encoding and, once its
first three bytes name a type, the function code is supported, and there is a context, the context
is live and, if the count is within the limit, the context has a slave address if it is one for a
serial line, and the conversions and the multiplication lose nothing. -/
theorem faithful_iff {target : Platform} (hlong : 32 ≤ target.longBits) {args : List PyObject}
    {codeObj addrObj typeObj : PyAtom} {pynb : ℤ} {s : Proc Mem}
    (hparse : parseRead args = some ([codeObj, addrObj, typeObj], pynb)) :
    Faithful target s args codeObj addrObj typeObj pynb ↔
      ∃ typeName, typeObj = .str (some typeName) ∧ ∀ type, findType typeName = some type →
        toInt32 (cLong target codeObj) ∈ [1, 2, 3, 4] → s.mem.mb ≠ none →
        s.mem.Live ∧ (count type pynb ≤ readLimit (toInt32 (cLong target codeObj)) →
          s.mem.Ready ∧ Lossless target codeObj addrObj typeName type pynb) := by
  constructor
  · intro hfaithful
    obtain ⟨typeName, rfl⟩ := hfaithful.name hparse
    refine ⟨typeName, rfl, fun type htype hcode hmb => ?_⟩
    have hlive := hfaithful.live hparse htype hcode hmb
    refine ⟨hlive, fun hlimit => ?_⟩
    have hready := hfaithful.ready hparse htype ⟨hcode, hlive, hlimit⟩
    exact ⟨hready,
      (faithful_iff_of_sends hlong hparse htype ⟨hcode, hready, hlimit⟩).mp hfaithful⟩
  · rintro ⟨typeName, rfl, hcondition⟩
    cases htype : findType typeName with
    | none =>
      intro env
      exact .inl ⟨_, run_readRegisters_unknown hparse htype env s, Option.some_ne_none _, rfl⟩
    | some type =>
      by_cases hsends : Sends s.mem (toInt32 (cLong target codeObj)) (count type pynb)
      · obtain ⟨p, c, hmb, _⟩ := hsends.ready
        have hlossless := (hcondition type htype hsends.supported
          (Option.ne_none_iff_exists'.mpr ⟨p, hmb⟩)).2 hsends.limit
        exact (faithful_iff_of_sends hlong hparse htype hsends).mpr hlossless.2
      · intro env
        obtain ⟨err, hblock⟩ := run_of_invokes (invokes_of_parse target hparse htype) s
        rcases readBlock_unsent target (toInt32 (cLong target addrObj)) env (s := ⟨err, s.mem⟩)
          hsends with ⟨e, hrun⟩ | ⟨⟨hcode, hmb, hdead⟩, _⟩ | ⟨⟨hbuilds, hready⟩, _⟩
        · exact .inl ⟨_, (hblock env).trans hrun, Option.some_ne_none _, rfl⟩
        · exact absurd (hcondition type htype hcode hmb).1 hdead
        · obtain ⟨p, c, hmb, _⟩ := hbuilds.live
          have hneeds := hcondition type htype hbuilds.supported
            (Option.ne_none_iff_exists'.mpr ⟨p, hmb⟩)
          exact absurd (hneeds.2 hbuilds.limit).1 hready

/-- `read_registers([3, 0, 'U16'], 1)` is faithful. -/
theorem u16_faithful :
    Faithful armv7 ⟨none, Mem.held⟩ (readArgs 3 0 "U16" 1) (.int 3) (.int 0)
      (.str (some (lit "U16"))) 1 := by
  have hparse := parseRead_readArgs 3 0 "U16" (n := 1) (by decide)
  refine (faithful_iff (by decide) hparse).mpr ⟨lit "U16", rfl, fun type htype _ _ => ?_⟩
  have hname : findType (lit "U16") = some .u16 := by decide +kernel
  rw [hname, Option.some.injEq] at htype
  subst htype
  refine ⟨ready_held.live, fun _ => ⟨ready_held, ?_⟩⟩
  exact ⟨by decide, ⟨0, by decide⟩, by decide +kernel, by decide⟩

/-- `read_registers([3, 0, 'U16x'], 1)` sends a request. -/
theorem u16x_not_faithful :
    ¬Faithful armv7 ⟨none, Mem.held⟩ (readArgs 3 0 "U16x" 1) (.int 3) (.int 0)
      (.str (some (lit "U16x"))) 1 := by
  have hparse := parseRead_readArgs 3 0 "U16x" (n := 1) (by decide)
  have hname : findType (lit "U16x") = some .u16 := by decide +kernel
  rw [faithful_iff_of_sends (by decide) hparse hname ⟨by decide, ready_held, by decide⟩]
  intro hlossless
  exact absurd hlossless.name (by decide +kernel)

end PyModules.Modbus
