import PyModules.Library.Decimal
import PyModules.Library.Text
import PyModules.Modbus.Capacity
import PyModules.Modbus.Pairing

/-!
# The polling script

`test.py` opens the serial line and then reads eight blocks in turn, for ever. Each read ends
as a line of text, whether the device answers or not. This file follows the script from its
first call: what it asks the device for, and what it makes of the answers.
-/

namespace PyModules.Modbus

/-! ## Calls from Python -/

/-- How a call ends for its caller in Python. -/
inductive Ending
  | value (o : PyObject)
  | raised (e : PyErr)
  deriving DecidableEq, Repr

/-- The interpreter calls a function of the module and checks its result. -/
def pyCall (x : CM Mem PyRef) (mem : Mem) : Except Fault (Ending × Mem) := do
  let (r, s) ← x.run ⟨none, mem⟩
  match r, s.err with
  | some o, none => return (.value o, s.mem)
  | none, some e => return (.raised e, s.mem)
  | none, none => return (.raised ⟨.system, "NULL without an exception"⟩, s.mem)
  | some _, some _ => return (.raised ⟨.system, "a result with an exception"⟩, s.mem)

/-- `str` of an object; `repr` gives the text of everything but integers. -/
def str (repr : PyAtom → String) : PyObject → String
  | .atom a => item a
  | .list items => "[" ++ ", ".intercalate (items.map item) ++ "]"
where
  /-- The text of a single object. -/
  item : PyAtom → String
    | .int v => toString v
    | a => repr a

/-! ## The script -/

/-- What `caller` is asked to read. -/
structure ReadList where
  code : ℤ
  addr : ℤ
  type : String
  deriving DecidableEq, Repr

/-- `cmds` -/
def cmds : List ReadList :=
  [⟨3, 1, "D32"⟩, ⟨3, 10, "U16"⟩, ⟨3, 12, "S16"⟩, ⟨3, 20, "F16"⟩, ⟨1, 1, "B08"⟩, ⟨1, 1, "B08"⟩,
    ⟨4, 0, "U32"⟩, ⟨4, 0x07D0, "S32"⟩]

/-- `'Code = ' + str(readlist[0]) + ' Addr = %4d'%(readlist[1]) + '  =>  '` -/
def ReadList.header (r : ReadList) : String :=
  "Code = " ++ toString r.code ++ " Addr = " ++ "".pushn ' ' (4 - (toString r.addr).length) ++
    toString r.addr ++ "  =>  "

/-- The process of the script: the module and what was printed. -/
structure Console where
  mem : Mem
  printed : List String

section Script

variable (target : Platform) (repr : PyAtom → String)

/-- `caller`, where `env` is the answer of the device. -/
def caller (r : ReadList) (len : ℤ) (env : ReadEnv) (c : Console) :
    Except Fault (String × Console) := do
  match ← pyCall (readRegisters target (readArgs r.code r.addr r.type len) env) c.mem with
  | (.value o, mem) =>
    let msg := r.header ++ str repr o
    return (msg ++ "\r\n", ⟨mem, c.printed ++ [msg]⟩)
  | (.raised err, mem) => return (r.header ++ err.msg ++ "\r\n", ⟨mem, c.printed ++ [err.msg]⟩)

/-- The loop over the commands from the `j`-th one on. -/
def pollFrom (answers : ℕ → ReadEnv) : List ReadList → ℕ → String → Console →
    Except Fault (String × Console)
  | [], _, data, c => return (data, c)
  | cmd :: cmds, j, data, c => do
    let (msg, c) ← caller target repr cmd 2 (answers j) c
    pollFrom answers cmds (j + 1) (data ++ msg) c

/-- The outer loop from round `k` on, `todo` rounds: `data` at the end of each. -/
def pollRounds (answers : ℕ → ℕ → ReadEnv) : ℕ → ℕ → Console →
    Except Fault (List String × Console)
  | 0, _, c => return ([], c)
  | todo + 1, k, c => do
    let (data, c) ← pollFrom target repr (answers k) cmds 0 "" c
    let (rest, c) ← pollRounds answers todo (k + 1) c
    return (data :: rest, c)

/-- `test.py` up to the end of some round, or up to the exception of `new_rtu`, which it does
not catch. -/
def script (env : NewEnv) (answers : ℕ → ℕ → ReadEnv) (rounds : ℕ) :
    Except Fault (Option (List String) × Console) := do
  match ← pyCall (newRtu [.atom (.str (some (lit "/dev/ttymxc1")))] env) Mem.initial with
  | (.raised _, mem) => return (none, ⟨mem, []⟩)
  | (.value o, mem) =>
    let (datas, c) ← pollRounds target repr answers rounds 0 ⟨mem, [str repr o]⟩
    return (some datas, c)

end Script

/-! ## One read -/

/-- The data type that a command names. -/
def ReadList.dataType (r : ReadList) : PyDataType := (findType (lit r.type)).getD .u16

/-- The request for `n` elements. -/
def ReadList.request (r : ReadList) (n : ℕ) : Request :=
  ⟨r.code.toNat, r.addr, r.dataType.width * n⟩

/-- The text that an answer leads to. -/
def ReadList.text (repr : PyAtom → String) (r : ReadList) (n : ℕ) (env : ReadEnv) : String :=
  if (env.answerLength r.code).isSome then
    str repr (.list ((List.range n).map (decoded r.dataType (Dest.received r.code env))))
  else env.strerror

/-- The command asks for `n` elements that the device can be asked for. -/
structure ReadList.Valid (r : ReadList) (n : ℕ) : Prop where
  name : findType (lit r.type) = some r.dataType
  code : r.code ∈ [1, 2, 3, 4]
  addr : 0 ≤ r.addr ∧ r.addr < 2 ^ 16
  fits : r.dataType.width * n ≤ MODBUS_MAX_READ_REGISTERS

/-- The module holds a context for the first slave on the serial line. -/
def Mem.Opened (mem : Mem) : Prop :=
  ∃ p, mem.mb = some p ∧ mem.contexts.cell p = some ⟨.rtu, 1⟩

/-- The memory after some requests. -/
def Mem.sent (mem : Mem) (requests : List Request) : Mem :=
  { mem with requests := mem.requests ++ requests }

/-- A number of 16 bits is converted without an exception. -/
theorem cLong_int {target : Platform} (hlong : 32 ≤ target.longBits) {v : ℤ}
    (hv : 0 ≤ v ∧ v < 2 ^ 16) : toInt32 (cLong target (.int v)) = v ∧
      longFailure target (.int v) = none := by
  have hpow : (2 : ℤ) ^ 31 ≤ 2 ^ (target.longBits - 1) :=
    pow_le_pow_right₀ (by omega) (by omega)
  have hrange : -2 ^ (target.longBits - 1) ≤ v ∧ v < 2 ^ (target.longBits - 1) := by omega
  have hsmall : toInt32 v = v := Int.bmod_eq_of_le_mul_two (by omega) (by omega)
  simp [cLong, longFailure, PyAtom.intValue, hrange, hsmall]

/-- What a valid read does, whatever the device answers. -/
theorem run_readRegisters_valid {target : Platform} (hlong : 32 ≤ target.longBits)
    {r : ReadList} {n : ℕ} (hn : (n : ℤ) ≤ target.listMax) (h : r.Valid n) {env : ReadEnv}
    (henv : env.Conforms r.code (r.dataType.width * n)) {mem : Mem} (hready : mem.Ready) :
    (readRegisters target (readArgs r.code r.addr r.type n) env).run ⟨none, mem⟩ =
      if (env.answerLength r.code).isSome then
        .ok (some (.list ((List.range n).map (decoded r.dataType (Dest.received r.code env)))),
          ⟨none, mem.sent [r.request n]⟩)
      else .ok (NULL, ⟨some ⟨.module, env.strerror⟩, mem.sent [r.request n]⟩) := by
  have hcount := le_width_mul r.dataType (Int.natCast_nonneg n)
  have hfits := h.fits
  have hcode : 0 ≤ r.code ∧ r.code < 2 ^ 16 := by
    rcases code_cases h.code with hbits | ⟨_, hwords⟩ <;> omega
  obtain ⟨hc, hcfail⟩ := cLong_int hlong hcode
  obtain ⟨ha, hafail⟩ := cLong_int hlong h.addr
  have hparse := parseRead_readArgs r.code r.addr r.type (n := n) (by
    unfold INT_MIN INT_MAX MODBUS_MAX_READ_REGISTERS at *
    omega)
  have hrequest : ∀ m : Mem, m.requested r.code.toNat r.addr (r.dataType.width * n) =
      m.sent [r.request n] := by
    have haddr : r.addr % 2 ^ 16 = r.addr := Int.emod_eq_of_lt h.addr.1 h.addr.2
    have hnb : r.dataType.width * n % 2 ^ 16 = r.dataType.width * n := by
      unfold MODBUS_MAX_READ_REGISTERS at hfits
      omega
    intro m
    rw [Mem.requested, haddr, hnb]
    rfl
  obtain ⟨hexact, _⟩ := count_of_fits (Int.natCast_nonneg n) hfits
  have hsends : Sends mem r.code (count r.dataType n) :=
    ⟨h.code, hready, hexact ▸ le_readLimit hfits r.code⟩
  rw [run_readRegisters hparse h.name, hc, ha, hcfail, hafail]
  cases hanswer : env.answerLength r.code with
  | none =>
    have hrun : (readBlock target r.code r.addr n r.dataType env).run ⟨none, mem⟩ = _ :=
      run_readBlock_unanswered hsends hanswer
    rw [hexact, hrequest] at hrun
    exact hrun
  | some k =>
    obtain ⟨rfl, hresponse⟩ := henv k hanswer
    have hstored := (storedLength_fits_iff (hexact ▸ hsends.limit) hresponse).mpr hfits
    have hdelivers : Delivers target mem r.code n r.dataType env :=
      ⟨⟨hready, h.code, _, hanswer, hstored⟩, Int.natCast_nonneg n, hn, hfits⟩
    have hrun := run_readBlock hdelivers r.addr none
    rw [Int.toNat_natCast, hrequest] at hrun
    exact hrun

/-! ## Runs -/

/-- The line that `caller` returns. -/
def ReadList.line (repr : PyAtom → String) (r : ReadList) (n : ℕ) (env : ReadEnv) : String :=
  r.header ++ r.text repr n env ++ "\r\n"

/-- The line that it prints: the header is left out of failures. -/
def ReadList.shown (repr : PyAtom → String) (r : ReadList) (n : ℕ) (env : ReadEnv) : String :=
  if (env.answerLength r.code).isSome then r.header ++ r.text repr n env else r.text repr n env

/-- The commands that are left, each with its answer, make up the rest of the data. -/
def dataFrom (repr : PyAtom → String) (answers : ℕ → ReadEnv) (rs : List ReadList) (j : ℕ) :
    String :=
  String.join ((rs.zipIdx j).map fun entry => entry.1.line repr 2 (answers entry.2))

/-- What is printed for them. -/
def shownFrom (repr : PyAtom → String) (answers : ℕ → ReadEnv) (rs : List ReadList) (j : ℕ) :
    List String :=
  (rs.zipIdx j).map fun entry => entry.1.shown repr 2 (answers entry.2)

/-- Every answer is one that libmodbus accepts for its request. -/
def Conforming (answers : ℕ → ReadEnv) (rs : List ReadList) (j : ℕ) : Prop :=
  ∀ entry ∈ rs.zipIdx j,
    (answers entry.2).Conforms entry.1.code (entry.1.dataType.width * (2 : ℕ))

/-- Requests that follow each other. -/
@[simp] theorem Mem.sent_sent (mem : Mem) (before after : List Request) :
    (mem.sent before).sent after = mem.sent (before ++ after) := by
  simp [Mem.sent]

/-- Requests leave the context as it is. -/
theorem Mem.Opened.sent {mem : Mem} (h : mem.Opened) (requests : List Request) :
    (mem.sent requests).Opened := h

/-- A context for the first slave is ready. -/
theorem Mem.Opened.ready {mem : Mem} (h : mem.Opened) : mem.Ready := by
  obtain ⟨p, hmb, hcell⟩ := h
  exact ⟨p, _, hmb, hcell, by decide⟩

/-- The commands of the script can be asked for. -/
theorem valid_of_mem_cmds {r : ReadList} (hr : r ∈ cmds) : r.Valid 2 := by
  have hall : ∀ r ∈ cmds, findType (lit r.type) = some r.dataType ∧ r.code ∈ [1, 2, 3, 4] ∧
      (0 ≤ r.addr ∧ r.addr < 2 ^ 16) ∧
      r.dataType.width * (2 : ℕ) ≤ MODBUS_MAX_READ_REGISTERS := by
    decide +kernel
  obtain ⟨hname, hcode, haddr, hfits⟩ := hall r hr
  exact ⟨hname, hcode, haddr, hfits⟩

section Runs

variable {target : Platform} {repr : PyAtom → String}

/-- A valid read sends its request, prints and returns a line. -/
theorem run_caller (hlong : 32 ≤ target.longBits) {r : ReadList} {n : ℕ}
    (hn : (n : ℤ) ≤ target.listMax) (h : r.Valid n) {env : ReadEnv}
    (henv : env.Conforms r.code (r.dataType.width * n)) {c : Console} (hready : c.mem.Ready) :
    caller target repr r n env c = .ok (r.line repr n env,
      ⟨c.mem.sent [r.request n], c.printed ++ [r.shown repr n env]⟩) := by
  have hrun := run_readRegisters_valid hlong hn h henv hready
  cases hanswer : env.answerLength r.code with
  | none =>
    rw [hanswer] at hrun
    simp [caller, pyCall, hrun, NULL, ReadList.line, ReadList.shown, ReadList.text, hanswer]
  | some k =>
    rw [hanswer] at hrun
    simp [caller, pyCall, hrun, ReadList.line, ReadList.shown, ReadList.text, hanswer]

/-- The loop over the commands sends their requests in order, and collects their lines. -/
theorem run_pollFrom (hlong : 32 ≤ target.longBits) (hmax : 2 ≤ target.listMax)
    {answers : ℕ → ReadEnv} {rs : List ReadList} (hvalid : ∀ r ∈ rs, r.Valid 2) {j : ℕ}
    (hanswers : Conforming answers rs j) (data : String) {c : Console}
    (hopened : c.mem.Opened) :
    pollFrom target repr answers rs j data c =
      .ok (data ++ dataFrom repr answers rs j,
        ⟨c.mem.sent (rs.map fun r => r.request 2),
          c.printed ++ shownFrom repr answers rs j⟩) := by
  induction rs generalizing j data c with
  | nil => simp [pollFrom, dataFrom, shownFrom, Mem.sent]
  | cons r rs ih =>
    rw [Conforming, List.zipIdx_cons] at hanswers
    have hcaller : caller target repr r 2 (answers j) c = _ :=
      run_caller hlong hmax (hvalid r List.mem_cons_self) (hanswers _ List.mem_cons_self)
        hopened.ready
    have hrest := ih (fun r hr => hvalid r (List.mem_cons_of_mem _ hr))
      (fun entry hentry => hanswers entry (List.mem_cons_of_mem _ hentry))
      (data ++ r.line repr 2 (answers j))
      (c := ⟨c.mem.sent [r.request 2], c.printed ++ [r.shown repr 2 (answers j)]⟩)
      (hopened.sent _)
    rw [pollFrom, hcaller, ok_bind]
    refine hrest.trans ?_
    simp [dataFrom, shownFrom, String.append_assoc]

/-- So does every round. -/
theorem run_pollRounds (hlong : 32 ≤ target.longBits) (hmax : 2 ≤ target.listMax)
    {answers : ℕ → ℕ → ReadEnv} (hanswers : ∀ k, Conforming (answers k) cmds 0) {todo k : ℕ}
    {c : Console} (hopened : c.mem.Opened) :
    pollRounds target repr answers todo k c =
      .ok ((List.range' k todo).map fun k => dataFrom repr (answers k) cmds 0,
        ⟨c.mem.sent (List.replicate todo (cmds.map fun r => r.request 2)).flatten,
          c.printed ++
            (List.range' k todo).flatMap fun k => shownFrom repr (answers k) cmds 0⟩) := by
  induction todo generalizing k c with
  | zero => simp [pollRounds, Mem.sent]
  | succ todo ih =>
    have hround : pollFrom target repr (answers k) cmds 0 "" c = _ :=
      run_pollFrom hlong hmax (fun r hr => valid_of_mem_cmds hr) (hanswers k) "" hopened
    have hrest := ih (k := k + 1) (c := ⟨c.mem.sent (cmds.map fun r => r.request 2),
      c.printed ++ shownFrom repr (answers k) cmds 0⟩) (hopened.sent _)
    rw [pollRounds, hround, ok_bind]
    dsimp only
    rw [hrest, ok_bind]
    simp [List.range'_succ, List.replicate_succ]

/-- `new_rtu` of the script ends with a context for the first slave, or with an exception. -/
theorem run_open (env : NewEnv) :
    ∃ mem, mem.requests = [] ∧ pyCall (newRtu [.atom (.str (some (lit "/dev/ttymxc1")))] env)
        Mem.initial =
      .ok (if env.creates && env.connects then .value (.atom (.bool true))
        else .raised ⟨.module, env.strerror⟩, mem) ∧
      (env.creates && env.connects → mem.Opened) := by
  have hparse : parseNewRtu [.atom (.str (some (lit "/dev/ttymxc1")))] =
      some ⟨lit "/dev/ttymxc1", 9600, 78, 8, 1⟩ := by
    decide +kernel
  cases hcreates : env.creates with
  | false =>
    have hrun := run_construct_null .rtu hcreates ⟨none, Mem.initial⟩
    refine ⟨_, ?_, by simp [pyCall, newRtu, hparse, hrun, NULL]; rfl, by simp⟩
    rfl
  | true =>
    cases hconnects : env.connects with
    | false =>
      have hrun := run_construct_dead .rtu hcreates hconnects ⟨none, Mem.initial⟩
      refine ⟨_, ?_, by simp [pyCall, newRtu, hparse, hrun, NULL]; rfl, by simp⟩
      rfl
    | true =>
      have hrun := run_construct_held .rtu hcreates hconnects ⟨none, Mem.initial⟩
      refine ⟨_, ?_, by simp [pyCall, newRtu, hparse, hrun, pyTrue]; rfl, fun _ => ?_⟩
      · rfl
      · exact ⟨0, rfl, rfl⟩

/-- Every run of the script, up to the end of any round. If `new_rtu` fails, its exception ends
the script, and nothing was sent. Otherwise no exception leaves `caller` and no call faults;
through one live context for slave 1, each round sends the eight requests that the commands
describe, in their order, and its data are their eight lines, in the same order. -/
theorem script_polls (hlong : 32 ≤ target.longBits) (hmax : 2 ≤ target.listMax)
    (repr : PyAtom → String) (env : NewEnv) {answers : ℕ → ℕ → ReadEnv}
    (hanswers : ∀ k, Conforming (answers k) cmds 0) (rounds : ℕ) :
    ∃ outcome c, script target repr env answers rounds = .ok (outcome, c) ∧
      if env.creates && env.connects then
        outcome = some ((List.range rounds).map fun k => dataFrom repr (answers k) cmds 0) ∧
        c.printed = repr (.bool true) ::
          (List.range rounds).flatMap (fun k => shownFrom repr (answers k) cmds 0) ∧
        c.mem.requests = (List.replicate rounds (cmds.map fun r => r.request 2)).flatten ∧
        c.mem.Opened
      else outcome = none ∧ c.printed = [] ∧ c.mem.requests = [] := by
  obtain ⟨mem, hquiet, hopen, hopened⟩ := run_open env
  cases hconnects : env.creates && env.connects with
  | false =>
    rw [hconnects] at hopen
    exact ⟨none, ⟨mem, []⟩, by simp [script, hopen], by simp [hquiet]⟩
  | true =>
    rw [hconnects] at hopen
    have hrun :
        pollRounds target repr answers rounds 0 ⟨mem, [str repr (.atom (.bool true))]⟩ = _ :=
      run_pollRounds hlong hmax hanswers (hopened hconnects)
    have hscript : script target repr env answers rounds =
        (pollRounds target repr answers rounds 0 ⟨mem, [str repr (.atom (.bool true))]⟩).map
          fun run => (some run.1, run.2) := by
      rw [script, hopen, ok_bind]
      rfl
    rw [hrun] at hscript
    refine ⟨_, _, hscript, ?_⟩
    rw [if_pos rfl, List.range_eq_range']
    exact ⟨rfl, rfl, by simp [Mem.sent, hquiet], (hopened hconnects).sent _⟩

end Runs

/-- The answer of zeros to each command. -/
def zeroAnswers (j : ℕ) : ReadEnv :=
  match cmds[j]? with
  | some r => zeros r.code (r.dataType.width * 2)
  | none => zeros 3 0

/-- libmodbus accepts them. -/
theorem conforming_zeroAnswers : Conforming zeroAnswers cmds 0 := by
  have hall : ∀ entry ∈ cmds.zipIdx 0, (zeroAnswers entry.2).answerLength entry.1.code =
      some (storedLength entry.1.code (entry.1.dataType.width * (2 : ℕ))) ∧
      entry.1.dataType.width * (2 : ℕ) % 2 ^ 16 ≤ responseLimit entry.1.code := by
    decide +kernel
  intro entry hentry k hk
  obtain ⟨hlength, hresponse⟩ := hall entry hentry
  rw [hlength, Option.some.injEq] at hk
  exact ⟨hk.symm, hresponse⟩

/-- The texts of `True` and of zeros. -/
def zeroRepr : PyAtom → String
  | .bool true => "True"
  | _ => "0.0"

/-- Three rounds with a device that answers zeros. -/
theorem script_polls_zeros :
    ∃ outcome c, script armv7 zeroRepr ⟨true, true, ""⟩ (fun _ => zeroAnswers) 3 =
        .ok (outcome, c) ∧
      if true && true then
        outcome = some ((List.range 3).map fun _ => dataFrom zeroRepr zeroAnswers cmds 0) ∧
        c.printed = "True" ::
          (List.range 3).flatMap (fun _ => shownFrom zeroRepr zeroAnswers cmds 0) ∧
        c.mem.requests = (List.replicate 3 (cmds.map fun r => r.request 2)).flatten ∧
        c.mem.Opened
      else outcome = none ∧ c.printed = [] ∧ c.mem.requests = [] :=
  script_polls (by decide) (by decide) _ _ (fun _ => conforming_zeroAnswers) 3

/-! ## What the lines tell -/

/-- Lists of integers of one length have different texts. -/
theorem str_inj {repr : PyAtom → String} {items items' : List PyAtom}
    (hlength : items.length = items'.length) (hitems : ∀ a ∈ items, ∃ v, a = .int v)
    (hitems' : ∀ a ∈ items', ∃ v, a = .int v)
    (h : str repr (.list items) = str repr (.list items')) : items = items' := by
  have hcomma : ∀ {items : List PyAtom}, (∀ a ∈ items, ∃ v, a = .int v) →
      ∀ l ∈ (items.map (str.item repr)).map String.toList, ',' ∉ l := by
    intro items hints l hl hmem
    simp only [List.map_map, List.mem_map, Function.comp_apply] at hl
    obtain ⟨a, ha, rfl⟩ := hl
    obtain ⟨v, rfl⟩ := hints a ha
    rcases Decimal.isNumeral_of_mem_toString hmem with hminus | hdigit
    · exact absurd hminus (by decide)
    · exact absurd hdigit (by decide)
  have hbody := (String.append_right_inj _).mp ((String.append_left_inj _).mp h)
  have hchars := congrArg String.toList hbody
  rw [String.toList_intercalate, String.toList_intercalate] at hchars
  have htexts := Text.intercalate_inj (by simpa using hlength) (hcomma hitems) (hcomma hitems')
    hchars
  rw [List.map_inj_right fun _ _ => String.toList_inj.mp] at htexts
  apply List.ext_getElem hlength
  intro i hi hi'
  obtain ⟨v, hv⟩ := hitems _ (List.getElem_mem hi)
  obtain ⟨v', hv'⟩ := hitems' _ (List.getElem_mem hi')
  have htext : str.item repr items[i] = str.item repr items'[i] := by
    have hget := congrArg (fun l => l[i]?) htexts
    simpa [hi, hi'] using hget
  rw [hv, hv'] at htext ⊢
  have hread := Decimal.read_toString v
  rw [show toString v = toString v' from htext, Decimal.read_toString, Option.some.injEq] at hread
  rw [hread]

/-- An integer type is decoded into integers. -/
theorem decoded_int {type : PyDataType} (hint : type.Integer) (dest : Dest) (i : ℕ) :
    ∃ v, decoded type dest i = .int v := by
  cases type with
  | f16 => exact absurd rfl hint.1
  | d32 => exact absurd rfl hint.2
  | u16 | u32 | s16 | s32 | b08 => exact ⟨_, rfl⟩

/-- An answer of the size asked for is one that libmodbus accepts. -/
theorem ReadEnv.Supplies.conforms {env : ReadEnv} {code nb : ℤ} (h : env.Supplies code nb.toNat)
    (hnonneg : 0 ≤ nb) (hfits : nb ≤ MODBUS_MAX_READ_REGISTERS) : env.Conforms code nb := by
  intro k hk
  rw [h.answerLength, Option.some.injEq] at hk
  unfold MODBUS_MAX_READ_REGISTERS at hfits
  unfold storedLength responseLimit
  split <;> omega

/-- For bits as `B08` and for registers as another type of integers, different answers of the
device lead to different lines. -/
theorem lines_tellApart {target : Platform} {repr : PyAtom → String}
    (hlong : 32 ≤ target.longBits) {r : ReadList} {n : ℕ} (hn : (n : ℤ) ≤ target.listMax)
    (h : r.Valid n) (hint : r.dataType.Integer)
    (hpaired : (r.code = 1 ∨ r.code = 2) ↔ r.dataType = .b08) {env env' : ReadEnv}
    (henv : env.Supplies r.code (r.dataType.width * n).toNat)
    (henv' : env'.Supplies r.code (r.dataType.width * n).toNat)
    (hdiffer : env.elements r.code ≠ env'.elements r.code) {c : Console} (hready : c.mem.Ready) :
    ∃ line line' c1 c2, caller target repr r n env c = .ok (line, c1) ∧
      caller target repr r n env' c = .ok (line', c2) ∧ line ≠ line' := by
  have hnonneg : 0 ≤ r.dataType.width * n :=
    Int.mul_nonneg (width_pos r.dataType).le (Int.natCast_nonneg n)
  refine ⟨_, _, _, _, run_caller hlong hn h (henv.conforms hnonneg h.fits) hready,
    run_caller hlong hn h (henv'.conforms hnonneg h.fits) hready, fun hline => hdiffer ?_⟩
  have htext : r.text repr n env = r.text repr n env' :=
    (String.append_right_inj _).mp ((String.append_left_inj _).mp hline)
  rw [ReadList.text, ReadList.text, henv.answerLength, henv'.answerLength] at htext
  have hints : ∀ env : ReadEnv, ∀ a ∈ (List.range n).map
      (decoded r.dataType (Dest.received r.code env)), ∃ v, a = .int v := by
    intro env a ha
    obtain ⟨i, _, rfl⟩ := List.mem_map.mp ha
    exact decoded_int hint _ i
  have hlists := str_inj (by simp) (hints env) (hints env') htext
  have hsame : SameDecoded r.dataType r.code n env env' := fun i hi =>
    List.map_inj_left.mp hlists i (List.mem_range.mpr hi)
  rcases code_cases h.code with hbits | ⟨hbits, hwords⟩
  · have htype := hpaired.mp hbits
    rw [htype] at hsame henv henv'
    have hsize : (PyDataType.b08.width * n).toNat = n := by simp [PyDataType.width]
    rw [hsize] at henv henv'
    exact elements_eq_of_bits hbits henv henv' hsame
  · have htype : r.dataType ≠ .b08 := fun htype => hbits (hpaired.mpr htype)
    exact elements_eq_of_words hwords hint htype henv henv' hsame

/-- The registers 5, 65535 and 5, 0 lead to different lines. -/
theorem lines_tellApart_u16 :
    ∃ line line' c1 c2, caller armv7 (fun _ => "") ⟨3, 10, "U16"⟩ 2 ⟨none, some [5, 65535], ""⟩
        ⟨Mem.held, []⟩ = .ok (line, c1) ∧
      caller armv7 (fun _ => "") ⟨3, 10, "U16"⟩ 2 ⟨none, some [5, 0], ""⟩ ⟨Mem.held, []⟩ =
        .ok (line', c2) ∧ line ≠ line' := by
  have hname : findType (lit "U16") = some .u16 := by decide +kernel
  have htype : ReadList.dataType ⟨3, 10, "U16"⟩ = .u16 := by rw [ReadList.dataType, hname]; rfl
  have hvalid : ReadList.Valid ⟨3, 10, "U16"⟩ 2 := by
    refine ⟨by rw [htype]; exact hname, by decide, by decide, ?_⟩
    rw [htype]
    decide
  refine lines_tellApart (n := 2) (by decide) (by decide) hvalid ?_ ?_ ?_ ?_ (by decide) ready_held
  · rw [htype]
    exact ⟨by decide, by decide⟩
  · rw [htype]
    decide
  · rw [htype]
    exact ⟨_, rfl, rfl, by decide⟩
  · rw [htype]
    exact ⟨_, rfl, rfl, by decide⟩

end PyModules.Modbus
