import PyModules.Lte.Chunks

/-!
# Fixed buffers

`call` and `led` format their commands into 32 bytes, and `cmd_lte` turns a buffer of
256 bytes into a Python string. The lengths come from Python and from the modem.
-/

namespace PyModules.Lte

open Overlap

/-- What arrives at a buffer of fixed size: a number to call, a status for the LED, or
a block of one to 256 bytes in answer to a command given to `cmd_lte`. -/
inductive Arrival
  | number (o : PyObject)
  | ledStatus (o : PyObject)
  | block (cmd : {cmd : List UInt8 // 0 ∉ cmd})
      (b : {b : List UInt8 // b ≠ [] ∧ b.length ≤ maxRecvBufSize})
  deriving DecidableEq

/-- The delivery of one block. -/
def Delivery.single (b : {b : List UInt8 // b ≠ [] ∧ b.length ≤ maxRecvBufSize}) : Delivery where
  parts := [b.val]
  nonempty := by simpa using b.property.1
  one := by simp
  few := by simp
  fits := by simpa using b.property.2

/-- The buffers hold what arrives: a formatted command fits, and a buffer that is turned
into a string holds a NUL and gives the bytes received. -/
def Bounded (mem : Mem Script) : Arrival → Prop
  | .number o => exec mem (.command (.call [o])) ≠ .error .outOfBounds
  | .ledStatus o => exec mem (.command (.led [o])) ≠ .error .outOfBounds
  | .block cmd b => okToken <:+: b.val →
      0 ∈ fill b.val ∧
      (Command.cmdLte [.atom (.str (some cmd.val))]).verdict mem (.single b) =
        returns b.val none

/-- When they do: a number has at most 25 bytes, and a block that contains `OK` has at
most 255 bytes, holds no NUL, and is UTF-8. -/
def FitsBuffers : Arrival → Prop
  | .number o => ∀ num, convertStr o = some num → num.length ≤ 25
  | .ledStatus _ => True
  | .block _ b => okToken <:+: b.val →
      0 ∉ b.val ∧ b.val.length < maxRecvBufSize ∧ utf8Valid b.val = true

/-- A command that is only sent does not fault on a connected line. -/
theorem sendOnly_returns {s : Proc (Mem Script)} (h : Connected s.mem) (cmd : List UInt8) :
    (sendOnly cmd).run s = .ok (pyTrue, s) := by
  simp only [sendOnly, StateT.run_bind, run_ctxSend h, write_script, ok_bind]
  simp [withTty]

/-- Formatting a number for `call` stays in the buffer when it has at most 25 bytes. -/
theorem call_fits_iff {s : Proc (Mem Script)} (h : Connected s.mem) {num : List UInt8}
    {args : List PyObject} (hnum : parseOne convertStr args = some num) :
    (call args).run s ≠ .error .outOfBounds ↔ num.length ≤ 25 := by
  by_cases hfit : num.length ≤ 25
  · rw [call_eq hnum hfit, sendOnly_returns h]
    simp [hfit]
  · rw [run_call_long hnum hfit]
    simp [hfit]

/-- `led` only formats a status of one digit. -/
theorem led_in_bounds {s : Proc (Mem Script)} (h : Connected s.mem) (args : List PyObject) :
    (led args).run s ≠ .error .outOfBounds := by
  cases hst : parseOne convertInt args with
  | none => simp [led, hst]
  | some st =>
    by_cases hrange : -1 < st ∧ st < 2
    · rw [run_led h hst hrange rfl]
      rcases received (Tty.write (ledText st) s.mem.tty).2 with ⟨_ | b, tty⟩
      · simp
      · simp
    · have hbad : st ≤ -1 ∨ st ≥ 2 := by omega
      simp [led, hst, hbad]

/-- The string built from a filled buffer is the block when the block holds no NUL,
leaves room for one, and is UTF-8. -/
theorem built_eq_returns_iff {b : List UInt8} (hb : b.length ≤ maxRecvBufSize)
    (err : Option PyErr) :
    0 ∈ fill b ∧ built (cString (fill b)) err = returns b err ↔
      0 ∉ b ∧ b.length < maxRecvBufSize ∧ utf8Valid b = true := by
  rw [nul_mem_fill hb, cString_fill b hb]
  by_cases hroom : 0 ∈ b ∨ b.length < maxRecvBufSize
  · rw [if_pos hroom, built]
    by_cases hnul : 0 ∈ b
    · have hne : b.takeWhile (· ≠ 0) ≠ b := fun heq => takeWhile_eq_self_iff.mp heq hnul
      have hword : ∀ valid : Bool, (if valid then returns (b.takeWhile (· ≠ 0)) err
          else .ok (NULL, some ⟨.unicodeDecode (b.takeWhile (· ≠ 0)), "invalid utf-8"⟩)) ≠
            returns b err := by
        rintro (_ | _) heq
        · cases heq
        · simp only [returns, if_true, Except.ok.injEq, Prod.mk.injEq, Option.some.injEq,
            PyObject.atom.injEq, PyAtom.str.injEq, and_true] at heq
          exact hne heq
      exact iff_of_false (fun h => hword _ h.2) (fun h => h.1 hnul)
    · have hlen : b.length < maxRecvBufSize := hroom.resolve_left hnul
      rw [takeWhile_eq_self_iff.mpr hnul]
      by_cases hvalid : utf8Valid b = true
      · simp [hvalid, hnul, hlen]
      · simp [hvalid, returns, NULL]
  · obtain ⟨hnul, hlen⟩ := not_or.mp hroom
    exact iff_of_false (fun h => hroom h.1) (fun h => hlen h.2.1)

/-- On a connected line, the buffers hold what arrives precisely when it fits them. -/
theorem bounded_iff_fits {mem : Mem Script} (h : Connected mem) (a : Arrival) :
    Bounded mem a ↔ FitsBuffers a := by
  cases a with
  | number o =>
    simp only [Bounded, FitsBuffers]
    cases hnum : convertStr o with
    | none => simp [exec, Call.body, Command.body, call, parseOne, hnum]
    | some num =>
      have hone : parseOne convertStr [o] = some num := hnum
      have hfits := call_fits_iff (s := ⟨none, mem⟩) h hone
      simpa [exec, Call.body, Command.body] using hfits
  | ledStatus o => exact iff_of_true (led_in_bounds h [o]) trivial
  | block cmd b =>
    have hcmd : parseOne convertStr [.atom (.str (some cmd.val))] = some cmd.val := by
      simp [parseOne, convertStr, cmd.property]
    simp only [Bounded, FitsBuffers]
    refine imp_congr_right fun hok => ?_
    have hverdict : (Command.cmdLte [.atom (.str (some cmd.val))]).verdict mem (.single b) =
        built (cString (fill b.val)) none := by
      have htty : (awaiting mem (.single b)).mem.tty = ⟨[some b.val]⟩ := rfl
      refine (verdict_cmdLte h ?_ htty b.property.2).trans ?_
      · simp [Command.Reaches, hcmd]
      · rw [if_pos hok]
        rfl
    rw [hverdict]
    exact built_eq_returns_iff b.property.2 none

/-- A plain reply of `ATI`. -/
def plainReply : {b : List UInt8 // b ≠ [] ∧ b.length ≤ maxRecvBufSize} :=
  ⟨lit "\r\nME909s-821\r\n\r\nOK\r\n", by decide⟩

/-- A plain reply reaches Python as it is. -/
theorem plainReply_bounded :
    Bounded connectedMem (.block ⟨lit "ATI\r\n", by decide⟩ plainReply) := by
  refine (bounded_iff_fits connectedMem_connected _).mpr fun _ => ?_
  exact ⟨by decide +kernel, by decide +kernel, utf8Valid_of_ascii (by decide +kernel)⟩

/-- A number of 26 digits overflows the buffer of `call`. -/
theorem call_overflows :
    ¬Bounded connectedMem (.number (.atom (.str (some (List.replicate 26 49))))) := by
  intro h
  exact h rfl

end PyModules.Lte
