import Mathlib.Data.List.TakeWhile
import PyModules.Lte.Calls
import PyModules.Lte.Script

/-!
# Commands on a connected line

Once a context is connected, what a command does is a function of the line alone.
This file evaluates the shared pieces of the commands there: sending, receiving a
block into the zeroed buffer, searching it, and turning it into a Python string.
-/

namespace PyModules.Lte

open Overlap

variable {π : Type}

/-- The process after its line moved on. -/
def withTty (s : Proc (Mem π)) (tty : π) : Proc (Mem π) :=
  { s with mem := { s.mem with tty := tty } }

@[simp] theorem withTty_tty (s : Proc (Mem π)) (tty : π) : (withTty s tty).mem.tty = tty := rfl

/-- Connection is a matter of the context, not of the line. -/
theorem Connected.withTty {s : Proc (Mem π)} (h : Connected s.mem) (tty : π) :
    Connected (withTty s tty).mem := h

/-- A receive buffer after a block was read into it. -/
def fill (b : List UInt8) : List UInt8 := b ++ List.replicate (maxRecvBufSize - b.length) 0

@[simp] theorem fill_length {b : List UInt8} (h : b.length ≤ maxRecvBufSize) :
    (fill b).length = maxRecvBufSize := by
  simp only [fill, List.length_append, List.length_replicate]
  omega

/-- A byte of a filled buffer: the block's own or zero. -/
theorem fill_getElem? {b : List UInt8} (hb : b.length ≤ maxRecvBufSize) {i : ℕ}
    (hi : i < maxRecvBufSize) : (fill b)[i]? = some (b.getD i 0) := by
  rcases Nat.lt_or_ge i b.length with hlt | hge
  · rw [fill, List.getElem?_append_left hlt, List.getD_eq_getElem?_getD,
      List.getElem?_eq_getElem hlt]
    rfl
  · rw [fill, List.getElem?_append_right hge, List.getElem?_replicate, if_pos (by omega),
      List.getD_eq_getElem?_getD, List.getElem?_eq_none hge]
    rfl

/-- Overwriting a zeroed buffer fills it. -/
theorem append_drop_zeroBuffer (b : List UInt8) :
    b ++ zeroBuffer.drop b.length = fill b := by
  simp [zeroBuffer, fill]

/-! ## Searching a block -/

/-- A search whose matcher stays inside its table. -/
theorem run_search {σ : Type} {src token : List UInt8} {len p : ℤ}
    (hmatch : kmpMatch src token len = some p) (s : Proc σ) :
    (search src token len).run s = .ok (p, s) := by
  unfold search
  generalize kmpMatch src token len = r at hmatch ⊢
  subst hmatch
  rfl

/-- Searching a filled buffer up to the block's length searches the block. -/
theorem search_fill {σ : Type} {b token : List UInt8} (hb : b.length ≤ maxRecvBufSize)
    (htoken : token ≠ []) (hlen : token.length ≤ maxRecvBufSize) (s : Proc σ) :
    (search (fill b) token b.length).run s =
      .ok (position (firstOccurrence token b), s) := by
  have hle : (b.length : ℤ) ≤ (fill b).length := by
    rw [fill_length hb]
    omega
  have htake : (fill b).take (b.length : ℤ).toNat = b := by simp [fill]
  have hmatch := kmpMatch_eq htoken hlen hle
  rw [htake] at hmatch
  exact run_search hmatch s

/-- No search takes place in a failed read. -/
theorem search_nonpos {σ : Type} {token : List UInt8} {len : ℤ} (hlen : len ≤ 0)
    (htoken : token ≠ []) (hsize : token.length ≤ maxRecvBufSize) (buffer : List UInt8)
    (s : Proc σ) : (search buffer token len).run s = .ok (-1, s) := by
  have hle : len ≤ buffer.length := by omega
  have hzero : len.toNat = 0 := by omega
  have hnone : firstOccurrence token [] = none := by
    rw [firstOccurrence_eq_none, List.infix_nil]
    exact htoken
  have hmatch := kmpMatch_eq htoken hsize hle
  rw [hzero, List.take_zero, hnone] at hmatch
  exact run_search hmatch s

/-- The reported position is -1 precisely when the token is not in the block. -/
theorem position_eq_neg_one {token b : List UInt8} :
    position (firstOccurrence token b) = -1 ↔ ¬token <:+: b := by
  rw [← firstOccurrence_eq_none]
  cases firstOccurrence token b with
  | none => simp [position]
  | some p => simp [position]

/-- The token that tells success. -/
def okToken : List UInt8 := lit "OK"

/-- The success test on a block asks whether the block contains `OK`. -/
theorem lacksOk_fill {σ : Type} {b : List UInt8} (hpos : b ≠ []) (hb : b.length ≤ maxRecvBufSize)
    (s : Proc σ) :
    (lacksOk (fill b) b.length).run s = .ok (!decide (okToken <:+: b), s) := by
  have hlen : ¬(b.length : ℤ) ≤ 0 := by
    have := List.length_pos_iff.mpr hpos
    omega
  have hrun : (search (fill b) okToken b.length).run s = _ :=
    search_fill hb (by decide) (by decide) s
  rw [lacksOk, if_neg hlen, StateT.run_bind, show lit "OK" = okToken from rfl, hrun]
  simp only [ok_bind, StateT.run_pure, pure_eq_ok]
  by_cases hok : okToken <:+: b
  · have hne : position (firstOccurrence okToken b) ≠ -1 := fun h =>
      position_eq_neg_one.mp h hok
    simp [hok, hne]
  · simp [hok, position_eq_neg_one.mpr hok]

/-- The success test rejects a failed read. -/
theorem lacksOk_nonpos {σ : Type} {len : ℤ} (hlen : len ≤ 0) (buffer : List UInt8)
    (s : Proc σ) : (lacksOk buffer len).run s = .ok (true, s) := by
  simp [lacksOk, hlen]

/-! ## Strings -/

/-- A filled buffer holds a NUL when the block does or leaves room for one. -/
theorem nul_mem_fill {b : List UInt8} (hb : b.length ≤ maxRecvBufSize) :
    (0 : UInt8) ∈ fill b ↔ 0 ∈ b ∨ b.length < maxRecvBufSize := by
  simp only [fill, List.mem_append, List.mem_replicate]
  refine or_congr_right ?_
  constructor
  · rintro ⟨hne, _⟩
    omega
  · intro hlt
    exact ⟨by omega, trivial⟩

/-- The string in a filled buffer is the block up to its first NUL; a block of 256
bytes without NUL leaves none in the buffer. -/
theorem cString_fill (b : List UInt8) (hb : b.length ≤ maxRecvBufSize) :
    cString (fill b) =
      if 0 ∈ b ∨ b.length < maxRecvBufSize then some (b.takeWhile (· ≠ 0)) else none := by
  have htake : (fill b).takeWhile (· ≠ 0) = b.takeWhile (· ≠ 0) := by
    rw [fill, List.takeWhile_append]
    split
    · rename_i hall
      have hrep : (List.replicate (maxRecvBufSize - b.length) (0 : UInt8)).takeWhile
          (fun x => decide (x ≠ 0)) = [] := by
        cases maxRecvBufSize - b.length <;> simp [List.replicate_succ]
      rw [hrep, List.append_nil]
      exact ((List.takeWhile_prefix _).eq_of_length hall).symm
    · rfl
  simp only [cString, nul_mem_fill hb, htake]

/-- A string in a filled buffer is the beginning of the block. -/
theorem prefix_of_cString_fill {b str : List UInt8} (hb : b.length ≤ maxRecvBufSize)
    (h : cString (fill b) = some str) : str <+: b := by
  rw [cString_fill b hb] at h
  split at h
  · cases h
    exact List.takeWhile_prefix _
  · cases h

/-- A string of bytes without NUL is the whole block. -/
theorem takeWhile_eq_self_iff {b : List UInt8} : b.takeWhile (· ≠ 0) = b ↔ (0 : UInt8) ∉ b := by
  rw [List.takeWhile_eq_self_iff]
  constructor
  · intro h h0
    simpa using h 0 h0
  · intro h x hx
    have hne : x ≠ 0 := fun h0 => h (h0 ▸ hx)
    simpa using hne

/-- A string shorter than the buffer is in a filled buffer when it is the block up to
the first NUL. -/
theorem cString_fill_eq_some {b word : List UInt8} (hb : b.length ≤ maxRecvBufSize)
    (hword : word.length < maxRecvBufSize) :
    cString (fill b) = some word ↔ b.takeWhile (· ≠ 0) = word := by
  rw [cString_fill b hb]
  split
  · exact Option.some_inj
  · rename_i hfull
    obtain ⟨hnul, hlen⟩ := not_or.mp hfull
    rw [takeWhile_eq_self_iff.mpr hnul]
    refine iff_of_false (Option.some_ne_none word).symm fun heq => hlen ?_
    rwa [heq]

/-- The bytes of a concatenation before its first NUL. -/
theorem takeWhile_append {b rest : List UInt8} :
    (b ++ rest).takeWhile (· ≠ 0) =
      if 0 ∈ b then b.takeWhile (· ≠ 0) else b ++ rest.takeWhile (· ≠ 0) := by
  have hlen : (b.takeWhile (· ≠ 0)).length = b.length ↔ (0 : UInt8) ∉ b := by
    rw [← takeWhile_eq_self_iff]
    exact ⟨fun h => (List.takeWhile_prefix _).eq_of_length h, congrArg List.length⟩
  rw [List.takeWhile_append]
  by_cases hnul : 0 ∈ b
  · rw [if_neg (fun h => hlen.mp h hnul), if_pos hnul]
  · rw [if_pos (hlen.mpr hnul), if_neg hnul]

/-- ASCII text is well-formed UTF-8. -/
theorem utf8Valid_of_ascii {l : List UInt8} (h : ∀ b ∈ l, b < 0x80) : utf8Valid l = true := by
  fun_induction utf8Valid l with
  | case1 => rfl
  | case2 a => simpa using h
  | case3 a b => simp_all
  | case4 a b c rest ha ih => exact ih fun x hx => h x (List.mem_cons_of_mem _ hx)
  | case5 a b c rest ha => exact absurd (h a List.mem_cons_self) ha
  | case6 a b c rest ha => exact absurd (h a List.mem_cons_self) ha
  | case7 a b c ha => exact absurd (h a List.mem_cons_self) ha
  | case8 a b c ha => exact absurd (h a List.mem_cons_self) ha

/-! ## Transfers -/

variable [Tty π]

/-- What one `module_recv` on a connected line takes from it: a block, or `none`
after an error or a timeout. -/
def received (tty : π) : Option (List UInt8) × π :=
  let rc := Tty.select tty
  if rc.1 = 0 ∨ rc.1 = -1 then (none, rc.2) else Tty.read maxRecvBufSize rc.2

/-- A received block fits in the buffer. -/
theorem received_length {tty : π} {b : List UInt8} (h : (received tty).1 = some b) :
    b.length ≤ maxRecvBufSize := by
  simp only [received] at h
  split at h
  · cases h
  · exact Tty.read_length _ _ _ h

/-- The result of `module_recv`. -/
def recvLength : Option (List UInt8) → ℤ
  | some b => b.length
  | none => -1

/-- The zeroed buffer after `module_recv`. -/
def recvBuffer : Option (List UInt8) → List UInt8
  | some b => fill b
  | none => zeroBuffer

/-- Sending on a connected line. -/
theorem run_ctxSend {s : Proc (Mem π)} (h : Connected s.mem) (req : List UInt8) :
    (ctxSend req).run s =
      .ok ((Tty.write req s.mem.tty).1, withTty s (Tty.write req s.mem.tty).2) := by
  obtain ⟨p, m, fd, hp, hm, hs⟩ := h
  simp [ctxSend, moduleSend, hp, hm, hs, withTty]

/-- A function whose command is sent completely goes on. -/
theorem run_sent {α : Type} {s : Proc (Mem π)} (h : Connected s.mem) {cmd : List UInt8}
    (hsent : (Tty.write cmd s.mem.tty).1 = cmd.length) (x y : CM (Mem π) α) :
    (do
      let ret ← ctxSend cmd
      if ret ≠ cmd.length then x else y).run s =
      y.run (withTty s (Tty.write cmd s.mem.tty).2) := by
  rw [StateT.run_bind, run_ctxSend h, ok_bind, if_neg (not_not.mpr hsent)]

/-- Sending goes through on a connected line only. -/
theorem connected_of_ctxSend {s s' : Proc (Mem π)} {req : List UInt8}
    (h : (ctxSend req).run s = .ok ((req.length : ℤ), s')) : Connected s.mem := by
  cases hp : s.mem.ctx with
  | none =>
    simp only [ctxSend, StateT.run_bind, run_getMem, ok_bind, hp, moduleSend, StateT.run_pure,
      pure_eq_ok, Except.ok.injEq, Prod.mk.injEq] at h
    omega
  | some p =>
    cases hm : s.mem.modules.cell p with
    | none => simp [ctxSend, moduleSend, hp, hm] at h
    | some m =>
      cases hs : m.s with
      | none => simp [ctxSend, moduleSend, hp, hm, hs] at h
      | some fd => exact ⟨p, m, fd, hp, hm, hs⟩

/-- Receiving on a connected line. -/
theorem run_ctxRecv {s : Proc (Mem π)} (h : Connected s.mem) :
    (ctxRecv : CM (Mem π) (ℤ × List UInt8)).run s =
      .ok ((recvLength (received s.mem.tty).1, recvBuffer (received s.mem.tty).1),
        withTty s (received s.mem.tty).2) := by
  obtain ⟨p, m, fd, hp, hm, hs⟩ := h
  by_cases hrc : (Tty.select s.mem.tty).1 = 0 ∨ (Tty.select s.mem.tty).1 = -1
  · have hfail : ¬(Tty.select s.mem.tty).1 = 0 → (Tty.select s.mem.tty).1 = -1 :=
      hrc.resolve_left
    simp [ctxRecv, moduleRecv, uartsSelect, hp, hm, hs, if_pos hfail, received, hrc, withTty,
      recvLength, recvBuffer]
  · obtain ⟨h0, h1⟩ := not_or.mp hrc
    have hlen : zeroBuffer.length = maxRecvBufSize := List.length_replicate
    rcases hread : Tty.read maxRecvBufSize (Tty.select s.mem.tty).2 with ⟨_ | b, tty⟩
    · simp [ctxRecv, moduleRecv, uartsSelect, hp, hm, hs, h0, h1, received, hlen, hread,
        withTty, recvLength, recvBuffer]
    · simp [ctxRecv, moduleRecv, uartsSelect, hp, hm, hs, h0, h1, received, hlen, hread,
        append_drop_zeroBuffer, withTty, recvLength, recvBuffer]

/-! ## The scripted line -/

/-- The context of the scripted machine is connected. -/
theorem connectedMem_connected : Connected connectedMem :=
  ⟨0, ⟨some 0, none⟩, 0, rfl, rfl, rfl⟩

/-- It stays so with other reads to come. -/
theorem reading_connected (reads : List (Option (List UInt8))) :
    Connected (reading reads).mem := connectedMem_connected

/-- The next block of the script is received. -/
theorem received_block {b : List UInt8} (hb : b.length ≤ maxRecvBufSize)
    (reads : List (Option (List UInt8))) :
    received (⟨some b :: reads⟩ : Script) = (some b, ⟨reads⟩) := by
  have htake : b.take maxRecvBufSize = b := List.take_of_length_le hb
  simp [received, Tty.select, Script.select, Tty.read, Script.read, htake]

/-- An exhausted script times out. -/
theorem received_nothing : received (⟨[]⟩ : Script) = (none, ⟨[]⟩) := rfl

/-- Every command is written completely. -/
theorem write_script (req : List UInt8) (t : Script) :
    Tty.write req t = ((req.length : ℤ), t) := rfl

end PyModules.Lte
