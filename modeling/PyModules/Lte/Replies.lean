import PyModules.Lte.Line

/-!
# Commands that read a reply

On a connected line that takes the whole command, the commands that read depend on
the blocks they receive and on nothing else. One equation for each of them tells how.
-/

namespace PyModules.Lte

open Overlap

variable {π : Type} [Tty π]

/-- Read a reply and test it: only a block with `OK` passes. -/
theorem run_okReply {α : Type} {s : Proc (Mem π)} (h : Connected s.mem)
    (x y : List UInt8 → CM (Mem π) α) :
    (do
      let (len, buffer) ← ctxRecv
      if ← lacksOk buffer len then x buffer else y buffer).run s =
      match received s.mem.tty with
      | (none, tty) => (x zeroBuffer).run (withTty s tty)
      | (some b, tty) =>
        if okToken <:+: b then (y (fill b)).run (withTty s tty)
        else (x (fill b)).run (withTty s tty) := by
  rw [StateT.run_bind, run_ctxRecv h, ok_bind]
  rcases hr : received s.mem.tty with ⟨_ | b, tty⟩
  · rw [StateT.run_bind, lacksOk_nonpos (by simp [recvLength])]
    rfl
  · have hsize : b.length ≤ maxRecvBufSize := received_length (congrArg Prod.fst hr)
    by_cases hnil : b = []
    · subst hnil
      rw [StateT.run_bind, lacksOk_nonpos (by simp [recvLength])]
      have hno : ¬okToken <:+: [] := by decide
      simp [hno, recvBuffer]
    · rw [StateT.run_bind, recvLength, recvBuffer, lacksOk_fill hnil hsize]
      by_cases hok : okToken <:+: b <;> simp [hok]

/-- What `cmd_lte` does on a connected line that takes the whole command. -/
theorem run_cmdLte {s : Proc (Mem π)} (h : Connected s.mem) {args : List PyObject}
    {cmd : List UInt8} (hcmd : parseOne convertStr args = some cmd)
    (hsend : (Tty.write cmd s.mem.tty).1 = cmd.length) :
    (cmdLte args).run s =
      match received (Tty.write cmd s.mem.tty).2 with
      | (none, tty) => (buildStr (lit "ERROR")).run (withTty s tty)
      | (some b, tty) =>
        if okToken <:+: b then (buildValueS (fill b)).run (withTty s tty)
        else (buildStr (lit "ERROR")).run (withTty s tty) := by
  simp only [cmdLte, hcmd]
  rw [run_sent h hsend]
  exact run_okReply (h.withTty _) (fun _ => buildStr (lit "ERROR")) buildValueS

/-- With a status in range, `led` formats its command and sends it. -/
theorem led_eq {args : List PyObject} {st : ℤ} (hst : parseOne convertInt args = some st)
    (hrange : -1 < st ∧ st < 2) :
    (led args : CM (Mem π) PyRef) = do
      let ret ← ctxSend (ledText st)
      if ret ≠ (ledText st).length then return pyFalse
      else
        let (len, buffer) ← ctxRecv
        if ← lacksOk buffer len then return pyFalse
        else return pyTrue := by
  have hok : ¬(st ≤ -1 ∨ st ≥ 2) := by omega
  have hfit : (ledText st).length + 1 ≤ 32 := by rw [led_fits hrange]; decide
  simp only [led, hst, if_neg hok, sprintf32, if_pos hfit]
  rw [pure_bind]

/-- What `led` does on a connected line that takes the whole command. -/
theorem run_led {s : Proc (Mem π)} (h : Connected s.mem) {args : List PyObject} {st : ℤ}
    (hst : parseOne convertInt args = some st) (hrange : -1 < st ∧ st < 2)
    (hsend : (Tty.write (ledText st) s.mem.tty).1 = (ledText st).length) :
    (led args).run s =
      match received (Tty.write (ledText st) s.mem.tty).2 with
      | (none, tty) => .ok (pyFalse, withTty s tty)
      | (some b, tty) => .ok (if okToken <:+: b then pyTrue else pyFalse, withTty s tty) := by
  rw [led_eq hst hrange, run_sent h hsend]
  refine (run_okReply (h.withTty _) (fun _ => pure pyFalse) (fun _ => pure pyTrue)).trans ?_
  simp only [withTty]
  rcases received (Tty.write (ledText st) s.mem.tty).2 with ⟨_ | b, tty⟩
  · rfl
  · by_cases hin : okToken <:+: b <;> simp [hin]

/-- One round of the loop of `online` and `offline`. -/
theorem run_pollFrom_succ {s : Proc (Mem π)} (h : Connected s.mem) {token : List UInt8}
    (htoken : token ≠ []) (hsize : token.length ≤ maxRecvBufSize) (found : CM (Mem π) PyRef)
    (todo : ℕ) :
    (pollFrom token found (todo + 1)).run s =
      match received s.mem.tty with
      | (none, tty) => (pollFrom token found todo).run (withTty s tty)
      | (some b, tty) =>
        if token <:+: b then found.run (withTty s tty)
        else (pollFrom token found todo).run (withTty s tty) := by
  rw [pollFrom, StateT.run_bind, run_ctxRecv h, ok_bind]
  rcases hr : received s.mem.tty with ⟨_ | b, tty⟩
  · rfl
  · have hfits : b.length ≤ maxRecvBufSize := received_length (congrArg Prod.fst hr)
    have hsearch := search_fill hfits htoken hsize (withTty s tty)
    by_cases hnil : b = []
    · subst hnil
      have hno : ¬token <:+: [] := by rwa [List.infix_nil]
      simp [hno, recvLength]
    · have hpos := List.length_pos_iff.mpr hnil
      by_cases hin : token <:+: b
      · have hfound : position (firstOccurrence token b) ≠ -1 := fun hp =>
          position_eq_neg_one.mp hp hin
        simp [recvLength, recvBuffer, hpos, hsearch, hin, hfound]
      · simp [recvLength, recvBuffer, hpos, hsearch, hin, position_eq_neg_one.mpr hin]

/-- One round of the loop of `status`. -/
theorem run_statusFrom_succ {s : Proc (Mem π)} (h : Connected s.mem) (todo : ℕ) :
    (statusFrom (todo + 1)).run s =
      match received s.mem.tty with
      | (none, tty) => (statusFrom todo).run (withTty s tty)
      | (some b, tty) =>
        match firstOccurrence statusToken b with
        | none => (statusFrom todo).run (withTty s tty)
        | some p =>
          match (fill b)[p + statusToken.length]? with
          | none => .error .outOfBounds
          | some c =>
            if c = 48 then (buildStr (lit "offline")).run (withTty s tty)
            else if c = 49 then (buildStr (lit "online")).run (withTty s tty)
            else (statusFrom todo).run (withTty s tty) := by
  have htoken : statusToken ≠ [] := by decide
  have hsize : statusToken.length ≤ maxRecvBufSize := by decide
  rw [statusFrom, StateT.run_bind, run_ctxRecv h, ok_bind]
  rcases hr : received s.mem.tty with ⟨_ | b, tty⟩
  · have hneg : recvLength none ≤ 0 := by decide
    simp only []
    rw [StateT.run_bind, search_nonpos hneg htoken hsize, ok_bind]
    rfl
  · have hfits : b.length ≤ maxRecvBufSize := received_length (congrArg Prod.fst hr)
    have hsearch := search_fill hfits htoken hsize (withTty s tty)
    cases hfirst : firstOccurrence statusToken b with
    | none =>
      rw [hfirst] at hsearch
      simp [recvLength, recvBuffer, hsearch, position, hfirst]
    | some p =>
      have hpos : 0 < b.length := by
        have hlen := ((firstOccurrence_eq_some.mp hfirst).2.1).le_length htoken
        have := List.length_pos_iff.mpr htoken
        omega
      rw [hfirst] at hsearch
      have hne : ¬(p : ℤ) = -1 := by omega
      simp only [recvLength, recvBuffer, StateT.run_bind, hsearch, position, ok_bind, hfirst,
        hpos, hne, Int.natCast_pos, ne_eq, not_false_eq_true, and_self, if_true,
        Int.toNat_natCast]
      cases (fill b)[p + statusToken.length]? with
      | none => rfl
      | some c =>
        by_cases h0 : c = 48
        · simp [h0]
        · by_cases h1 : c = 49 <;> simp [h0, h1]

/-- Building a Python string from bytes without NUL. -/
@[simp] theorem run_buildStr {σ : Type} (bytes : List UInt8) (s : Proc σ) :
    (buildStr bytes).run s =
      if utf8Valid bytes then .ok (some (.atom (.str (some bytes))), s)
      else .ok (NULL, { s with err := some ⟨.unicodeDecode bytes, "invalid utf-8"⟩ }) := by
  by_cases h : utf8Valid bytes = true <;> simp [buildStr, h]

/-- A string built from a buffer is the C string in it. -/
theorem cString_of_buildValueS {σ : Type} {buffer str : List UInt8} {s s' : Proc σ}
    (h : (buildValueS buffer).run s = .ok (some (.atom (.str (some str))), s')) :
    cString buffer = some str ∧ s' = s := by
  unfold buildValueS at h
  split at h
  · rename_i bytes hbytes
    rw [run_buildStr] at h
    split at h
    · cases h
      exact ⟨hbytes, rfl⟩
    · cases h
  · cases h

/-- `cmd_lte` returns an object only after sending the whole command. -/
theorem cmdLte_sent {s s' : Proc (Mem π)} {args : List PyObject} {o : PyObject}
    (h : (cmdLte args).run s = .ok (some o, s')) :
    ∃ cmd, parseOne convertStr args = some cmd ∧ Connected s.mem ∧
      (Tty.write cmd s.mem.tty).1 = cmd.length := by
  cases hcmd : parseOne convertStr args with
  | none => simp [cmdLte, hcmd, NULL] at h
  | some cmd =>
    simp only [cmdLte, hcmd, StateT.run_bind] at h
    rcases hrun : (ctxSend cmd).run s with e | ⟨ret, s1⟩
    · simp [hrun] at h
    · by_cases hret : ret = cmd.length
      · subst hret
        have hconn := connected_of_ctxSend hrun
        rw [run_ctxSend hconn, Except.ok.injEq, Prod.mk.injEq] at hrun
        exact ⟨cmd, rfl, hconn, hrun.1⟩
      · simp [hrun, hret, NULL] at h

/-- Where a string other than `ERROR` that `cmd_lte` returns comes from: the block
read after the command was sent contains `OK`, and begins with that string. -/
theorem cmdLte_string {s s' : Proc (Mem π)} {args : List PyObject} {str : List UInt8}
    (h : (cmdLte args).run s = .ok (some (.atom (.str (some str))), s'))
    (hne : str ≠ lit "ERROR") :
    ∃ cmd b, parseOne convertStr args = some cmd ∧
      received (Tty.write cmd s.mem.tty).2 = (some b, s'.mem.tty) ∧
      okToken <:+: b ∧ cString (fill b) = some str := by
  obtain ⟨cmd, hcmd, hconn, hfull⟩ := cmdLte_sent h
  rw [run_cmdLte hconn hcmd hfull] at h
  have herror : ∀ s1 : Proc (Mem π), (buildStr (lit "ERROR")).run s1 ≠
      .ok (some (.atom (.str (some str))), s') := by
    intro s1 h1
    rw [run_buildStr, if_pos (by decide)] at h1
    cases h1
    exact hne rfl
  rcases hrec : received (Tty.write cmd s.mem.tty).2 with ⟨_ | b, tty⟩
  · rw [hrec] at h
    exact absurd h (herror _)
  · rw [hrec] at h
    dsimp only at h
    split at h
    · obtain ⟨hstr, rfl⟩ := cString_of_buildValueS h
      exact ⟨cmd, b, hcmd, by rw [hrec]; rfl, ‹_›, hstr⟩
    · exact absurd h (herror _)

end PyModules.Lte
