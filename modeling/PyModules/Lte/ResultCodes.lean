import PyModules.Lte.Replies

/-!
# Result codes

A reply of the modem is a number of information lines and a final result line. The
commands that read one reply take it for a success when the letters `OK` stand anywhere
in it. This file compares that with the final result line.
-/

namespace PyModules.Lte

open Overlap

/-! ## Replies of the modem -/

/-- The end of a line. -/
def crlf : List UInt8 := [13, 10]

/-- A final result. -/
inductive Final
  | ok
  | error
  | cmeError (text : List UInt8)
  | noCarrier
  deriving DecidableEq, Repr

/-- The line that tells a final result. -/
def Final.line : Final → List UInt8
  | .ok => lit "OK"
  | .error => lit "ERROR"
  | .cmeError text => lit "+CME ERROR: " ++ text
  | .noCarrier => lit "NO CARRIER"

/-- The free text in a final result. -/
def Final.text : Final → List UInt8
  | .cmeError text => text
  | _ => []

/-- A reply: information lines, and a final result line with or without a line end. -/
structure Reply where
  info : List (List UInt8)
  final : Final
  ended : Bool
  /-- No line contains the end of a line. -/
  single : ∀ l ∈ info ++ [final.line], ¬crlf <:+: l

/-- Lines, each with its end. -/
def terminated (lines : List (List UInt8)) : List UInt8 :=
  (lines.map (· ++ crlf)).flatten

/-- The bytes of a reply. -/
def Reply.bytes (r : Reply) : List UInt8 :=
  terminated r.info ++ (r.final.line ++ if r.ended then crlf else [])

/-- The letters `OK` stand in an information line or in the text of an error. -/
def Reply.MentionsOk (r : Reply) : Prop :=
  (∃ l ∈ r.info, okToken <:+: l) ∨ okToken <:+: r.final.text

instance (r : Reply) : Decidable r.MentionsOk :=
  inferInstanceAs (Decidable ((∃ l ∈ r.info, okToken <:+: l) ∨ okToken <:+: r.final.text))

/-! ## Lines -/

/-- The end of a line has no borders. -/
theorem crlf_borders (k : ℕ) (h : IsBorder crlf k) : k = 0 := by
  obtain ⟨hk, hsuffix⟩ := h
  have hlen : crlf.length = 2 := rfl
  by_contra hne
  have hone : k = 1 := by omega
  subst hone
  exact absurd hsuffix (by decide)

/-- A final line is not empty. -/
theorem Final.line_ne_nil (f : Final) : f.line ≠ [] := by
  cases f with
  | ok => decide
  | error => decide
  | cmeError text => exact fun h => absurd (List.append_eq_nil_iff.mp h).1 (by decide)
  | noCarrier => decide

/-- The final line is exactly `OK` for no other result. -/
theorem Final.line_eq_ok {f : Final} : f.line = lit "OK" ↔ f = .ok := by
  cases f with
  | ok => simp [line]
  | error => decide
  | cmeError text =>
    refine iff_of_false (fun h => ?_) (by simp)
    have hhead := congrArg List.head? h
    simp [line, lit] at hhead
  | noCarrier => decide

/-- The first line, its end, and the rest. -/
theorem terminated_cons_append (l : List UInt8) (lines : List (List UInt8)) (rest : List UInt8) :
    terminated (l :: lines) ++ rest = l ++ (crlf ++ (terminated lines ++ rest)) := by
  simp [terminated]

/-- A text with a line end in it is more than one line. -/
theorem crlf_infix (l x : List UInt8) : crlf <:+: l ++ (crlf ++ x) :=
  (List.prefix_append crlf x).isInfix.trans (List.suffix_append l _).isInfix

/-- Lines with their ends, and what follows them without one, can be told from the bytes. -/
theorem terminated_unique {lines lines' : List (List UInt8)} {rest rest' : List UInt8}
    (hlines : ∀ l ∈ lines, ¬crlf <:+: l) (hrest : ¬crlf <:+: rest)
    (hlines' : ∀ l ∈ lines', ¬crlf <:+: l) (hrest' : ¬crlf <:+: rest')
    (h : terminated lines ++ rest = terminated lines' ++ rest') :
    lines = lines' ∧ rest = rest' := by
  induction lines generalizing lines' with
  | nil =>
    cases lines' with
    | nil => exact ⟨rfl, h⟩
    | cons l' lines' =>
      have hrest_eq : rest = l' ++ (crlf ++ (terminated lines' ++ rest')) :=
        h.trans (terminated_cons_append l' lines' rest')
      exact absurd (hrest_eq ▸ crlf_infix l' _) hrest
  | cons l lines ih =>
    cases lines' with
    | nil =>
      have hrest_eq : rest' = l ++ (crlf ++ (terminated lines ++ rest)) :=
        h.symm.trans (terminated_cons_append l lines rest)
      exact absurd (hrest_eq ▸ crlf_infix l _) hrest'
    | cons l' lines' =>
      rw [terminated_cons_append, terminated_cons_append] at h
      obtain ⟨hl, htail⟩ := separated_unique crlf_borders (hlines l List.mem_cons_self)
        (hlines' l' List.mem_cons_self) h
      obtain ⟨htails, hrests⟩ := ih (fun k hk => hlines k (List.mem_cons_of_mem l hk))
        (fun k hk => hlines' k (List.mem_cons_of_mem l' hk)) htail
      exact ⟨by rw [hl, htails], hrests⟩

/-- The bytes of a reply are lines with their ends and a rest without one: nothing behind
the end of the final line, or else the final line itself. -/
theorem Reply.bytes_cut (r : Reply) :
    ∃ lines rest, r.bytes = terminated lines ++ rest ∧ (∀ l ∈ lines, ¬crlf <:+: l) ∧
      ¬crlf <:+: rest ∧ (lines = r.info ++ [r.final.line] ∧ rest = [] ∨
        lines = r.info ∧ rest = r.final.line) := by
  have hfinal := r.single r.final.line (by simp)
  have hinfo : ∀ l ∈ r.info, ¬crlf <:+: l := fun l hl =>
    r.single l (List.mem_append_left _ hl)
  rcases hended : r.ended with _ | _
  · exact ⟨r.info, r.final.line, by simp [bytes, hended], hinfo, hfinal, .inr ⟨rfl, rfl⟩⟩
  · exact ⟨r.info ++ [r.final.line], [], by simp [bytes, hended, terminated], r.single,
      by decide, .inl ⟨rfl, rfl⟩⟩

/-- The final line is a matter of the bytes of a reply. -/
theorem Reply.final_line_unique {r r' : Reply} (h : r.bytes = r'.bytes) :
    r.final.line = r'.final.line := by
  obtain ⟨lines, rest, hbytes, hlines, hrest, hr⟩ := r.bytes_cut
  obtain ⟨lines', rest', hbytes', hlines', hrest', hr'⟩ := r'.bytes_cut
  rw [hbytes, hbytes'] at h
  obtain ⟨hl, he⟩ := terminated_unique hlines hrest hlines' hrest' h
  -- a rest is empty precisely when its final line has an end, so the replies agree on that
  rcases hr with ⟨rfl, rfl⟩ | ⟨rfl, rfl⟩
  · rcases hr' with ⟨rfl, _⟩ | ⟨_, rfl⟩
    · exact (List.concat_inj.mp (by simpa using hl)).2
    · exact absurd he.symm r'.final.line_ne_nil
  · rcases hr' with ⟨_, rfl⟩ | ⟨_, rfl⟩
    · exact absurd he r.final.line_ne_nil
    · exact he

/-- The letters `OK` in lines that have their ends stand in one of the lines. -/
theorem ok_infix_terminated {lines : List (List UInt8)} {rest : List UInt8} :
    okToken <:+: terminated lines ++ rest ↔
      (∃ l ∈ lines, okToken <:+: l) ∨ okToken <:+: rest := by
  induction lines with
  | nil => simp [terminated]
  | cons l lines ih =>
    have hsplit : terminated (l :: lines) ++ rest =
        l ++ 13 :: ([] ++ 10 :: (terminated lines ++ rest)) := by
      simp [terminated, crlf]
    rw [hsplit, infix_append_cons_iff (by decide), infix_append_cons_iff (by decide), ih]
    have hnil : ¬okToken <:+: [] := by decide
    simp [hnil, or_assoc]

/-- Behind a final line, its own end adds no letters. -/
theorem ok_infix_ended {l : List UInt8} (ended : Bool) :
    okToken <:+: l ++ (if ended then crlf else []) ↔ okToken <:+: l := by
  cases ended with
  | false => simp
  | true =>
    have hsplit : l ++ crlf = l ++ 13 :: [10] := rfl
    have hend : ¬okToken <:+: [10] := by decide
    rw [if_pos rfl, hsplit, infix_append_cons_iff (by decide)]
    simp [hend]

/-- The letters `OK` stand in the final line of a success and in the text of an error. -/
theorem Final.ok_infix_line {f : Final} :
    okToken <:+: f.line ↔ f.line = lit "OK" ∨ okToken <:+: f.text := by
  rw [line_eq_ok]
  cases f with
  | ok => exact iff_of_true (by decide) (.inl rfl)
  | error => decide
  | cmeError text =>
    have hsplit : lit "+CME ERROR: " ++ text = lit "+CME ERROR:" ++ 32 :: text := rfl
    have hcme : ¬okToken <:+: lit "+CME ERROR:" := by decide
    rw [line, hsplit, infix_append_cons_iff (by decide)]
    simp [hcme, Final.text]
  | noCarrier => decide

/-- The letters `OK` stand in a reply whose final line is `OK`, and in one that mentions
them elsewhere. -/
theorem Reply.ok_infix_bytes (r : Reply) :
    okToken <:+: r.bytes ↔ r.final.line = lit "OK" ∨ r.MentionsOk := by
  rw [bytes, ok_infix_terminated, ok_infix_ended, Final.ok_infix_line, MentionsOk]
  exact or_left_comm

/-! ## The commands that test one reply -/

variable {π : Type} [Tty π]

/-- Send a command, and test the reply as `cmd_lte`, `led`, and `init` do: nothing if the
command was not sent completely, or else the outcome of the test and the buffer. -/
def replyTest (cmd : List UInt8) : CM (Mem π) (Option (Bool × List UInt8)) := do
  let ret ← ctxSend cmd
  if ret ≠ cmd.length then return none
  else
    let (len, buffer) ← ctxRecv
    if ← lacksOk buffer len then return some (false, buffer)
    else return some (true, buffer)

/-- A place at which a reply is tested: `cmd_lte` and `led` with arguments they accept, or
the step of `init` for the first of the commands still to send. -/
inductive Tester
  | cmdLte (args : List PyObject) (cmd : List UInt8) (hcmd : parseOne convertStr args = some cmd)
  | led (args : List PyObject) (st : ℤ) (hst : parseOne convertInt args = some st)
      (hrange : -1 < st ∧ st < 2)
  | initStep (cmd : List UInt8) (cmds : List (List UInt8))

namespace Tester

/-- The function that tests the reply. -/
def body : Tester → CM (Mem π) PyRef
  | cmdLte args _ _ => Lte.cmdLte args
  | led args _ _ _ => Lte.led args
  | initStep cmd cmds => initFrom (cmd :: cmds)

/-- The command that it sends. -/
def cmd : Tester → List UInt8
  | cmdLte _ cmd _ => cmd
  | led _ st _ _ => ledText st
  | initStep cmd _ => cmd

/-- How it goes on after the test: after a success `cmd_lte` returns the reply, `led`
returns True, and `init` takes the next step. -/
def follow : Tester → Bool → List UInt8 → CM (Mem π) PyRef
  | cmdLte _ _ _, success, buffer =>
    if success then buildValueS buffer else buildStr (lit "ERROR")
  | led _ _ _ _, success, _ => if success then return pyTrue else return pyFalse
  | initStep _ cmds, success, _ => if success then initFrom cmds else return pyFalse

/-- From the process `s` on, the reply is tested with this outcome, and the function goes on
accordingly. -/
def Treats (t : Tester) (s : Proc (Mem π)) (success : Bool) : Prop :=
  ∃ buffer s', (replyTest t.cmd).run s = .ok (some (success, buffer), s') ∧
    t.body.run s = (t.follow success buffer).run s'

/-- The outcome of the test on a block. -/
theorem run_replyTest {s : Proc (Mem π)} (h : Connected s.mem) {cmd b : List UInt8} {tty : π}
    (hsent : (Tty.write cmd s.mem.tty).1 = cmd.length)
    (hread : received (Tty.write cmd s.mem.tty).2 = (some b, tty)) :
    (replyTest cmd).run s =
      .ok (some (decide (okToken <:+: b), fill b), withTty s tty) := by
  rw [replyTest, run_sent h hsent]
  refine (run_okReply (h.withTty _) (fun buffer => pure (some (false, buffer)))
    fun buffer => pure (some (true, buffer))).trans ?_
  rw [withTty_tty, hread]
  by_cases hok : okToken <:+: b
  · simp [hok, withTty]
  · simp [hok, withTty]

/-- Each function goes on from the test as `follow` says. -/
theorem run_body {s : Proc (Mem π)} (h : Connected s.mem) (t : Tester) {b : List UInt8} {tty : π}
    (hsent : (Tty.write t.cmd s.mem.tty).1 = t.cmd.length)
    (hread : received (Tty.write t.cmd s.mem.tty).2 = (some b, tty)) :
    t.body.run s = (t.follow (decide (okToken <:+: b)) (fill b)).run (withTty s tty) := by
  cases t with
  | cmdLte args cmd hcmd =>
    rw [Tester.cmd] at hsent hread
    rw [body, run_cmdLte h hcmd hsent, hread]
    by_cases hok : okToken <:+: b <;> simp [follow, hok]
  | led args st hst hrange =>
    rw [Tester.cmd] at hsent hread
    rw [body, run_led h hst hrange hsent, hread]
    by_cases hok : okToken <:+: b <;> simp [follow, hok]
  | initStep cmd cmds =>
    rw [Tester.cmd] at hsent hread
    rw [body, initFrom, run_sent h hsent]
    refine (run_okReply (h.withTty _) (fun _ => pure pyFalse) fun _ => initFrom cmds).trans ?_
    rw [withTty_tty, hread]
    by_cases hok : okToken <:+: b
    · simp only [hok, if_true, follow, decide_true]
      rfl
    · simp only [hok, if_false, follow, decide_false, Bool.false_eq_true]
      rfl

/-- A block is treated as a success precisely when it contains `OK`. -/
theorem treats_iff {s : Proc (Mem π)} (h : Connected s.mem) (t : Tester) {b : List UInt8}
    {tty : π} (hsent : (Tty.write t.cmd s.mem.tty).1 = t.cmd.length)
    (hread : received (Tty.write t.cmd s.mem.tty).2 = (some b, tty)) (success : Bool) :
    t.Treats s success ↔ success = decide (okToken <:+: b) := by
  constructor
  · rintro ⟨buffer, s', htest, _⟩
    rw [run_replyTest h hsent hread] at htest
    cases htest
    rfl
  · rintro rfl
    exact ⟨fill b, withTty s tty, run_replyTest h hsent hread, run_body h t hsent hread⟩

/-- A reply read at once is treated as a success exactly when its final line is `OK`, unless
it ends otherwise and has the letters `OK` in an information line or in the text of an error. -/
theorem treats_final_line_iff {s : Proc (Mem π)} (h : Connected s.mem) (t : Tester) (r : Reply)
    {tty : π} (hsent : (Tty.write t.cmd s.mem.tty).1 = t.cmd.length)
    (hread : received (Tty.write t.cmd s.mem.tty).2 = (some r.bytes, tty)) :
    t.Treats s (decide (r.final.line = lit "OK")) ↔
      r.final.line = lit "OK" ∨ ¬r.MentionsOk := by
  rw [treats_iff h t hsent hread, decide_eq_decide, r.ok_infix_bytes]
  by_cases hok : r.final.line = lit "OK" <;> simp [hok]

/-- A reply as the modem writes it: a line end before each line, and one behind it. -/
def signalReply : Reply where
  info := [[], lit "+CSQ: 20,99", []]
  final := .ok
  ended := true
  single := by decide

/-- `cmd_lte` treats such a reply as the success that it is. -/
theorem cmdLte_treats_signalReply :
    (cmdLte [.atom (.str (some (lit "AT+CSQ\r\n")))] (lit "AT+CSQ\r\n") rfl).Treats
      (reading [some signalReply.bytes]) true :=
  (treats_final_line_iff (reading_connected _) _ signalReply rfl
    (received_block (by decide) [])).mpr (.inl rfl)

/-- A notice of the network, and behind it the result of the command. -/
def noticeReply : Reply where
  info := [lit "+CUSD: 0,\"TOKEN EXPIRED\",15"]
  final := .error
  ended := true
  single := by decide

/-- `led` takes the `OK` in `TOKEN` for a success of its command. -/
theorem led_treats_noticeReply :
    (led [.atom (.int 1)] 1 rfl (by decide)).Treats (reading [some noticeReply.bytes]) true ∧
      ¬(led [.atom (.int 1)] 1 rfl (by decide)).Treats (reading [some noticeReply.bytes])
        (decide (noticeReply.final.line = lit "OK")) := by
  have hfits : noticeReply.bytes.length ≤ maxRecvBufSize := by decide
  have htreats := treats_iff (reading_connected _) (led [.atom (.int 1)] 1 rfl (by decide)) rfl
    (received_block hfits [])
  have hok : okToken <:+: noticeReply.bytes := by decide
  have hline : noticeReply.final.line ≠ lit "OK" := by decide
  simp [htreats, hok, hline]

end Tester

end PyModules.Lte
