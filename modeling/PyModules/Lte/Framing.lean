import Mathlib.Data.List.Forall2
import PyModules.Library.Framing
import PyModules.Lte.Session

/-!
# What the modem hears

A modem takes what stands in front of a carriage return for a command line, however many
writes it came with, and skips the line feed and the NULs behind it. Over a run it hears the
lines that the commands mean precisely if no write was cut off before its carriage return and
no argument brought one of its own.
-/

namespace PyModules.Lte

open Framing

variable {π : Type}

/-- The carriage return, which ends a command line. -/
def carriageReturn : UInt8 := 13

/-- How a modem reads the line: the symbols it skips, among them NUL and the line feed. -/
structure Ear where
  skips : UInt8 → Bool
  skips_nul : skips 0 = true
  skips_lf : skips 10 = true
  keeps_cr : skips carriageReturn = false

/-- What the modem does not skip. -/
def Ear.keeps (ear : Ear) (bytes : List UInt8) : List UInt8 := bytes.filter fun b => !ear.skips b

/-- A write among the system calls, with how many bytes of it were accepted. -/
def LineOp.written : LineOp → Option (List UInt8 × ℤ)
  | .write req n => some (req, n)
  | _ => none

/-- The writes among some system calls. -/
def writes (ops : List LineOp) : List (List UInt8 × ℤ) := ops.filterMap LineOp.written

/-- The part of a write that the line accepted. -/
def accepted (w : List UInt8 × ℤ) : List UInt8 := w.1.take w.2.toNat

/-- The command lines that the modem hears, and at the end what it has of the next one. -/
def Ear.hears (ear : Ear) (ops : List LineOp) : List (List UInt8) :=
  (ear.keeps ((writes ops).flatMap accepted)).splitOn carriageReturn

/-- The command lines that are meant, one for each write. -/
def Ear.meant (ear : Ear) (ops : List LineOp) : List (List UInt8) :=
  (writes ops).map fun w => unframe carriageReturn (ear.keeps w.1)

/-- The arguments of a command leave its line whole: `cmd_lte` gets one carriage return, behind
its command, and `call` gets none. -/
def Command.Framed (ear : Ear) : Command → Prop
  | .cmdLte args => ∀ cmd, parseOne convertStr args = some cmd →
      Framing.Framed carriageReturn (ear.keeps cmd)
  | .call args => ∀ num, parseOne convertStr args = some num → carriageReturn ∉ num
  | _ => True

/-- So do those of a call. -/
def Call.Framed (ear : Ear) : Call → Prop
  | .command c => c.Framed ear
  | _ => True

/-! ## Lines -/

theorem Ear.mem_keeps_cr (ear : Ear) {bytes : List UInt8} :
    carriageReturn ∈ ear.keeps bytes ↔ carriageReturn ∈ bytes := by
  simp [Ear.keeps, ear.keeps_cr]

/-- What the modem keeps of a part is a part of what it keeps. -/
theorem Ear.keeps_accepted (ear : Ear) (w : List UInt8 × ℤ) :
    ear.keeps (accepted w) <+: ear.keeps w.1 :=
  (List.take_prefix _ _).filter _

/-- A text with a carriage return, a line feed and NULs behind it is a frame unless the text has
a carriage return. -/
theorem Ear.framed_text_iff (ear : Ear) (text : List UInt8) (k : ℕ) :
    Framing.Framed carriageReturn (ear.keeps (text ++ [13, 10] ++ List.replicate k 0)) ↔
      carriageReturn ∉ text := by
  have hkeeps : ear.keeps (text ++ [13, 10] ++ List.replicate k 0) =
      ear.keeps text ++ [carriageReturn] := by
    have hcr : ear.skips 13 = false := ear.keeps_cr
    simp [Ear.keeps, carriageReturn, hcr, ear.skips_lf, ear.skips_nul]
  rw [hkeeps, framed_iff, unframe_framed, and_iff_left rfl, ear.mem_keeps_cr]

/-- A text with a carriage return and a line feed behind it. -/
theorem Ear.framed_crlf_iff (ear : Ear) (text : List UInt8) :
    Framing.Framed carriageReturn (ear.keeps (text ++ [13, 10])) ↔ carriageReturn ∉ text := by
  have h := ear.framed_text_iff text 0
  rwa [List.replicate_zero, List.append_nil] at h

/-- The commands of `init` are texts, each with the end of its line and the NULs behind it. -/
theorem initCmds_text : ∀ cmd ∈ initCmds, ∃ text k,
    cmd = text ++ [13, 10] ++ List.replicate k 0 ∧ carriageReturn ∉ text := by
  have hall : ∀ cmd ∈ initCmds, carriageReturn ∉ cmd.takeWhile (· ≠ 13) ∧
      cmd = cmd.takeWhile (· ≠ 13) ++ [13, 10] ++
        List.replicate (14 - (cmd.takeWhile (· ≠ 13)).length) 0 := by
    decide +kernel
  intro cmd hcmd
  exact ⟨_, _, (hall cmd hcmd).2, (hall cmd hcmd).1⟩

/-- The line of `led`, of a status it accepts. -/
theorem ledText_text {st : ℤ} (h : -1 < st ∧ st < 2) :
    ∃ text, ledText st = text ++ [13, 10] ∧ carriageReturn ∉ text := by
  obtain rfl | rfl : st = 0 ∨ st = 1 := by omega
  · exact ⟨lit "AT^LEDCTRL=0", by decide +kernel, by decide +kernel⟩
  · exact ⟨lit "AT^LEDCTRL=1", by decide +kernel, by decide +kernel⟩

/-- The lines of a command are frames precisely if its arguments leave them whole. -/
theorem Command.framed_line_iff (ear : Ear) {c : Command} {t : Talk} (htalk : c.talk = some t)
    {line : List UInt8} (hline : line ∈ t.lines) :
    Framing.Framed carriageReturn (ear.keeps line) ↔ c.Framed ear := by
  -- A line that the source writes out.
  have hfixed : ∀ text : List UInt8, line = text ++ [13, 10] → carriageReturn ∉ text →
      (Framing.Framed carriageReturn (ear.keeps line) ↔ True) := by
    rintro text rfl htext
    exact iff_true_intro ((ear.framed_crlf_iff text).mpr htext)
  cases c with
  | init =>
    cases htalk
    obtain ⟨text, k, rfl, htext⟩ := initCmds_text line hline
    exact iff_true_intro ((ear.framed_text_iff text k).mpr htext)
  | cmdLte args =>
    obtain ⟨cmd, hcmd, ht⟩ := Option.bind_eq_some_iff.mp htalk
    cases ht
    rw [List.mem_singleton.mp hline]
    simp [Command.Framed, hcmd]
  | led args =>
    obtain ⟨st, hst, ht⟩ := Option.bind_eq_some_iff.mp htalk
    split at ht
    · rename_i hrange
      cases ht
      obtain ⟨text, htext, hcr⟩ := ledText_text hrange
      exact hfixed text ((List.mem_singleton.mp hline).trans htext) hcr
    · cases ht
  | call args =>
    obtain ⟨num, hnum, ht⟩ := Option.bind_eq_some_iff.mp htalk
    cases ht
    have htext : callText num = lit "ATD" ++ num ++ lit ";" ++ [13, 10] := by
      simp [callText, lit]
    have hd : carriageReturn ∉ lit "ATD" := by decide +kernel
    have hend : carriageReturn ∉ lit ";" := by decide +kernel
    rw [List.mem_singleton.mp hline, htext, ear.framed_crlf_iff]
    simp [Command.Framed, hnum, hd, hend]
  | status =>
    cases htalk
    exact hfixed (lit "AT^NDISSTATQRY?")
      ((List.mem_singleton.mp hline).trans (by decide +kernel)) (by decide +kernel)
  | online =>
    cases htalk
    exact hfixed (lit "AT^NDISDUP=1,1")
      ((List.mem_singleton.mp hline).trans (by decide +kernel)) (by decide +kernel)
  | offline =>
    cases htalk
    exact hfixed (lit "AT^NDISDUP=1,0")
      ((List.mem_singleton.mp hline).trans (by decide +kernel)) (by decide +kernel)
  | restart =>
    cases htalk
    exact hfixed (lit "AT^RESET")
      ((List.mem_singleton.mp hline).trans (by decide +kernel)) (by decide +kernel)
  | hangup =>
    cases htalk
    exact hfixed (lit "AT+CHUP")
      ((List.mem_singleton.mp hline).trans (by decide +kernel)) (by decide +kernel)

/-! ## The writes of a dialogue -/

theorem writes_append (ops rest : List LineOp) : writes (ops ++ rest) = writes ops ++ writes rest :=
  List.filterMap_append

theorem writes_cons (line : List UInt8) (n : ℤ) (ops : List LineOp) :
    writes (.write line n :: ops) = (line, n) :: writes ops := rfl

/-- Listening writes nothing. -/
theorem Receives.writes_eq_nil {o : Option (List UInt8)} {ops : List LineOp}
    (h : Receives o ops) : writes ops = [] := by
  cases h with
  | timeout => rfl
  | block => rfl

theorem Listens.writes_eq_nil {settles : List UInt8 → Prop} {n : ℕ} {ops : List LineOp}
    {ok : Bool} (h : Listens settles n ops ok) : writes ops = [] := by
  induction h with
  | exhausted => rfl
  | settled hreceives _ => exact hreceives.writes_eq_nil
  | missed hreceives _ _ ih => rw [writes_append, hreceives.writes_eq_nil, ih, List.append_nil]

theorem Talk.Hears.writes_eq_nil {t : Talk} {ops : List LineOp} {ok : Bool} (h : t.Hears ops ok) :
    writes ops = [] := by
  unfold Talk.Hears at h
  split at h
  · rw [h.1]
    rfl
  · exact h.writes_eq_nil

/-- A dialogue writes lines of its own only. -/
theorem Talk.Says.line_mem {t : Talk} {lines : List (List UInt8)} {ops : List LineOp}
    {e : Ending} (h : t.Says lines ops e) : ∀ w ∈ writes ops, w.1 ∈ lines := by
  induction h with
  | done =>
    intro w hw
    cases hw
  | refused =>
    intro w hw
    rw [List.mem_singleton.mp hw]
    exact List.mem_cons_self
  | unsettled hhears =>
    intro w hw
    rw [writes_cons, hhears.writes_eq_nil] at hw
    rw [List.mem_singleton.mp hw]
    exact List.mem_cons_self
  | settled hhears _ ih =>
    intro w hw
    rw [writes_cons, writes_append, hhears.writes_eq_nil, List.nil_append] at hw
    rcases List.mem_cons.mp hw with rfl | hrest
    · exact List.mem_cons_self
    · exact List.mem_cons_of_mem _ (ih w hrest)

/-- What a call writes are frames precisely if its arguments leave its lines whole. -/
theorem Call.Dialogue.framed_iff (ear : Ear) {connected : Prop} {c : Call} {r : PyRef}
    {ops : List LineOp} (h : c.Dialogue connected r ops) {w : List UInt8 × ℤ}
    (hw : w ∈ writes ops) :
    Framing.Framed carriageReturn (ear.keeps w.1) ↔ c.Framed ear := by
  have hsilent : ops ≠ [] := by
    rintro rfl
    cases hw
  cases c with
  | command c =>
    rcases h with ⟨_, h⟩ | ⟨_, hops, _⟩
    · unfold Command.Dialogue at h
      split at h
      · exact absurd h.2 hsilent
      · rename_i t htalk
        obtain ⟨e, htold, _⟩ := h
        exact c.framed_line_iff ear htalk (htold.line_mem w hw)
    · exact absurd hops hsilent
  | newLte args env => exact absurd h hsilent
  | delLte => exact absurd h hsilent
  | freeLte => exact absurd h hsilent

/-! ## Whole runs -/

/-- The modem hears what is meant precisely if every write is a frame of which it gets the end. -/
theorem Ear.hears_eq_meant_iff (ear : Ear) (ops : List LineOp) :
    ear.hears ops = ear.meant ops ++ [[]] ↔
      ∀ w ∈ writes ops, Framing.Framed carriageReturn (ear.keeps w.1) ∧
        carriageReturn ∈ accepted w := by
  let pairs := (writes ops).map fun w => (ear.keeps w.1, ear.keeps (accepted w))
  have hparts : ∀ w ∈ pairs, w.2 <+: w.1 := by
    rw [List.forall_mem_map]
    exact fun w _ => ear.keeps_accepted w
  have hstream : ear.keeps ((writes ops).flatMap accepted) = (pairs.map Prod.snd).flatten := by
    rw [Ear.keeps, List.filter_flatMap, List.map_map, List.flatMap_def]
    rfl
  have hmeant : ear.meant ops = pairs.map fun w => unframe carriageReturn w.1 := by
    rw [List.map_map]
    rfl
  rw [Ear.hears, hstream, hmeant, splitOn_flatten_eq_iff hparts, List.forall_mem_map]
  refine forall_congr' fun w => imp_congr_right fun _ => and_congr_right fun hframed => ?_
  rw [hframed.accepted_iff (ear.keeps_accepted w), ear.mem_keeps_cr]

/-- The writes of a run are frames of which the modem gets the end precisely if those of each
call are. -/
theorem framed_flatten_iff (ear : Ear) {connected : Prop} {crs : List (Call × PyRef)}
    {parts : List (List LineOp)} (h : Dialogues connected crs parts) :
    (∀ w ∈ writes parts.flatten, Framing.Framed carriageReturn (ear.keeps w.1) ∧
        carriageReturn ∈ accepted w) ↔
      List.Forall₂ (fun cr ops => ∀ w ∈ writes ops,
        Call.Framed ear cr.1 ∧ carriageReturn ∈ accepted w) crs parts := by
  induction h with
  | nil =>
    refine iff_of_true (fun w hw => ?_) .nil
    cases hw
  | cons hpart _ ih =>
    rw [List.flatten_cons, writes_append, List.forall_mem_append, List.forall₂_cons, ih]
    refine and_congr_left' (forall_congr' fun w => forall_congr' fun hw => ?_)
    rw [hpart.framed_iff ear hw]

variable [Tty π]

/-- Over a run, the modem hears the lines that are meant, each as one command line with nothing
left over, precisely if each call that writes has arguments that leave its lines whole, and the
line accepts each write up to its carriage return. -/
theorem hears_run_iff (ear : Ear) {mem mem' : Mem (Recorded π)} (hempty : mem.tty.ops = [])
    {calls : List Call} {rs : List PyRef}
    (hrun : Emits.answers answer mem calls = .ok (rs, mem')) :
    ∃ parts, Dialogues (Connected mem) (calls.zip rs) parts ∧
      mem'.tty.ops = parts.flatten ∧
      (ear.hears mem'.tty.ops = ear.meant mem'.tty.ops ++ [[]] ↔
        List.Forall₂ (fun cr ops => ∀ w ∈ writes ops,
          Call.Framed ear cr.1 ∧ carriageReturn ∈ accepted w) (calls.zip rs) parts) := by
  obtain ⟨parts, hparts, _, hops⟩ := answers_dialogues hrun
  rw [hempty, List.nil_append] at hops
  refine ⟨parts, hparts, hops, ?_⟩
  rw [hops, ear.hears_eq_meant_iff, framed_flatten_iff ear hparts]

/-- A modem that skips all other control characters. -/
def controlEar : Ear where
  skips b := b < 32 && b != carriageReturn
  skips_nul := by decide
  skips_lf := by decide
  keeps_cr := by decide

/-- `call("1\rATZ")` and `hangup()`. -/
def callHangup : List Call :=
  [.command (.call [.atom (.str (some (lit "1\rATZ")))]), .command .hangup]

/-- What these calls say. -/
def callHangupOps : List LineOp :=
  [.write (lit "ATD1\rATZ;\r\n") 11, .write (lit "AT+CHUP\r\n") 9]

/-- A number with a carriage return brings a command of its own, and both calls report success. -/
theorem hears_run_callHangup :
    ∃ mem' parts, Emits.answers answer recordedMem callHangup = .ok ([pyTrue, pyTrue], mem') ∧
      parts.flatten = callHangupOps ∧
      controlEar.hears callHangupOps = [lit "ATD1", lit "ATZ;", lit "AT+CHUP", []] ∧
      ¬List.Forall₂ (fun cr ops => ∀ w ∈ writes ops,
        Call.Framed controlEar cr.1 ∧ carriageReturn ∈ accepted w)
        (callHangup.zip [pyTrue, pyTrue]) parts := by
  have hrun : (Emits.answers answer recordedMem callHangup).map (fun r => (r.1, r.2.tty.ops)) =
      .ok ([pyTrue, pyTrue], callHangupOps) := by
    decide +kernel
  obtain ⟨⟨rs, mem'⟩, hanswers, hresult⟩ := map_eq_ok.mp hrun
  obtain ⟨rfl, hops⟩ := Prod.mk.inj hresult
  obtain ⟨parts, _, hflatten, hiff⟩ := hears_run_iff controlEar rfl hanswers
  have hhears : controlEar.hears callHangupOps = [lit "ATD1", lit "ATZ;", lit "AT+CHUP", []] := by
    decide +kernel
  refine ⟨mem', parts, hanswers, hflatten.symm.trans hops, hhears, fun hframed => ?_⟩
  have hmeant := hiff.mpr hframed
  rw [show mem'.tty.ops = callHangupOps from hops] at hmeant
  exact absurd hmeant (by decide +kernel)

end PyModules.Lte
