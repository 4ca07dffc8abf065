import PyModules.Lte.Dialogue

/-!
# What a command hears

A modem that answers each line at once, and what the commands hear of its answers: one read
fetches everything that was sent to the module, and the first line of a command is answered
behind the bytes that were unread before it.
-/

namespace PyModules.Lte

open Overlap

/-- A modem that answers each line as soon as it is written. -/
structure Modem where
  /-- Bytes that were sent to the module and not read by it. -/
  unread : List UInt8
  /-- What the modem answers to the coming lines; nothing after these. -/
  answers : List (List UInt8)
  deriving DecidableEq, Repr

/-- The modem after a line: it has sent the answer. -/
def Modem.answered (m : Modem) : Modem := ⟨m.unread ++ m.answers.getD 0 [], m.answers.tail⟩

/-- The modem after everything was read. -/
def Modem.emptied (m : Modem) : Modem := ⟨[], m.answers⟩

instance : Tty Modem where
  write req m := (req.length, m.answered)
  select m := (if m.unread = [] then 0 else 1, m)
  read n m := (some (m.unread.take n), ⟨m.unread.drop n, m.answers⟩)
  read_length n m b h := by
    cases h
    exact List.length_take_le n m.unread

/-- A command, and what the modem will answer to its lines. -/
structure Exchange where
  command : Command
  answers : List (List UInt8)
  deriving DecidableEq, Repr

/-- What is unread after a command: nothing if it listens. -/
def Exchange.unread (u : List UInt8) (e : Exchange) : List UInt8 :=
  match e.command.talk with
  | none => u
  | some t => if t.listens.isSome then [] else u ++ e.answers.getD 0 []

/-! ## Texts and reports -/

/-- A line with little unread is emptied by one read. -/
theorem received_modem {m : Modem} (h : m.unread.length ≤ maxRecvBufSize) :
    received m = (if m.unread = [] then none else some m.unread, m.emptied) := by
  obtain ⟨unread, answers⟩ := m
  by_cases hnil : unread = []
  · subst hnil
    simp [received, Tty.select, Modem.emptied]
  · simp [received, Tty.select, Tty.read, hnil, List.take_of_length_le h,
      List.drop_eq_nil_of_le h, Modem.emptied]

/-- The text heard after the line number `i` of a command. -/
def heard (u : List UInt8) (answers : List (List UInt8)) (i : ℕ) : List UInt8 :=
  if i = 0 then u ++ answers.getD 0 [] else answers.getD i []

/-- A Python string of ASCII text. -/
def pyText (text : List UInt8) : PyRef := some (.atom (.str (some text)))

/-- Python's truth of a proposition. -/
def pyBool (p : Prop) [Decidable p] : PyRef := if p then pyTrue else pyFalse

/-- What a command that can be sent reports, by the texts heard after its lines. -/
def Command.report (c : Command) (texts : ℕ → List UInt8) : PyRef :=
  match c with
  | .init => pyBool (∀ i < initCmds.length, okToken <:+: texts i)
  | .cmdLte _ => if okToken <:+: texts 0 then pyText (texts 0) else pyText (lit "ERROR")
  | .led _ => pyBool (okToken <:+: texts 0)
  | .status => pyText (statusWord (told (texts 0)))
  | .online => pyBool (onlineToken <:+: texts 0)
  | .offline => pyBool (offlineToken <:+: texts 0)
  | _ => pyTrue

/-- A text that a command can return: it leaves room for a NUL, and it is ASCII without NUL. -/
structure Legible (text : List UInt8) : Prop where
  fits : text.length < maxRecvBufSize
  ascii : ∀ b ∈ text, b ≠ 0 ∧ b < 0x80

/-- The program ends with this result on a line with these unread bytes. -/
def Ends {α : Type} (x : CM (Mem Modem) α) (s : Proc (Mem Modem)) (a : α) (u : List UInt8) :
    Prop :=
  ∃ s', x.run s = .ok (a, s') ∧ s'.mem.tty.unread = u

theorem ends_raise (msg : String) (s : Proc (Mem Modem)) :
    Ends (raise msg) s NULL s.mem.tty.unread := ⟨_, run_raise msg s, rfl⟩

theorem ends_buildStr {s : Proc (Mem Modem)} {text : List UInt8} (h : ∀ b ∈ text, b < 0x80) :
    Ends (buildStr text) s (pyText text) s.mem.tty.unread := by
  refine ⟨s, ?_, rfl⟩
  rw [run_buildStr, if_pos (utf8Valid_of_ascii h)]
  rfl

/-- A legible text is found whole in the buffer. -/
theorem ends_buildValueS {s : Proc (Mem Modem)} {text : List UInt8} (h : Legible text) :
    Ends (buildValueS (fill text)) s (pyText text) s.mem.tty.unread := by
  have hnul : (0 : UInt8) ∉ text := fun h0 => (h.ascii 0 h0).1 rfl
  have hstr : cString (fill text) = some text := by
    rw [cString_fill_eq_some h.fits.le h.fits]
    exact takeWhile_eq_self_iff.mpr hnul
  have hbuild := ends_buildStr (s := s) fun b hb => (h.ascii b hb).2
  simpa only [Ends, buildValueS, hstr] using hbuild

/-- Reading one reply: only a text with `OK` passes, and nothing is left unread. -/
theorem ends_okReply {α : Type} {s : Proc (Mem Modem)} (hconn : Connected s.mem)
    (hfits : s.mem.tty.unread.length ≤ maxRecvBufSize) {x y : List UInt8 → CM (Mem Modem) α}
    {a : α} {u : List UInt8}
    (hx : ∀ buffer, ¬okToken <:+: s.mem.tty.unread →
      Ends (x buffer) (withTty s s.mem.tty.emptied) a u)
    (hy : okToken <:+: s.mem.tty.unread →
      Ends (y (fill s.mem.tty.unread)) (withTty s s.mem.tty.emptied) a u) :
    Ends (do
      let (len, buffer) ← ctxRecv
      if ← lacksOk buffer len then x buffer else y buffer) s a u := by
  have hrun := run_okReply hconn x y
  rw [received_modem hfits] at hrun
  by_cases hnil : s.mem.tty.unread = []
  · rw [if_pos hnil] at hrun
    obtain ⟨s', hok, hu⟩ := hx zeroBuffer (by rw [hnil]; decide)
    exact ⟨s', hrun.trans hok, hu⟩
  · rw [if_neg hnil] at hrun
    dsimp only at hrun
    by_cases hin : okToken <:+: s.mem.tty.unread
    · rw [if_pos hin] at hrun
      obtain ⟨s', hok, hu⟩ := hy hin
      exact ⟨s', hrun.trans hok, hu⟩
    · rw [if_neg hin] at hrun
      obtain ⟨s', hok, hu⟩ := hx _ hin
      exact ⟨s', hrun.trans hok, hu⟩

/-- A line is always accepted, and answered at once. -/
theorem ends_sent {α : Type} {s : Proc (Mem Modem)} (hconn : Connected s.mem) {line : List UInt8}
    {x y : CM (Mem Modem) α} {a : α} {u : List UInt8}
    (hy : Ends y (withTty s s.mem.tty.answered) a u) :
    Ends (do
      let ret ← ctxSend line
      if ret ≠ line.length then x else y) s a u := by
  obtain ⟨s', hrun, hu⟩ := hy
  exact ⟨s', (run_sent hconn rfl x y).trans hrun, hu⟩

/-- The texts heard after the lines that follow the first one. -/
theorem heard_succ (u : List UInt8) (answers : List (List UInt8)) (i : ℕ) :
    heard u answers (i + 1) = heard [] answers.tail i := by
  cases answers with
  | nil => simp [heard]
  | cons a answers =>
    cases i with
    | zero => simp [heard]
    | succ i => simp [heard]

/-- `init` goes on as long as it hears `OK`, and leaves nothing unread. -/
theorem ends_initFrom {lines : List (List UInt8)} {s : Proc (Mem Modem)} (hconn : Connected s.mem)
    (hfits : ∀ i, (heard s.mem.tty.unread s.mem.tty.answers i).length ≤ maxRecvBufSize)
    (hlines : lines = [] → s.mem.tty.unread = []) :
    Ends (initFrom lines) s
      (pyBool (∀ i < lines.length, okToken <:+: heard s.mem.tty.unread s.mem.tty.answers i))
      [] := by
  induction lines generalizing s with
  | nil => exact ⟨s, by simp [initFrom, pyBool], hlines rfl⟩
  | cons line lines ih =>
    have hfirst := hfits 0
    simp only [heard, if_true] at hfirst
    refine ends_sent hconn ?_
    refine ends_okReply (s := withTty s s.mem.tty.answered) (x := fun _ => pure pyFalse)
      (y := fun _ => initFrom lines) (hconn.withTty _) hfirst (fun _ hno => ?_) fun hok => ?_
    · have hall : ¬∀ i < (line :: lines).length,
          okToken <:+: heard s.mem.tty.unread s.mem.tty.answers i :=
        fun h => hno (h 0 (Nat.succ_pos _))
      refine ⟨withTty s s.mem.tty.answered.emptied, ?_, rfl⟩
      rw [pyBool, if_neg hall]
      rfl
    · have hrest := ih (s := withTty s s.mem.tty.answered.emptied) (hconn.withTty _)
        (fun i => ?_) fun _ => rfl
      · have hiff : (∀ i < (line :: lines).length,
              okToken <:+: heard s.mem.tty.unread s.mem.tty.answers i) ↔
            ∀ i < lines.length, okToken <:+: heard [] s.mem.tty.answers.tail i := by
          constructor
          · intro h i hi
            rw [← heard_succ s.mem.tty.unread]
            exact h (i + 1) (Nat.succ_lt_succ hi)
          · rintro h (_ | i) hi
            · exact hok
            · rw [heard_succ]
              exact h i (Nat.lt_of_succ_lt_succ hi)
        simp only [pyBool, hiff]
        exact hrest
      · have hlater := hfits (i + 1)
        rwa [heard_succ] at hlater

/-- With nothing unread, the loop of `online` and `offline` hears nothing. -/
theorem ends_pollFrom_silent {token : List UInt8} (htoken : token ≠ [])
    (hsize : token.length ≤ maxRecvBufSize) (found : CM (Mem Modem) PyRef) (n : ℕ)
    {s : Proc (Mem Modem)} (hconn : Connected s.mem) (hnil : s.mem.tty.unread = []) :
    Ends (pollFrom token found n) s pyFalse [] := by
  induction n generalizing s with
  | zero => exact ⟨s, rfl, hnil⟩
  | succ n ih =>
    have hfits : s.mem.tty.unread.length ≤ maxRecvBufSize := by simp [hnil]
    have hrun := run_pollFrom_succ hconn htoken hsize found n
    rw [received_modem hfits, if_pos hnil] at hrun
    obtain ⟨s', hok, hu⟩ := ih (s := withTty s s.mem.tty.emptied) (hconn.withTty _) rfl
    exact ⟨s', hrun.trans hok, hu⟩

/-- The loop of `online` and `offline` hears all that is unread at once. -/
theorem ends_pollFrom {token : List UInt8} (htoken : token ≠ [])
    (hsize : token.length ≤ maxRecvBufSize) {found : CM (Mem Modem) PyRef}
    (hfound : ∀ s, ∃ s', found.run s = .ok (pyTrue, s') ∧ s'.mem.tty = s.mem.tty) (n : ℕ)
    {s : Proc (Mem Modem)} (hconn : Connected s.mem)
    (hfits : s.mem.tty.unread.length ≤ maxRecvBufSize) :
    Ends (pollFrom token found (n + 1)) s (pyBool (token <:+: s.mem.tty.unread)) [] := by
  have hrun := run_pollFrom_succ hconn htoken hsize found n
  have hsilent := ends_pollFrom_silent htoken hsize found n
    (s := withTty s s.mem.tty.emptied) (hconn.withTty _) rfl
  rw [received_modem hfits] at hrun
  by_cases hnil : s.mem.tty.unread = []
  · rw [if_pos hnil] at hrun
    have hno : ¬token <:+: s.mem.tty.unread := by rwa [hnil, List.infix_nil]
    rw [pyBool, if_neg hno]
    obtain ⟨s', hok, hu⟩ := hsilent
    exact ⟨s', hrun.trans hok, hu⟩
  · rw [if_neg hnil] at hrun
    dsimp only at hrun
    by_cases hin : token <:+: s.mem.tty.unread
    · rw [if_pos hin] at hrun
      obtain ⟨s', hok, htty⟩ := hfound (withTty s s.mem.tty.emptied)
      rw [pyBool, if_pos hin]
      exact ⟨s', hrun.trans hok, by rw [htty]; rfl⟩
    · rw [if_neg hin] at hrun
      obtain ⟨s', hok, hu⟩ := hsilent
      rw [pyBool, if_neg hin]
      exact ⟨s', hrun.trans hok, hu⟩

/-- The words of `status` can be returned. -/
theorem ends_statusWord (x : Option Bool) (s : Proc (Mem Modem)) :
    Ends (buildStr (statusWord x)) s (pyText (statusWord x)) s.mem.tty.unread := by
  refine ⟨s, ?_, rfl⟩
  rw [run_buildStr, if_pos (utf8Valid_statusWord x)]
  rfl

/-- With nothing unread, the loop of `status` hears nothing. -/
theorem ends_statusFrom_silent (n : ℕ) {s : Proc (Mem Modem)} (hconn : Connected s.mem)
    (hnil : s.mem.tty.unread = []) : Ends (statusFrom n) s (pyText (statusWord none)) [] := by
  induction n generalizing s with
  | zero =>
    rw [← hnil]
    exact ends_statusWord none s
  | succ n ih =>
    have hfits : s.mem.tty.unread.length ≤ maxRecvBufSize := by simp [hnil]
    have hrun := run_statusFrom_succ hconn n
    rw [received_modem hfits, if_pos hnil] at hrun
    obtain ⟨s', hok, hu⟩ := ih (s := withTty s s.mem.tty.emptied) (hconn.withTty _) rfl
    exact ⟨s', hrun.trans hok, hu⟩

/-- The loop of `status` hears all that is unread at once. -/
theorem ends_statusFrom (n : ℕ) {s : Proc (Mem Modem)} (hconn : Connected s.mem)
    (hfits : s.mem.tty.unread.length < maxRecvBufSize) :
    Ends (statusFrom (n + 1)) s (pyText (statusWord (told s.mem.tty.unread))) [] := by
  have hsilent := ends_statusFrom_silent n (s := withTty s s.mem.tty.emptied)
    (hconn.withTty _) rfl
  by_cases hnil : s.mem.tty.unread = []
  · rw [hnil]
    exact ends_statusFrom_silent (n + 1) hconn hnil
  · have hr : received s.mem.tty = (some s.mem.tty.unread, s.mem.tty.emptied) := by
      rw [received_modem hfits.le, if_neg hnil]
    have hlast : firstOccurrence statusToken s.mem.tty.unread ≠ some lastStart := by
      intro h
      have hin := (firstOccurrence_eq_some.mp h).2.1.le_length (by decide)
      have hstart : lastStart + statusToken.length = maxRecvBufSize := by decide
      omega
    have hrun := run_statusFrom_block hconn n hr hlast
    rcases htold : told s.mem.tty.unread with _ | d
    · rw [htold] at hrun
      obtain ⟨s', hok, hu⟩ := hsilent
      exact ⟨s', hrun.trans hok, hu⟩
    · rw [htold] at hrun
      obtain ⟨s', hok, hu⟩ := ends_statusWord (some d) (withTty s s.mem.tty.emptied)
      exact ⟨s', hrun.trans hok, hu⟩

/-- A command that does not listen leaves its answer unread. -/
theorem ends_sendOnly {s : Proc (Mem Modem)} (hconn : Connected s.mem) (line : List UInt8) :
    Ends (sendOnly line) s pyTrue s.mem.tty.answered.unread :=
  ends_sent hconn ⟨_, rfl, rfl⟩

/-- A command that refuses its arguments leaves the line alone. -/
theorem ends_silent {c : Command} (h : c.talk = none) (s : Proc (Mem Modem)) :
    Ends c.body s NULL s.mem.tty.unread := by
  cases c with
  | cmdLte args =>
    have hcmd : parseOne convertStr args = none := by
      by_contra hsome
      obtain ⟨cmd, hcmd⟩ := Option.ne_none_iff_exists'.mp hsome
      simp [Command.talk, hcmd] at h
    rw [Command.body, cmdLte, hcmd]
    exact ends_raise _ s
  | led args =>
    cases hst : parseOne convertInt args with
    | none =>
      rw [Command.body, led, hst]
      exact ends_raise _ s
    | some st =>
      have hrange : ¬(-1 < st ∧ st < 2) := by
        intro hrange
        rw [Command.talk_led hst, if_pos hrange] at h
        cases h
      have hbad : st ≤ -1 ∨ st ≥ 2 := by omega
      simp only [Command.body, led, hst, if_pos hbad]
      exact ends_raise _ s
  | call args =>
    have hnum : parseOne convertStr args = none := by
      by_contra hsome
      obtain ⟨num, hnum⟩ := Option.ne_none_iff_exists'.mp hsome
      simp [Command.talk, hnum] at h
    rw [Command.body, call, hnum]
    exact ends_raise _ s
  | _ => simp [Command.talk] at h

theorem onlineToken_ne : onlineToken ≠ [] := by decide

theorem offlineToken_ne : offlineToken ≠ [] := by decide

/-- A command that can be sent reports what it hears. -/
theorem ends_command {c : Command} (hreaches : c.Reaches = true) (htext : c.TextFits)
    {s : Proc (Mem Modem)} (hconn : Connected s.mem)
    (hfirst : Legible (heard s.mem.tty.unread s.mem.tty.answers 0))
    (hfits : ∀ i, (heard s.mem.tty.unread s.mem.tty.answers i).length ≤ maxRecvBufSize) :
    Ends c.body s (c.report (heard s.mem.tty.unread s.mem.tty.answers))
      (Exchange.unread s.mem.tty.unread ⟨c, s.mem.tty.answers⟩) := by
  have hlisten : s.mem.tty.answered.unread.length ≤ maxRecvBufSize := hfits 0
  cases c with
  | init => exact ends_initFrom hconn hfits fun hnil => absurd hnil (by decide +kernel)
  | cmdLte args =>
    simp only [Command.Reaches] at hreaches
    obtain ⟨cmd, hcmd⟩ := Option.isSome_iff_exists.mp hreaches
    rw [Command.body, cmdLte, hcmd]
    have hunread : Exchange.unread s.mem.tty.unread ⟨.cmdLte args, s.mem.tty.answers⟩ = [] := by
      simp [Exchange.unread, Command.talk, hcmd]
    rw [hunread, Command.report]
    refine ends_sent hconn ?_
    refine ends_okReply (s := withTty s s.mem.tty.answered)
      (x := fun _ => buildStr (lit "ERROR")) (y := buildValueS) (hconn.withTty _) hlisten
      (fun _ hno => ?_) fun hok => ?_
    · have hno' : ¬okToken <:+: heard s.mem.tty.unread s.mem.tty.answers 0 := hno
      rw [if_neg hno']
      exact ends_buildStr (s := withTty s s.mem.tty.answered.emptied) (by decide +kernel)
    · have hok' : okToken <:+: heard s.mem.tty.unread s.mem.tty.answers 0 := hok
      rw [if_pos hok']
      exact ends_buildValueS (s := withTty s s.mem.tty.answered.emptied) hfirst
  | led args =>
    simp only [Command.Reaches] at hreaches
    split at hreaches
    · rename_i st hst
      have hrange : -1 < st ∧ st < 2 := of_decide_eq_true hreaches
      have hunread : Exchange.unread s.mem.tty.unread ⟨.led args, s.mem.tty.answers⟩ = [] := by
        simp only [Exchange.unread, Command.talk_led hst, if_pos hrange, Option.isSome_some,
          if_true]
      rw [Command.body, led_eq hst hrange, hunread, Command.report]
      refine ends_sent hconn ?_
      refine ends_okReply (s := withTty s s.mem.tty.answered) (x := fun _ => pure pyFalse)
        (y := fun _ => pure pyTrue) (hconn.withTty _) hlisten (fun _ hno => ?_) fun hok => ?_
      · have hno' : ¬okToken <:+: heard s.mem.tty.unread s.mem.tty.answers 0 := hno
        rw [pyBool, if_neg hno']
        exact ⟨_, rfl, rfl⟩
      · have hok' : okToken <:+: heard s.mem.tty.unread s.mem.tty.answers 0 := hok
        rw [pyBool, if_pos hok']
        exact ⟨_, rfl, rfl⟩
    · cases hreaches
  | status =>
    have hshort : s.mem.tty.answered.unread.length < maxRecvBufSize := hfirst.fits
    exact ends_sent hconn
      (ends_statusFrom 2 (s := withTty s s.mem.tty.answered) (hconn.withTty _) hshort)
  | online =>
    have hfound : ∀ s : Proc (Mem Modem), ∃ s',
        (do system "udhcpc -n -i usb0"; return pyTrue : CM (Mem Modem) PyRef).run s =
          .ok (pyTrue, s') ∧ s'.mem.tty = s.mem.tty := fun s => ⟨_, rfl, rfl⟩
    have hheard := ends_pollFrom (s := withTty s s.mem.tty.answered) onlineToken_ne (by decide)
      hfound 2 (hconn.withTty _) hlisten
    exact ends_sent hconn hheard
  | offline =>
    have hfound : ∀ s : Proc (Mem Modem), ∃ s', (return pyTrue : CM (Mem Modem) PyRef).run s =
        .ok (pyTrue, s') ∧ s'.mem.tty = s.mem.tty := fun s => ⟨_, rfl, rfl⟩
    have hheard := ends_pollFrom (s := withTty s s.mem.tty.answered) offlineToken_ne (by decide)
      hfound 2 (hconn.withTty _) hlisten
    exact ends_sent hconn hheard
  | restart => exact ends_sendOnly hconn _
  | call args =>
    obtain ⟨num, hnum⟩ := Option.isSome_iff_exists.mp hreaches
    have hunread : Exchange.unread s.mem.tty.unread ⟨.call args, s.mem.tty.answers⟩ =
        s.mem.tty.answered.unread := by
      simp [Exchange.unread, Command.talk, hnum, Modem.answered]
    rw [Command.body, call_eq hnum (htext num hnum), hunread]
    exact ends_sendOnly hconn _
  | hangup => exact ends_sendOnly hconn _

end PyModules.Lte
