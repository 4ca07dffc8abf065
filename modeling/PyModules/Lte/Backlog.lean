import Mathlib.Data.List.GetD
import PyModules.Lte.Hearing
import PyModules.Lte.Session

/-!
# Answers that nobody read

`restart`, `call`, and `hangup` leave the answer of the modem on the line, and no call clears
the line before it listens. The next command that listens hears those answers before its own.
This file follows the unread bytes through a run against a modem that answers at once, and
says which calls report something else than they would on a line with nothing unread.
-/

namespace PyModules.Lte

/-- The memory with these bytes unread and these answers to come. -/
def Mem.facing (mem : Mem Modem) (unread : List UInt8) (answers : List (List UInt8)) : Mem Modem :=
  { mem with tty := ⟨unread, answers⟩ }

/-- What the command returns, and the memory after it. -/
def exchange (mem : Mem Modem) (e : Exchange) : Except Fault (PyRef × Mem Modem) :=
  answer (mem.facing mem.tty.unread e.answers) (.command e.command)

/-- The memory after the command. -/
def exchangeStep (mem : Mem Modem) (e : Exchange) : Except Fault (Mem Modem) :=
  (exchange mem e).map Prod.snd

/-- The command returns what it returns on a line with nothing unread. -/
def OwnReport (mem : Mem Modem) (e : Exchange) : Prop :=
  (exchange mem e).map Prod.fst = (exchange (mem.facing [] []) e).map Prod.fst

/-! ## The unread bytes as a protocol -/

/-- The unread bytes and the answers fit in the receive buffer with a NUL behind them, the
answers are ASCII text, and the text of the command fits its buffer. -/
structure Exchange.Plain (u : List UInt8) (e : Exchange) : Prop where
  first : (u ++ e.answers.getD 0 []).length < maxRecvBufSize
  later : ∀ a ∈ e.answers, a.length < maxRecvBufSize
  ascii : ∀ a ∈ e.answers, ∀ b ∈ a, b ≠ 0 ∧ b < 0x80
  text : e.command.TextFits

/-- The unread bytes make no difference to what the command looks for. -/
def Exchange.Undisturbed (u : List UInt8) (e : Exchange) : Prop :=
  match e.command with
  | .init => okToken <:+: u ++ e.answers.getD 0 [] →
      (∀ i, 0 < i → i < initCmds.length → okToken <:+: e.answers.getD i []) →
      okToken <:+: e.answers.getD 0 []
  | .cmdLte args => (parseOne convertStr args).isSome →
      u = [] ∨ ¬okToken <:+: u ++ e.answers.getD 0 []
  | .led args => (Command.led args).Reaches = true →
      okToken <:+: u ++ e.answers.getD 0 [] → okToken <:+: e.answers.getD 0 []
  | .status => told (u ++ e.answers.getD 0 []) = told (e.answers.getD 0 [])
  | .online => onlineToken <:+: u ++ e.answers.getD 0 [] → onlineToken <:+: e.answers.getD 0 []
  | .offline => offlineToken <:+: u ++ e.answers.getD 0 [] → offlineToken <:+: e.answers.getD 0 []
  | _ => True

/-! ## Reports with and without unread bytes -/

/-- What a command returns, by the unread bytes. -/
def Exchange.report (u : List UInt8) (e : Exchange) : PyRef :=
  if e.command.talk.isSome then e.command.report (heard u e.answers) else NULL

/-- The answers are ASCII text, so what is heard after a line is. -/
theorem Exchange.Plain.ascii_heard {u : List UInt8} {e : Exchange} (h : e.Plain u)
    (hu : ∀ b ∈ u, b ≠ 0 ∧ b < 0x80) (i : ℕ) : ∀ b ∈ heard u e.answers i, b ≠ 0 ∧ b < 0x80 := by
  have hanswer : ∀ b ∈ e.answers.getD i [], b ≠ 0 ∧ b < 0x80 := by
    intro b hb
    rcases Nat.lt_or_ge i e.answers.length with hi | hi
    · rw [List.getD_eq_getElem _ _ hi] at hb
      exact h.ascii _ (List.getElem_mem hi) b hb
    · rw [List.getD_eq_default _ _ hi] at hb
      cases hb
  unfold heard
  split
  · rename_i hzero
    rw [hzero] at hanswer
    intro b hb
    exact (List.mem_append.mp hb).elim (hu b) (hanswer b)
  · exact hanswer

/-- What is heard after a line fits in the buffer. -/
theorem Exchange.Plain.fits_heard {u : List UInt8} {e : Exchange} (h : e.Plain u) (i : ℕ) :
    (heard u e.answers i).length < maxRecvBufSize := by
  unfold heard
  split
  · exact h.first
  · rcases Nat.lt_or_ge i e.answers.length with hi | hi
    · rw [List.getD_eq_getElem _ _ hi]
      exact h.later _ (List.getElem_mem hi)
    · rw [List.getD_eq_default _ _ hi]
      decide

/-- Without the unread bytes there is less to fit in. -/
theorem Exchange.Plain.emptied {u : List UInt8} {e : Exchange} (h : e.Plain u) : e.Plain [] where
  first := by
    have hfirst := h.first
    rw [List.length_append] at hfirst
    rw [List.nil_append]
    omega
  later := h.later
  ascii := h.ascii
  text := h.text

/-- What a command returns on a line with these unread bytes, and what it leaves unread. -/
theorem exchange_reports {mem : Mem Modem} (hconn : Connected mem) {e : Exchange}
    (hplain : e.Plain mem.tty.unread) (hu : ∀ b ∈ mem.tty.unread, b ≠ 0 ∧ b < 0x80) :
    ∃ mem', exchange mem e = .ok (e.report mem.tty.unread, mem') ∧ Connected mem' ∧
      mem'.tty.unread = e.unread mem.tty.unread := by
  have hends : Ends e.command.body ⟨none, mem.facing mem.tty.unread e.answers⟩
      (e.report mem.tty.unread) (e.unread mem.tty.unread) := by
    cases htalk : e.command.talk with
    | none =>
      have hsilent := ends_silent htalk ⟨none, mem.facing mem.tty.unread e.answers⟩
      simp only [Exchange.report, Exchange.unread, htalk]
      exact hsilent
    | some t =>
      have hreaches : e.command.Reaches = true := by rw [← Command.talk_isSome, htalk]; rfl
      have hfirst : Legible (heard mem.tty.unread e.answers 0) :=
        ⟨hplain.fits_heard 0, hplain.ascii_heard hu 0⟩
      have hreport := ends_command hreaches hplain.text
        (s := ⟨none, mem.facing mem.tty.unread e.answers⟩) hconn hfirst
        fun i => (hplain.fits_heard i).le
      simp only [Exchange.report, htalk]
      exact hreport
  obtain ⟨s', hrun, hunread⟩ := hends
  refine ⟨s'.mem, map_eq_ok.mpr ⟨(_, s'), hrun, rfl⟩, ?_, hunread⟩
  exact ((LineOnly.command e.command).keeps _ _ _ hrun).connected_iff.mpr hconn

theorem pyBool_eq_iff {p q : Prop} [Decidable p] [Decidable q] :
    pyBool p = pyBool q ↔ (p ↔ q) := by
  unfold pyBool
  by_cases hp : p <;> by_cases hq : q <;> simp [hp, hq, pyTrue, pyFalse]

theorem pyText_inj {x y : List UInt8} : pyText x = pyText y ↔ x = y := by
  simp [pyText]

/-- The text that `cmd_lte` returns shows the bytes before the answer, unless neither has `OK`. -/
theorem textOrError_eq_iff {u a : List UInt8} :
    ((if okToken <:+: u ++ a then pyText (u ++ a) else pyText (lit "ERROR")) =
        if okToken <:+: a then pyText a else pyText (lit "ERROR")) ↔
      u = [] ∨ ¬okToken <:+: u ++ a := by
  by_cases hheard : okToken <:+: u ++ a
  · rw [if_pos hheard, or_iff_left (not_not.mpr hheard)]
    constructor
    · intro h
      by_cases hown : okToken <:+: a
      · rw [if_pos hown, pyText_inj] at h
        exact List.append_left_eq_self.mp h
      · rw [if_neg hown, pyText_inj] at h
        rw [h] at hheard
        exact absurd hheard (by decide +kernel)
    · rintro rfl
      rw [List.nil_append] at hheard ⊢
      rw [if_pos hheard]
  · have hown : ¬okToken <:+: a := fun h => hheard (List.infix_append_of_infix_right h)
    simp [hheard, hown]

/-- Only the text after the first line holds what was unread. -/
theorem all_heard_iff {n : ℕ} (hn : 0 < n) {token u : List UInt8} {answers : List (List UInt8)} :
    (∀ i < n, token <:+: heard u answers i) ↔
      token <:+: u ++ answers.getD 0 [] ∧
        ∀ i, 0 < i → i < n → token <:+: answers.getD i [] := by
  have hlater : ∀ i, 0 < i → heard u answers i = answers.getD i [] := by
    intro i hi
    rw [heard, if_neg (by omega)]
  constructor
  · intro h
    refine ⟨h 0 hn, fun i hpos hi => ?_⟩
    rw [← hlater i hpos]
    exact h i hi
  · rintro ⟨hfirst, hrest⟩ i hi
    rcases Nat.eq_zero_or_pos i with rfl | hpos
    · exact hfirst
    · rw [hlater i hpos]
      exact hrest i hpos hi

/-- A command reports the same with and without the unread bytes precisely when they make no
difference to what it looks for. -/
theorem report_eq_iff {u : List UInt8} {e : Exchange} :
    e.report u = e.report [] ↔ e.Undisturbed u := by
  obtain ⟨c, answers⟩ := e
  have htext : ∀ u, heard u answers 0 = u ++ answers.getD 0 [] := fun u => rfl
  have htoken : ∀ token : List UInt8,
      (pyBool (token <:+: heard u answers 0) = pyBool (token <:+: heard [] answers 0) ↔
        (token <:+: u ++ answers.getD 0 [] → token <:+: answers.getD 0 [])) := by
    intro token
    rw [pyBool_eq_iff, htext, htext, List.nil_append]
    exact ⟨fun h => h.mp, fun h => ⟨h, List.infix_append_of_infix_right⟩⟩
  cases c with
  | init =>
    have hreport : ∀ u, (Exchange.report u ⟨.init, answers⟩) =
        pyBool (∀ i < initCmds.length, okToken <:+: heard u answers i) := fun u => rfl
    have hlines : 0 < initCmds.length := by decide +kernel
    have hown : okToken <:+: answers.getD 0 [] → okToken <:+: u ++ answers.getD 0 [] :=
      List.infix_append_of_infix_right
    rw [hreport, hreport, pyBool_eq_iff, all_heard_iff hlines, all_heard_iff hlines,
      List.nil_append]
    constructor
    · intro h hfirst hrest
      exact (h.mp ⟨hfirst, hrest⟩).1
    · exact fun h => ⟨fun ⟨hfirst, hrest⟩ => ⟨h hfirst hrest, hrest⟩,
        fun ⟨hfirst, hrest⟩ => ⟨hown hfirst, hrest⟩⟩
  | cmdLte args =>
    cases hcmd : parseOne convertStr args with
    | none => simp [Exchange.report, Command.talk, hcmd, Exchange.Undisturbed]
    | some cmd =>
      have hreport : ∀ u, (Exchange.report u ⟨.cmdLte args, answers⟩) =
          if okToken <:+: heard u answers 0 then pyText (heard u answers 0)
          else pyText (lit "ERROR") := by
        intro u
        simp [Exchange.report, Command.talk, hcmd, Command.report]
      have hundisturbed : (Exchange.Undisturbed u ⟨.cmdLte args, answers⟩) ↔
          (u = [] ∨ ¬okToken <:+: u ++ answers.getD 0 []) := by
        simp [Exchange.Undisturbed, hcmd]
      rw [hreport, hreport, hundisturbed, htext, htext, List.nil_append]
      exact textOrError_eq_iff
  | led args =>
    cases hreaches : (Command.led args).Reaches with
    | false =>
      simp [Exchange.report, Command.talk_isSome, Exchange.Undisturbed, hreaches]
    | true =>
      have hreport : ∀ u, (Exchange.report u ⟨.led args, answers⟩) =
          pyBool (okToken <:+: heard u answers 0) := by
        intro u
        rw [Exchange.report, Command.talk_isSome, if_pos hreaches]
        rfl
      rw [hreport, hreport, htoken]
      simp only [Exchange.Undisturbed, hreaches, forall_const]
  | status =>
    have hreport : ∀ u, (Exchange.report u ⟨.status, answers⟩) =
        pyText (statusWord (told (heard u answers 0))) := fun u => rfl
    rw [hreport, hreport, pyText_inj, statusWord_inj, htext, htext, List.nil_append]
    exact Iff.rfl
  | online => exact htoken onlineToken
  | offline => exact htoken offlineToken
  | restart => simp [Exchange.report, Command.report, Exchange.Undisturbed]
  | call args => simp [Exchange.report, Command.report, Exchange.Undisturbed]
  | hangup => simp [Exchange.report, Command.report, Exchange.Undisturbed]

/-! ## Whole runs -/

/-- Along a run of commands to a modem that answers at once with ASCII texts, each shorter than
the receive buffer and fitting it together with what is unread, and with numbers that fit the
buffer of `call`, each command reports what it would report with nothing unread precisely when
the answers left unread, those to `restart`, `call`, and `hangup` since the last command that
listened, make no difference to what the command looks for. -/
theorem own_reports_iff {mem : Mem Modem} (hconn : Connected mem) (hnil : mem.tty.unread = [])
    {es : List Exchange} (hplain : Runs.Accepts Exchange.unread Exchange.Plain [] es) :
    Runs.Always exchangeStep OwnReport mem es ↔
      Runs.Accepts Exchange.unread Exchange.Undisturbed [] es := by
  let R : Mem Modem → List UInt8 → Prop := fun mem u =>
    Connected mem ∧ mem.tty.unread = u ∧ ∀ b ∈ u, b ≠ 0 ∧ b < 0x80
  have hR : R mem [] := ⟨hconn, hnil, fun b hb => absurd hb List.not_mem_nil⟩
  refine Runs.always_iff_accepts (R := R) ?_ ?_ hR hplain
  · rintro mem u e ⟨hconn, rfl, hu⟩ hplain
    obtain ⟨mem', hrun, _⟩ := exchange_reports hconn hplain hu
    have hempty : Connected (mem.facing [] []) := hconn
    obtain ⟨mem'', hclear, _⟩ := exchange_reports hempty hplain.emptied
      fun b hb => absurd hb List.not_mem_nil
    have hreports : OwnReport mem e ↔ e.report mem.tty.unread = e.report [] := by
      simp only [OwnReport, hrun, hclear, Except.map, Except.ok.injEq]
      exact Iff.rfl
    exact hreports.trans report_eq_iff
  · rintro mem u e ⟨hconn, rfl, hu⟩ hplain
    obtain ⟨mem', hrun, hconn', hunread⟩ := exchange_reports hconn hplain hu
    refine ⟨mem', map_eq_ok.mpr ⟨_, hrun, rfl⟩, hconn', hunread, ?_⟩
    unfold Exchange.unread
    split
    · exact hu
    · split
      · exact fun b hb => absurd hb List.not_mem_nil
      · exact hplain.ascii_heard hu 0

/-- A connected machine, with nothing unread. -/
def modemMem : Mem Modem :=
  ⟨some 0, Heap.empty.alloc ⟨some 0, none⟩, Heap.empty.alloc (), ⟨[], []⟩, []⟩

/-- `hangup()`, which the modem accepts, and `led(1)`, which it refuses. -/
def hangupLed : List Exchange :=
  [⟨.hangup, [lit "\r\nOK\r\n"]⟩, ⟨.led [.atom (.int 1)], [lit "\r\nERROR\r\n"]⟩]

/-- The refused `led(1)` reports the `OK` that was meant for `hangup()`. -/
theorem own_reports_iff_hangupLed : ¬Runs.Always exchangeStep OwnReport modemMem hangupLed := by
  have hconn : Connected modemMem := ⟨0, ⟨some 0, none⟩, 0, rfl, rfl, rfl⟩
  have hhangup : Exchange.Plain [] ⟨.hangup, [lit "\r\nOK\r\n"]⟩ :=
    ⟨by decide +kernel, by decide +kernel, by decide +kernel, trivial⟩
  have hled : Exchange.Plain (lit "\r\nOK\r\n")
      ⟨.led [.atom (.int 1)], [lit "\r\nERROR\r\n"]⟩ :=
    ⟨by decide +kernel, by decide +kernel, by decide +kernel, trivial⟩
  have hplain : Runs.Accepts Exchange.unread Exchange.Plain [] hangupLed :=
    ⟨hhangup, hled, trivial⟩
  intro h
  have hundisturbed := (own_reports_iff hconn rfl hplain).mp h
  have hown := hundisturbed.2.1 rfl (by decide +kernel)
  exact absurd hown (by decide +kernel)

end PyModules.Lte
