import PyModules.Library.Emits
import PyModules.Lte.Polling
import PyModules.Lte.Status

/-!
# What a command says on the line

A line that records the system calls made on it shows a command as the modem sees it. A
command writes its lines in order and listens after each one that was accepted completely,
for as many reads as it has tries, until a block settles the line.
-/

namespace PyModules.Lte

open Overlap

variable {π : Type}

/-- A system call on the line, with its answer. -/
inductive LineOp
  | write (req : List UInt8) (n : ℤ)
  | select (rc : ℤ)
  | read (n : ℕ) (b : Option (List UInt8))
  deriving DecidableEq, Repr

/-- A line together with the system calls made on it so far. -/
structure Recorded (π : Type) where
  line : π
  ops : List LineOp

instance [Tty π] : Tty (Recorded π) where
  write req t :=
    let r := Tty.write req t.line
    (r.1, ⟨r.2, t.ops ++ [.write req r.1]⟩)
  select t :=
    let r := Tty.select t.line
    (r.1, ⟨r.2, t.ops ++ [.select r.1]⟩)
  read n t :=
    let r := Tty.read n t.line
    (r.1, ⟨r.2, t.ops ++ [.read n r.1]⟩)
  read_length n t b h := Tty.read_length n t.line b h

/-! ## Dialogues -/

/-- The system calls of one `module_recv`, and the block it returns. -/
inductive Receives : Option (List UInt8) → List LineOp → Prop
  | timeout {rc : ℤ} (h : rc = 0 ∨ rc = -1) : Receives none [.select rc]
  | block {rc : ℤ} (h : ¬(rc = 0 ∨ rc = -1)) (b : Option (List UInt8)) :
    Receives b [.select rc, .read maxRecvBufSize b]

/-- Reading until a block settles the line, at most `n` times; true if one does. -/
inductive Listens (settles : List UInt8 → Prop) : ℕ → List LineOp → Bool → Prop
  | exhausted : Listens settles 0 [] false
  | settled {n : ℕ} {b : List UInt8} {ops : List LineOp} (h : Receives (some b) ops)
      (hb : settles b) : Listens settles (n + 1) ops true
  | missed {n : ℕ} {o : Option (List UInt8)} {ops rest : List LineOp} {ok : Bool}
      (h : Receives o ops) (ho : ∀ b, o = some b → ¬settles b)
      (hrest : Listens settles n rest ok) : Listens settles (n + 1) (ops ++ rest) ok

/-- How a command talks: its lines, and how it listens after each of them, which is a number
of tries and the blocks that settle a line. Some commands do not listen. -/
structure Talk where
  lines : List (List UInt8)
  listens : Option (ℕ × (List UInt8 → Prop))

/-- What is heard after one line; true if the line is settled. -/
def Talk.Hears (t : Talk) (ops : List LineOp) (ok : Bool) : Prop :=
  match t.listens with
  | none => ops = [] ∧ ok = true
  | some (n, settles) => Listens settles n ops ok

/-- How a dialogue ends. -/
inductive Ending
  /-- With a line that was not accepted completely. -/
  | refused
  /-- With a line that nothing settled. -/
  | unsettled
  /-- With all lines settled. -/
  | settled
  deriving DecidableEq, Repr

/-- The dialogue over the lines still to send. The first line that is not accepted completely,
or not settled, ends it. -/
inductive Talk.Says (t : Talk) : List (List UInt8) → List LineOp → Ending → Prop
  | done : Says t [] [] .settled
  | refused {line : List UInt8} {lines : List (List UInt8)} {n : ℤ} (h : n ≠ line.length) :
    Says t (line :: lines) [.write line n] .refused
  | unsettled {line : List UInt8} {lines : List (List UInt8)} {ops : List LineOp}
      (h : t.Hears ops false) : Says t (line :: lines) (.write line line.length :: ops) .unsettled
  | settled {line : List UInt8} {lines : List (List UInt8)} {ops rest : List LineOp} {e : Ending}
      (h : t.Hears ops true) (hrest : Says t lines rest e) :
    Says t (line :: lines) (.write line line.length :: (ops ++ rest)) e

/-- The talk of a command whose arguments it accepts. -/
def Command.talk : Command → Option Talk
  | .init => some ⟨initCmds, some (1, (okToken <:+: ·))⟩
  | .cmdLte args => do
    let cmd ← parseOne convertStr args
    some ⟨[cmd], some (1, (okToken <:+: ·))⟩
  | .led args => do
    let st ← parseOne convertInt args
    if -1 < st ∧ st < 2 then some ⟨[ledText st], some (1, (okToken <:+: ·))⟩ else none
  | .status => some ⟨[statusCmd], some (3, fun b => told b ≠ none)⟩
  | .online => some ⟨[onlineCmd], some (3, (onlineToken <:+: ·))⟩
  | .offline => some ⟨[offlineCmd], some (3, (offlineToken <:+: ·))⟩
  | .restart => some ⟨[lit "AT^RESET\r\n"], none⟩
  | .call args => do
    let num ← parseOne convertStr args
    some ⟨[callText num], none⟩
  | .hangup => some ⟨[lit "AT+CHUP\r\n"], none⟩

/-- The block of a read that stored one. -/
def LineOp.block : LineOp → Option (List UInt8)
  | .read _ b => b
  | _ => none

/-- The last block read among some system calls. -/
def lastBlock (ops : List LineOp) : Option (List UInt8) := (ops.filterMap LineOp.block).getLast?

/-- What a command returns when a line is not accepted completely. -/
def Command.refusal : Command → PyRef
  | .init | .cmdLte _ => NULL
  | _ => pyFalse

/-- What a command returns when nothing settles a line. -/
def Command.silence : Command → PyRef
  | .cmdLte _ | .status => some (.atom (.str (some (lit "ERROR"))))
  | _ => pyFalse

/-- What a command returns when its lines are settled: `cmd_lte` the text of the last block, if
it is UTF-8, `status` the word for the digit in the last block, and the others `True`. -/
def Command.Answers (ops : List LineOp) (r : PyRef) : Command → Prop
  | .cmdLte _ => ∃ b text, lastBlock ops = some b ∧ cString (fill b) = some text ∧
      r = if utf8Valid text then some (.atom (.str (some text))) else NULL
  | .status => ∃ b d, lastBlock ops = some b ∧ told b = some d ∧
      r = some (.atom (.str (some (statusWord (some d)))))
  | _ => r = pyTrue

/-- What a command reports of its dialogue. -/
def Command.Reports (c : Command) (r : PyRef) (ops : List LineOp) : Ending → Prop
  | .refused => r = c.refusal
  | .unsettled => r = c.silence
  | .settled => c.Answers ops r

/-- The last block of what is heard last is the last block. -/
theorem lastBlock_append_of_some {ops rest : List LineOp} {b : List UInt8}
    (h : lastBlock rest = some b) : lastBlock (ops ++ rest) = some b := by
  unfold lastBlock at h ⊢
  rw [List.filterMap_append, List.getLast?_append, h]
  rfl

/-- What is heard before the last block does not change the report. -/
theorem Command.Reports.prepend {c : Command} {r : PyRef} {ops : List LineOp} {e : Ending}
    (h : c.Reports r ops e) (before : List LineOp) : c.Reports r (before ++ ops) e := by
  cases e with
  | refused => exact h
  | unsettled => exact h
  | settled =>
    cases c with
    | cmdLte args =>
      obtain ⟨b, text, hb, htext, hr⟩ := h
      exact ⟨b, text, lastBlock_append_of_some hb, htext, hr⟩
    | status =>
      obtain ⟨b, d, hb, hd, hr⟩ := h
      exact ⟨b, d, lastBlock_append_of_some hb, hd, hr⟩
    | _ => exact h

/-- The block that `module_recv` returns is the last one read. -/
theorem Receives.lastBlock {b : List UInt8} {ops : List LineOp} (h : Receives (some b) ops) :
    Lte.lastBlock ops = some b := by
  cases h with
  | block hrc b => rfl

/-! ## What the pieces of a command say -/

/-- A program that runs on a connected recorded line and adds operations that are right for
its result. -/
abbrev Talks {α : Type} (x : CM (Mem (Recorded π)) α) (G : α → List LineOp → Prop) : Prop :=
  Emits (fun s => Connected s.mem) (fun s => s.mem.tty.ops) x G

/-- A program that does not touch the line. -/
theorem talks_quiet {α : Type} {x : CM (Mem (Recorded π)) α} {G : α → List LineOp → Prop}
    (h : ∀ s a s', x.run s = .ok (a, s') →
      s'.mem.tty = s.mem.tty ∧ SameContext s.mem s'.mem ∧ G a []) : Talks x G := by
  refine Emits.quiet fun s a s' hrun => ?_
  obtain ⟨htty, hsame, hG⟩ := h s a s' hrun
  refine ⟨by rw [htty], ?_, hG⟩
  rintro ⟨p, m, fd, hp, hm, hs⟩
  exact ⟨p, m, fd, hsame.ctx ▸ hp, hsame.modules ▸ hm, hs⟩

theorem talks_raise {G : PyRef → List LineOp → Prop} (h : G NULL []) (msg : String) :
    Talks (raise msg : CM (Mem (Recorded π)) PyRef) G := by
  refine talks_quiet fun s a s' hrun => ?_
  cases hrun
  exact ⟨rfl, ⟨rfl, rfl, rfl⟩, h⟩

theorem talks_buildStr {G : PyRef → List LineOp → Prop} {bytes : List UInt8}
    (hvalid : utf8Valid bytes → G (some (.atom (.str (some bytes)))) [])
    (hinvalid : utf8Valid bytes = false → G NULL []) :
    Talks (buildStr bytes : CM (Mem (Recorded π)) PyRef) G := by
  refine talks_quiet fun s a s' hrun => ?_
  rw [run_buildStr] at hrun
  split at hrun
  · cases hrun
    exact ⟨rfl, ⟨rfl, rfl, rfl⟩, hvalid ‹_›⟩
  · cases hrun
    exact ⟨rfl, ⟨rfl, rfl, rfl⟩, hinvalid (Bool.eq_false_iff.mpr ‹_›)⟩

/-- A fault ends the run, and with it the dialogue. -/
theorem talks_fault {α : Type} {G : α → List LineOp → Prop} (f : Fault) :
    Talks (fault f : CM (Mem (Recorded π)) α) G := by
  intro s a s' hs hrun
  cases hrun

variable [Tty π]

/-- Sending is one system call; a function goes on if the whole line was accepted. -/
theorem talks_sent {α : Type} {line : List UInt8} {x y : CM (Mem (Recorded π)) α}
    {G : α → List LineOp → Prop}
    (hx : ∀ n : ℤ, n ≠ line.length → Talks x fun a ops => G a (.write line n :: ops))
    (hy : Talks y fun a ops => G a (.write line line.length :: ops)) :
    Talks (do
      let ret ← ctxSend line
      if ret ≠ line.length then x else y) G := by
  have hsend : Talks (ctxSend line : CM (Mem (Recorded π)) ℤ)
      fun n ops => ops = [.write line n] := by
    intro s n s' hs hrun
    rw [run_ctxSend hs] at hrun
    cases hrun
    exact ⟨hs.withTty _, _, rfl, rfl⟩
  refine hsend.bind fun n ops hops => ?_
  subst hops
  refine Emits.ite (hx n) fun hn => ?_
  rw [not_not.mp hn]
  exact hy

/-- What `module_recv` takes from a recorded line was recorded. -/
theorem receives_received (t : Recorded π) :
    ∃ ops, (received t).2.ops = t.ops ++ ops ∧ Receives (received t).1 ops := by
  by_cases hrc : (Tty.select t.line).1 = 0 ∨ (Tty.select t.line).1 = -1
  · refine ⟨[.select (Tty.select t.line).1], ?_, ?_⟩
    · simp [received, Tty.select, hrc]
    · have hnone : (received t).1 = none := by simp [received, Tty.select, hrc]
      rw [hnone]
      exact .timeout hrc
  · refine ⟨[.select (Tty.select t.line).1, .read maxRecvBufSize (received t).1], ?_,
      .block hrc _⟩
    simp [received, Tty.select, Tty.read, hrc]

/-- A program that receives first and goes on with the outcome. -/
theorem talks_received {α : Type} {x : CM (Mem (Recorded π)) α}
    {k : Option (List UInt8) → CM (Mem (Recorded π)) α} {G : α → List LineOp → Prop}
    (hx : ∀ s, Connected s.mem →
      x.run s = (k (received s.mem.tty).1).run (withTty s (received s.mem.tty).2))
    (hk : ∀ o ops, Receives o ops → Talks (k o) fun a rest => G a (ops ++ rest)) :
    Talks x G := by
  intro s a s' hs hrun
  rw [hx s hs] at hrun
  obtain ⟨ops, hops, hreceives⟩ := receives_received s.mem.tty
  obtain ⟨hs', rest, hlog, hG⟩ := hk _ ops hreceives _ a s' (hs.withTty _) hrun
  refine ⟨hs', ops ++ rest, ?_, hG⟩
  simp only [hlog, withTty_tty, hops, List.append_assoc]

/-- Reading one reply and testing it for `OK`. -/
theorem talks_okReply {α : Type} {x y : List UInt8 → CM (Mem (Recorded π)) α}
    {G : α → List LineOp → Prop}
    (hx : ∀ buffer ops, Listens (okToken <:+: ·) 1 ops false →
      Talks (x buffer) fun a rest => G a (ops ++ rest))
    (hy : ∀ b ops, Receives (some b) ops → okToken <:+: b →
      Talks (y (fill b)) fun a rest => G a (ops ++ rest)) :
    Talks (do
      let (len, buffer) ← ctxRecv
      if ← lacksOk buffer len then x buffer else y buffer) G := by
  refine talks_received (k := fun o => o.elim (x zeroBuffer) fun b =>
    if okToken <:+: b then y (fill b) else x (fill b)) ?_ ?_
  · intro s hs
    rw [run_okReply hs]
    rcases received s.mem.tty with ⟨_ | b, tty⟩
    · rfl
    · dsimp only [Option.elim_some]
      split <;> rfl
  · intro o ops hreceives
    have hmissed : (∀ b, o = some b → ¬okToken <:+: b) →
        Listens (okToken <:+: ·) 1 ops false := by
      intro ho
      have hlistens := Listens.missed hreceives ho .exhausted
      rwa [List.append_nil] at hlistens
    cases o with
    | none => exact hx _ ops (hmissed fun b hb => absurd hb.symm (Option.some_ne_none b))
    | some b =>
      refine Emits.ite (fun hok => hy b ops hreceives hok) fun hok => ?_
      refine hx _ ops (hmissed fun b' hb' => ?_)
      cases hb'
      exact hok

/-! ## What a command says -/

/-- The loop of `init` sends its lines one by one, up to the first that is not settled. -/
theorem talks_initFrom (t : Talk) (ht : t.listens = some (1, (okToken <:+: ·)))
    (lines : List (List UInt8)) :
    Talks (initFrom lines : CM (Mem (Recorded π)) PyRef) fun r ops =>
      ∃ e, t.Says lines ops e ∧ Command.init.Reports r ops e := by
  have hhears : ∀ ops ok, t.Hears ops ok ↔ Listens (okToken <:+: ·) 1 ops ok := by
    intro ops ok
    simp only [Talk.Hears, ht]
  induction lines with
  | nil => exact Emits.pure ⟨.settled, .done, rfl⟩
  | cons line lines ih =>
    rw [initFrom]
    refine talks_sent (fun n hn => ?_) (talks_okReply (x := fun _ => pure pyFalse)
      (y := fun _ => initFrom lines) (fun _ ops hops => ?_) fun b ops hops hok => ?_)
    · exact talks_raise ⟨.refused, .refused hn, rfl⟩ _
    · refine Emits.pure ⟨.unsettled, ?_, rfl⟩
      rw [List.append_nil]
      exact .unsettled ((hhears ops false).mpr hops)
    · refine ih.mono ?_
      rintro r rest ⟨e, htold, hr⟩
      exact ⟨e, .settled ((hhears ops true).mpr (.settled hops hok)) htold,
        hr.prepend (.write line line.length :: ops)⟩

/-- The loop of `online` and `offline` listens for the token. -/
theorem talks_pollFrom {token : List UInt8} (htoken : token ≠ [])
    (hsize : token.length ≤ maxRecvBufSize) {found : CM (Mem (Recorded π)) PyRef}
    (hfound : Talks found fun r ops => r = pyTrue ∧ ops = []) (n : ℕ) :
    Talks (pollFrom token found n) fun r ops =>
      Listens (token <:+: ·) n ops false ∧ r = pyFalse ∨
        Listens (token <:+: ·) n ops true ∧ r = pyTrue := by
  induction n with
  | zero => exact Emits.pure (.inl ⟨.exhausted, rfl⟩)
  | succ n ih =>
    refine talks_received (k := fun o => o.elim (pollFrom token found n) fun b =>
      if token <:+: b then found else pollFrom token found n) ?_ ?_
    · intro s hs
      rw [run_pollFrom_succ hs htoken hsize]
      rcases received s.mem.tty with ⟨_ | b, tty⟩
      · rfl
      · dsimp only [Option.elim_some]
        split <;> rfl
    · intro o ops hreceives
      have hmissed : (∀ b, o = some b → ¬token <:+: b) →
          Talks (pollFrom token found n) fun r rest =>
            Listens (token <:+: ·) (n + 1) (ops ++ rest) false ∧ r = pyFalse ∨
              Listens (token <:+: ·) (n + 1) (ops ++ rest) true ∧ r = pyTrue := by
        intro ho
        refine ih.mono fun r rest h => ?_
        exact h.imp (And.imp_left (.missed hreceives ho)) (And.imp_left (.missed hreceives ho))
      cases o with
      | none => exact hmissed fun b hb => absurd hb.symm (Option.some_ne_none b)
      | some b =>
        refine Emits.ite (fun hin => hfound.mono ?_) fun hin => hmissed fun b' hb' => ?_
        · rintro r rest ⟨hr, rfl⟩
          rw [List.append_nil]
          exact .inr ⟨.settled hreceives hin, hr⟩
        · cases hb'
          exact hin

/-- The words of `status` are ASCII. -/
theorem utf8Valid_statusWord (x : Option Bool) : utf8Valid (statusWord x) = true := by
  apply utf8Valid_of_ascii
  rcases x with _ | _ | _ <;> decide +kernel

/-- The loop of `status` listens for a digit. -/
theorem talks_statusFrom (n : ℕ) :
    Talks (statusFrom n : CM (Mem (Recorded π)) PyRef) fun r ops =>
      Listens (fun b => told b ≠ none) n ops false ∧ r = Command.status.silence ∨
        Listens (fun b => told b ≠ none) n ops true ∧ Command.status.Answers ops r := by
  induction n with
  | zero =>
    refine talks_buildStr (fun _ => .inl ⟨.exhausted, rfl⟩) fun hinvalid => ?_
    exact absurd (utf8Valid_statusWord none) (Bool.eq_false_iff.mp hinvalid)
  | succ n ih =>
    refine talks_received (k := fun o => o.elim (statusFrom n) fun b =>
      if firstOccurrence statusToken b = some lastStart then fault .outOfBounds
      else (told b).elim (statusFrom n) fun d => buildStr (statusWord (some d))) ?_ ?_
    · intro s hs
      rcases hr : received s.mem.tty with ⟨_ | b, tty⟩
      · rw [run_statusFrom_succ hs, hr]
        rfl
      · dsimp only [Option.elim_some]
        by_cases hlast : firstOccurrence statusToken b = some lastStart
        · rw [run_statusFrom_overrun hs n hr hlast, if_pos hlast]
          rfl
        · rw [run_statusFrom_block hs n hr hlast, if_neg hlast]
    · intro o ops hreceives
      have hmissed : (∀ b, o = some b → ¬told b ≠ none) →
          Talks (statusFrom n : CM (Mem (Recorded π)) PyRef) fun r rest =>
            Listens (fun b => told b ≠ none) (n + 1) (ops ++ rest) false ∧
                r = Command.status.silence ∨
              Listens (fun b => told b ≠ none) (n + 1) (ops ++ rest) true ∧
                Command.status.Answers (ops ++ rest) r := by
        intro ho
        refine ih.mono ?_
        rintro r rest (⟨hlistens, hr⟩ | ⟨hlistens, hr⟩)
        · exact .inl ⟨.missed hreceives ho hlistens, hr⟩
        · have hreport : Command.status.Reports r rest .settled := hr
          exact .inr ⟨.missed hreceives ho hlistens, hreport.prepend ops⟩
      cases o with
      | none => exact hmissed fun b hb => absurd hb.symm (Option.some_ne_none b)
      | some b =>
        refine Emits.ite (fun _ => talks_fault _) fun _ => ?_
        rcases htold : told b with _ | d
        · refine hmissed fun b' hb' => ?_
          cases hb'
          exact not_not.mpr htold
        · refine talks_buildStr (fun _ => ?_) fun hinvalid => ?_
          · rw [List.append_nil]
            exact .inr ⟨.settled hreceives (by rw [htold]; exact Option.some_ne_none d),
              b, d, hreceives.lastBlock, htold, rfl⟩
          · exact absurd (utf8Valid_statusWord (some d)) (Bool.eq_false_iff.mp hinvalid)

/-- What the operations of a command are, for its result. -/
def Command.Dialogue (c : Command) (r : PyRef) (ops : List LineOp) : Prop :=
  match c.talk with
  | none => r = NULL ∧ ops = []
  | some t => ∃ e, t.Says t.lines ops e ∧ c.Reports r ops e

/-- A command refuses its arguments in silence. -/
theorem Command.dialogue_of_silent {c : Command} (h : c.talk = none) : c.Dialogue NULL [] := by
  simp [Command.Dialogue, h]

/-- A command reports a dialogue over its lines. -/
theorem Command.dialogue_of_talk {c : Command} {t : Talk} (h : c.talk = some t)
    {ops : List LineOp} {e : Ending} (htold : t.Says t.lines ops e) {r : PyRef}
    (hr : c.Reports r ops e) : c.Dialogue r ops := by
  simp only [Command.Dialogue, h]
  exact ⟨e, htold, hr⟩

/-- A command with one line that is not read on. -/
theorem talks_sendOnly {c : Command} {line : List UInt8} (htalk : c.talk = some ⟨[line], none⟩)
    (hrefusal : c.refusal = pyFalse) (hanswers : ∀ ops, c.Answers ops pyTrue) :
    Talks (sendOnly line : CM (Mem (Recorded π)) PyRef) c.Dialogue := by
  have hnothing : Talk.Hears ⟨[line], none⟩ [] true := ⟨rfl, rfl⟩
  refine talks_sent (fun n hn => Emits.pure ?_) (Emits.pure ?_)
  · exact c.dialogue_of_talk htalk (.refused hn) hrefusal.symm
  · exact c.dialogue_of_talk htalk (.settled hnothing .done) (hanswers _)

/-- A command with one line that listens for up to three reads. -/
theorem talks_threeTries {c : Command} {line : List UInt8} {settles : List UInt8 → Prop}
    (htalk : c.talk = some ⟨[line], some (3, settles)⟩) (hrefusal : c.refusal = pyFalse)
    {x : CM (Mem (Recorded π)) PyRef}
    (hx : Talks x fun r ops => Listens settles 3 ops false ∧ r = c.silence ∨
      Listens settles 3 ops true ∧ c.Answers ops r) :
    Talks (do
      let ret ← ctxSend line
      if ret ≠ line.length then return pyFalse else x) c.Dialogue := by
  refine talks_sent (fun n hn => Emits.pure ?_) (hx.mono ?_)
  · exact c.dialogue_of_talk htalk (.refused hn) hrefusal.symm
  · rintro r ops (⟨hlistens, hr⟩ | ⟨hlistens, hr⟩)
    · exact c.dialogue_of_talk htalk (.unsettled hlistens) hr
    · have hreport : c.Reports r ops .settled := hr
      have hsays : Talk.Says ⟨[line], some (3, settles)⟩ [line]
          (.write line line.length :: (ops ++ [])) .settled := .settled hlistens .done
      rw [List.append_nil] at hsays
      exact c.dialogue_of_talk htalk hsays (hreport.prepend [.write line line.length])

/-- `cmd_lte` says its argument. -/
theorem talks_cmdLte (args : List PyObject) :
    Talks (cmdLte args : CM (Mem (Recorded π)) PyRef) (Command.cmdLte args).Dialogue := by
  unfold cmdLte
  cases hcmd : parseOne convertStr args with
  | none => exact talks_raise (Command.dialogue_of_silent (by simp [Command.talk, hcmd])) _
  | some cmd =>
    have htalk : (Command.cmdLte args).talk = some ⟨[cmd], some (1, (okToken <:+: ·))⟩ := by
      simp [Command.talk, hcmd]
    refine talks_sent (fun n hn => ?_) (talks_okReply (x := fun _ => buildStr (lit "ERROR"))
      (y := buildValueS) (fun _ ops hops => ?_) fun b ops hops hok => ?_)
    · exact talks_raise (Command.dialogue_of_talk htalk (.refused hn) rfl) _
    · have htold : Talk.Says ⟨[cmd], some (1, (okToken <:+: ·))⟩ [cmd]
          (.write cmd cmd.length :: (ops ++ [])) .unsettled := by
        rw [List.append_nil]
        exact .unsettled hops
      refine talks_buildStr (fun _ => Command.dialogue_of_talk htalk htold rfl) fun hinvalid => ?_
      exact absurd (utf8Valid_statusWord none) (Bool.eq_false_iff.mp hinvalid)
    · have htold : Talk.Says ⟨[cmd], some (1, (okToken <:+: ·))⟩ [cmd]
          (.write cmd cmd.length :: (ops ++ [])) .settled := .settled (.settled hops hok) .done
      have hblock : lastBlock ([.write cmd cmd.length] ++ (ops ++ [])) = some b := by
        rw [List.append_nil]
        exact lastBlock_append_of_some hops.lastBlock
      unfold buildValueS
      split
      · rename_i text htext
        refine talks_buildStr (fun hvalid => ?_) fun hinvalid => ?_
        · exact Command.dialogue_of_talk htalk htold ⟨b, text, hblock, htext, by rw [if_pos hvalid]⟩
        · exact Command.dialogue_of_talk htalk htold
            ⟨b, text, hblock, htext, by rw [hinvalid]; rfl⟩
      · exact talks_fault _

/-- The talk of `led` with a status it can read. -/
theorem Command.talk_led {args : List PyObject} {st : ℤ}
    (hst : parseOne convertInt args = some st) :
    (Command.led args).talk =
      if -1 < st ∧ st < 2 then some ⟨[ledText st], some (1, (okToken <:+: ·))⟩ else none := by
  rw [Command.talk, hst, Option.bind_eq_bind, Option.bind_some]

/-- A command talks precisely if it goes on to the line. -/
theorem Command.talk_isSome (c : Command) : c.talk.isSome = c.Reaches := by
  cases c with
  | cmdLte args => cases hcmd : parseOne convertStr args <;> simp [talk, Reaches, hcmd]
  | led args =>
    cases hst : parseOne convertInt args with
    | none => simp [talk, Reaches, hst]
    | some st =>
      by_cases hrange : -1 < st ∧ st < 2
      · rw [talk_led hst, if_pos hrange, Reaches, hst]
        exact (decide_eq_true hrange).symm
      · rw [talk_led hst, if_neg hrange, Reaches, hst]
        exact (decide_eq_false hrange).symm
  | call args => cases hnum : parseOne convertStr args <;> simp [talk, Reaches, hnum]
  | _ => rfl

/-- `led` says the command for its status. -/
theorem talks_led (args : List PyObject) :
    Talks (led args : CM (Mem (Recorded π)) PyRef) (Command.led args).Dialogue := by
  cases hst : parseOne convertInt args with
  | none =>
    rw [Lte.led, hst]
    exact talks_raise (Command.dialogue_of_silent (by simp [Command.talk, hst])) _
  | some st =>
    by_cases hrange : -1 < st ∧ st < 2
    · have htalk : (Command.led args).talk = some ⟨[ledText st], some (1, (okToken <:+: ·))⟩ := by
        rw [Command.talk_led hst, if_pos hrange]
      rw [led_eq hst hrange]
      refine talks_sent (fun n hn => Emits.pure ?_) (talks_okReply (x := fun _ => pure pyFalse)
        (y := fun _ => pure pyTrue) (fun _ ops hops => Emits.pure ?_)
        fun b ops hops hok => Emits.pure ?_)
      · exact Command.dialogue_of_talk htalk (.refused hn) rfl
      · rw [List.append_nil]
        exact Command.dialogue_of_talk htalk (.unsettled hops) rfl
      · exact Command.dialogue_of_talk htalk (.settled (.settled hops hok) .done) rfl
    · have hbad : st ≤ -1 ∨ st ≥ 2 := by omega
      simp only [Lte.led, hst, if_pos hbad]
      exact talks_raise
        (Command.dialogue_of_silent (by rw [Command.talk_led hst, if_neg hrange])) _

/-- On a connected line, every command keeps to its dialogue. -/
theorem talks_command (c : Command) :
    Talks (c.body : CM (Mem (Recorded π)) PyRef) c.Dialogue := by
  have hfound : ∀ x : CM (Mem (Recorded π)) Unit, (∀ s, ∃ shell, x.run s = .ok ((),
      { s with mem := { s.mem with shell := shell } })) →
      Talks (do x; return pyTrue) fun r ops => r = pyTrue ∧ ops = [] := by
    intro x hx
    refine talks_quiet fun s a s' hrun => ?_
    obtain ⟨shell, hok⟩ := hx s
    rw [StateT.run_bind, hok] at hrun
    cases hrun
    exact ⟨rfl, ⟨rfl, rfl, rfl⟩, rfl, rfl⟩
  cases c with
  | init =>
    refine (talks_initFrom ⟨initCmds, some (1, (okToken <:+: ·))⟩ rfl initCmds).mono ?_
    rintro r ops ⟨e, htold, hr⟩
    exact Command.dialogue_of_talk rfl htold hr
  | cmdLte args => exact talks_cmdLte args
  | led args => exact talks_led args
  | status => exact talks_threeTries rfl rfl (talks_statusFrom 3)
  | online =>
    refine talks_threeTries (c := .online) rfl rfl (talks_pollFrom (by decide) (by decide) ?_ 3)
    exact hfound _ fun s => ⟨_, rfl⟩
  | offline =>
    refine talks_threeTries (c := .offline) rfl rfl (talks_pollFrom (by decide) (by decide) ?_ 3)
    exact Emits.pure ⟨rfl, rfl⟩
  | restart => exact talks_sendOnly rfl rfl fun _ => rfl
  | call args =>
    rw [Command.body, Lte.call]
    cases hnum : parseOne convertStr args with
    | none => exact talks_raise (Command.dialogue_of_silent (by simp [Command.talk, hnum])) _
    | some num =>
      dsimp only
      unfold sprintf32
      split
      · rw [pure_bind]
        exact talks_sendOnly (by simp [Command.talk, hnum]) rfl fun _ => rfl
      · exact talks_fault _
  | hangup => exact talks_sendOnly rfl rfl fun _ => rfl

end PyModules.Lte
