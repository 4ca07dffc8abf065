import PyModules.Lte.Dialogue
import PyModules.Lte.Lifecycle

/-!
# What the modem sees of a run

A run is one dialogue for each call. Construction and release make no system call on the
line, and their results tell whether the next command talks: without a connection it says
nothing and fails. What is read always belongs to the line before it, so that the line is
half-duplex however the calls follow each other.
-/

namespace PyModules.Lte

variable {π : Type}

/-! ## Half-duplex lines -/

/-- Whether the line may be listened to. -/
inductive Turn
  /-- There is no line that an answer could belong to. -/
  | closed
  /-- A line was accepted completely. -/
  | listening
  /-- `select` has announced bytes. -/
  | readable
  deriving DecidableEq, Repr

/-- How a system call changes the turn. -/
def Turn.next : Turn → LineOp → Turn
  | _, .write req n => if n = req.length then .listening else .closed
  | t, .select rc => if rc = 0 ∨ rc = -1 then t else .readable
  | _, .read _ _ => .listening

/-- The system calls a turn allows: a line is written when no announced block is unread, the
line is watched after a line that was accepted completely, and a read fetches a block that
was announced. -/
def Turn.Allows : Turn → LineOp → Prop
  | .closed, .write _ _ => True
  | .listening, .write _ _ => True
  | .listening, .select _ => True
  | .readable, .read n _ => n = maxRecvBufSize
  | _, _ => False

/-- Two system calls of a `module_recv` are made in turn. -/
theorem Receives.allowed {o : Option (List UInt8)} {ops : List LineOp} (h : Receives o ops) :
    Runs.Accepts Turn.next Turn.Allows .listening ops ∧
      ops.foldl Turn.next .listening = .listening := by
  cases h with
  | timeout hrc => simp [Runs.Accepts, Turn.Allows, Turn.next, hrc]
  | block hrc b => simp [Runs.Accepts, Turn.Allows, Turn.next, hrc]

/-- What is heard after a line leaves the line open for more. -/
theorem Listens.allowed {settles : List UInt8 → Prop} {n : ℕ} {ops : List LineOp} {ok : Bool}
    (h : Listens settles n ops ok) :
    Runs.Accepts Turn.next Turn.Allows .listening ops ∧
      ops.foldl Turn.next .listening = .listening := by
  induction h with
  | exhausted => exact ⟨trivial, rfl⟩
  | settled hreceives _ => exact hreceives.allowed
  | missed hreceives _ _ ih =>
    obtain ⟨hfirst, hturn⟩ := hreceives.allowed
    rw [Runs.accepts_append, List.foldl_append, hturn]
    exact ⟨⟨hfirst, ih.1⟩, ih.2⟩

theorem Talk.Hears.allowed {t : Talk} {ops : List LineOp} {ok : Bool} (h : t.Hears ops ok) :
    Runs.Accepts Turn.next Turn.Allows .listening ops ∧
      ops.foldl Turn.next .listening = .listening := by
  unfold Talk.Hears at h
  split at h
  · obtain ⟨rfl, _⟩ := h
    exact ⟨trivial, rfl⟩
  · exact h.allowed

/-- A line may be written unless an announced block is unread. -/
theorem Turn.allows_write {t : Turn} (ht : t ≠ .readable) (line : List UInt8) (n : ℤ) :
    t.Allows (.write line n) := by
  cases t with
  | closed => trivial
  | listening => trivial
  | readable => exact absurd rfl ht

/-- A line that was accepted completely may be listened to. -/
theorem Turn.next_written (t : Turn) (line : List UInt8) :
    t.next (.write line line.length) = .listening := by
  cases t <;> simp [Turn.next]

/-- A dialogue is half-duplex, and leaves no announced block unread. -/
theorem Talk.Says.allowed {talk : Talk} {lines : List (List UInt8)} {ops : List LineOp}
    {e : Ending} (h : talk.Says lines ops e) {t : Turn} (ht : t ≠ .readable) :
    Runs.Accepts Turn.next Turn.Allows t ops ∧ ops.foldl Turn.next t ≠ .readable := by
  induction h generalizing t with
  | done => exact ⟨trivial, ht⟩
  | refused hn =>
    refine ⟨⟨Turn.allows_write ht _ _, trivial⟩, ?_⟩
    cases t <;> simp [Turn.next, hn]
  | unsettled hhears =>
    obtain ⟨hheard, hturn⟩ := hhears.allowed
    rw [Runs.Accepts, List.foldl_cons, Turn.next_written, hturn]
    exact ⟨⟨Turn.allows_write ht _ _, hheard⟩, by decide⟩
  | settled hhears _ ih =>
    obtain ⟨hheard, hturn⟩ := hhears.allowed
    obtain ⟨hrest, hend⟩ := ih (t := .listening) (by decide)
    rw [Runs.Accepts, List.foldl_cons, Turn.next_written, Runs.accepts_append, List.foldl_append,
      hturn]
    exact ⟨⟨Turn.allows_write ht _ _, hheard, hrest⟩, hend⟩

/-- What a command returns without a connection: its arguments are refused first, and then its
line is. -/
def Command.unheard (c : Command) : PyRef := if c.talk.isSome then c.refusal else NULL

/-- What the operations of a call are, for its result: on a connected line those of a command
are a dialogue. Without a connection a command says nothing and fails, and the other calls
never say anything. -/
def Call.Dialogue (connected : Prop) : Call → PyRef → List LineOp → Prop
  | .command c, r, ops =>
    connected ∧ c.Dialogue r ops ∨ ¬connected ∧ ops = [] ∧ r = c.unheard
  | _, _, ops => ops = []

/-- Whether the module is connected after a call, as its result tells: construction connects
if it returns `True`, and a release disconnects. -/
def Call.connects (connected : Prop) : Call → PyRef → Prop
  | .newLte args _, r => r = pyTrue ∨ parseNewLte args = none ∧ connected
  | .delLte, _ => False
  | .freeLte, _ => False
  | .command _, _ => connected

theorem Call.Dialogue.allowed {connected : Prop} {c : Call} {r : PyRef} {ops : List LineOp}
    (h : c.Dialogue connected r ops) {t : Turn} (ht : t ≠ .readable) :
    Runs.Accepts Turn.next Turn.Allows t ops ∧ ops.foldl Turn.next t ≠ .readable := by
  have hsilent : ops = [] →
      Runs.Accepts Turn.next Turn.Allows t ops ∧ ops.foldl Turn.next t ≠ .readable := by
    rintro rfl
    exact ⟨trivial, ht⟩
  cases c with
  | command c =>
    rcases h with ⟨_, h⟩ | ⟨_, hops, _⟩
    · unfold Command.Dialogue at h
      split at h
      · exact hsilent h.2
      · obtain ⟨e, hsays, _⟩ := h
        exact hsays.allowed ht
    · exact hsilent hops
  | newLte args env => exact hsilent h
  | delLte => exact hsilent h
  | freeLte => exact hsilent h

/-- The operations of a run, one dialogue for each call with its result. -/
abbrev Dialogues (connected : Prop) (crs : List (Call × PyRef)) (parts : List (List LineOp)) :
    Prop :=
  Emits.Parts Call.connects Call.Dialogue connected crs parts

/-- So is a list of dialogues. -/
theorem Dialogues.allowed {connected : Prop} {crs : List (Call × PyRef)}
    {parts : List (List LineOp)} (h : Dialogues connected crs parts) {t : Turn}
    (ht : t ≠ .readable) : Runs.Accepts Turn.next Turn.Allows t parts.flatten := by
  induction h generalizing t with
  | nil => trivial
  | cons hpart _ ih =>
    obtain ⟨hfirst, hend⟩ := hpart.allowed ht
    rw [List.flatten_cons, Runs.accepts_append]
    exact ⟨hfirst, ih hend⟩

/-! ## Calls that say nothing -/

/-- A property that programs have by their parts, where the primitive parts make no system call
on the line. -/
structure HoldsOffLine (P : ∀ {α : Type}, CM (Mem π) α → Prop) : Prop where
  pure : ∀ {α : Type} (a : α), P (Pure.pure a : CM (Mem π) α)
  getMem : P (PyModules.getMem : CM (Mem π) (Mem π))
  bind : ∀ {α β : Type} {x : CM (Mem π) α} {f : α → CM (Mem π) β},
    P x → (∀ a, P (f a)) → P (x >>= f)
  modify : ∀ {f : Mem π → Mem π}, (∀ mem, (f mem).tty = mem.tty) → P (modifyMem f)
  deref : ∀ ctx, P (deref ctx : CM (Mem π) Module)
  fault : ∀ {α : Type} (f : Fault), P (PyModules.fault f : CM (Mem π) α)

namespace HoldsOffLine

variable {P : ∀ {α : Type}, CM (Mem π) α → Prop}

theorem ite {α : Type} {c : Prop} [Decidable c] {x y : CM (Mem π) α} (hx : P x) (hy : P y) :
    P (if c then x else y) := by
  split <;> assumption

theorem closeFd (h : HoldsOffLine P) (fd : ℕ) : P (closeFd fd : CM (Mem π) Unit) :=
  h.modify fun _ => rfl

theorem openFd (h : HoldsOffLine P) : P (openFd : CM (Mem π) ℕ) :=
  h.bind h.getMem fun _ => h.bind (h.modify fun _ => rfl) fun _ => h.pure _

theorem moduleAlloc (h : HoldsOffLine P) : P (moduleAlloc : CM (Mem π) ℕ) :=
  h.bind h.getMem fun _ => h.bind (h.modify fun _ => rfl) fun _ => h.pure _

theorem assign (h : HoldsOffLine P) (ctx : ℕ) (f : Module → Module) :
    P (assign ctx f : CM (Mem π) Unit) :=
  h.bind (h.deref ctx) fun _ => h.modify fun _ => rfl

theorem moduleFree (h : HoldsOffLine P) (ctx : Option ℕ) :
    P (moduleFree ctx : CM (Mem π) Unit) := by
  cases ctx with
  | none => exact h.pure _
  | some p => exact h.bind (h.deref p) fun _ => h.modify fun _ => rfl

theorem moduleClose (h : HoldsOffLine P) (ctx : Option ℕ) :
    P (moduleClose ctx : CM (Mem π) Unit) := by
  cases ctx with
  | none => exact h.pure _
  | some p =>
    refine h.bind (h.deref p) fun m => ?_
    split
    · exact h.bind (h.closeFd _) fun _ => h.assign p _
    · exact h.pure _

theorem moduleNew (h : HoldsOffLine P) (a : SerialArgs) (lsusb : Option ℕ) :
    P (moduleNew a.device a.baud a.parity a.dataBit a.stopBit lsusb :
      CM (Mem π) (Option ℕ)) := by
  refine ite (h.pure _) (ite (h.pure _) ?_)
  cases lsusb with
  | none => exact h.fault _
  | some number =>
    refine h.bind h.moduleAlloc fun ctx => ite (h.pure _) ?_
    refine h.bind (h.assign ctx _) fun _ => ite ?_ ?_
    · exact h.bind (h.assign ctx _) fun _ => h.pure _
    · exact h.bind (h.moduleFree _) fun _ => h.pure _

theorem moduleConnect (h : HoldsOffLine P) (ctx : Option ℕ) (env : ConnectEnv) :
    P (moduleConnect ctx env : CM (Mem π) ℤ) := by
  cases ctx with
  | none => exact h.pure _
  | some p =>
    have hfail : P (do
        Lte.assign p fun m => { m with s := none }
        return (-1 : ℤ) : CM (Mem π) ℤ) := h.bind (h.assign p _) fun _ => h.pure _
    have hclose : ∀ fd, P (do
        Lte.closeFd fd
        Lte.assign p fun m => { m with s := none }
        return (-1 : ℤ) : CM (Mem π) ℤ) := fun fd => h.bind (h.closeFd fd) fun _ => hfail
    refine ite hfail (h.bind h.openFd fun fd => h.bind (h.assign p _) fun _ => ?_)
    exact ite (hclose fd) (ite (hclose fd) (h.pure _))

theorem freeLte (h : HoldsOffLine P) : P (freeLte : CM (Mem π) Unit) :=
  h.bind h.getMem fun mem => h.bind (h.moduleClose mem.ctx) fun _ => h.moduleFree mem.ctx

end HoldsOffLine

/-- The line is the same. -/
def SameTty (mem mem' : Mem π) : Prop := mem'.tty = mem.tty

instance : IsFrame (SameTty (π := π)) (fun _ => True) where
  refl _ := rfl
  trans _ _ _ h h' := h'.trans h
  back _ _ _ _ := trivial

/-- A program that makes no system call on the line. -/
abbrev LeavesTty {α : Type} (x : CM (Mem π) α) : Prop := Frames SameTty (fun _ => True) x

theorem holdsOffLine_leavesTty : HoldsOffLine (π := π) LeavesTty where
  pure := Frames.pure
  getMem := Frames.getMem
  bind := Frames.bind
  modify hf := Frames.modify hf
  deref ctx := by
    refine ⟨fun s a s' h => ?_, fun _ _ => trivial⟩
    rw [run_deref] at h
    split at h
    · cases h
      rfl
    · cases h
  fault f := by
    refine ⟨fun s a s' h => ?_, fun _ _ => trivial⟩
    cases h

/-- Construction makes no system call on the line. -/
theorem leavesTty_newLte (args : List PyObject) (env : NewLteEnv) :
    LeavesTty (newLte args env : CM (Mem π) PyRef) := by
  have hoff := holdsOffLine_leavesTty (π := π)
  unfold newLte
  split
  · exact Frames.raise _
  · refine (hoff.moduleNew _ _).bind fun ctx => ?_
    refine (hoff.modify (f := fun mem => mem.withCtx ctx) fun _ => rfl).bind fun _ => ?_
    refine Frames.ite (Frames.raise _) ((hoff.moduleConnect _ _).bind fun rc => ?_)
    exact Frames.ite ((hoff.moduleFree _).bind fun _ => Frames.raise _) (Frames.pure _)

variable [Tty π]

/-- Without a connection, sending fails, or it touches a freed module. -/
theorem ctxSend_unconnected {s : Proc (Mem π)} (h : ¬Connected s.mem) :
    (∀ req, (ctxSend req).run s = .error .useAfterFree) ∨
      ∀ req, (ctxSend req).run s = .ok (-1, s) := by
  cases hp : s.mem.ctx with
  | none => exact .inr fun req => by simp [ctxSend, moduleSend, hp]
  | some p =>
    cases hm : s.mem.modules.cell p with
    | none => exact .inl fun req => by simp [ctxSend, moduleSend, hp, hm]
    | some m =>
      cases hs : m.s with
      | none => exact .inr fun req => by simp [ctxSend, moduleSend, hp, hm, hs]
      | some fd => exact absurd ⟨p, m, fd, hp, hm, hs⟩ h

/-- Without a connection, a function that returns takes the way of a failed write. -/
theorem run_unsent {α : Type} {s s' : Proc (Mem π)} (h : ¬Connected s.mem)
    {line : List UInt8} {x y : CM (Mem π) α} {a : α}
    (hrun : (do
      let ret ← ctxSend line
      if ret ≠ line.length then x else y).run s = .ok (a, s')) : x.run s = .ok (a, s') := by
  rw [StateT.run_bind] at hrun
  rcases ctxSend_unconnected h with hsend | hsend
  · rw [hsend] at hrun
    cases hrun
  · have hne : (-1 : ℤ) ≠ line.length := by omega
    rw [hsend, ok_bind, if_pos hne] at hrun
    exact hrun

/-- Without a connection, a command that returns has said nothing and reports a failure. -/
theorem command_unconnected {c : Command} {s s' : Proc (Mem (Recorded π))} {r : PyRef}
    (h : ¬Connected s.mem) (hrun : c.body.run s = .ok (r, s')) :
    s'.mem.tty = s.mem.tty ∧ r = c.unheard := by
  have hraise : ∀ msg, (raise msg).run s = .ok (r, s') → s'.mem.tty = s.mem.tty ∧ r = NULL := by
    intro msg hraised
    cases hraised
    exact ⟨rfl, rfl⟩
  have hfalse : (pure pyFalse : CM (Mem (Recorded π)) PyRef).run s = .ok (r, s') →
      s'.mem.tty = s.mem.tty ∧ r = pyFalse := by
    intro hpure
    cases hpure
    exact ⟨rfl, rfl⟩
  cases c with
  | init =>
    exact hraise _ (run_unsent h hrun)
  | cmdLte args =>
    rw [Command.body, Lte.cmdLte] at hrun
    cases hcmd : parseOne convertStr args with
    | none =>
      rw [hcmd] at hrun
      simpa [Command.unheard, Command.talk, hcmd] using hraise _ hrun
    | some cmd =>
      rw [hcmd] at hrun
      simpa [Command.unheard, Command.talk, hcmd, Command.refusal] using
        hraise _ (run_unsent h hrun)
  | led args =>
    cases hst : parseOne convertInt args with
    | none =>
      rw [Command.body, Lte.led, hst] at hrun
      simpa [Command.unheard, Command.talk, hst] using hraise _ hrun
    | some st =>
      by_cases hrange : -1 < st ∧ st < 2
      · rw [Command.body, led_eq hst hrange] at hrun
        have hrefused := hfalse (run_unsent h hrun)
        rwa [Command.unheard, Command.talk_led hst, if_pos hrange]
      · have hbad : st ≤ -1 ∨ st ≥ 2 := by omega
        simp only [Command.body, Lte.led, hst, if_pos hbad] at hrun
        have hrefused := hraise _ hrun
        rwa [Command.unheard, Command.talk_led hst, if_neg hrange]
  | call args =>
    rw [Command.body] at hrun
    cases hnum : parseOne convertStr args with
    | none =>
      rw [Lte.call, hnum] at hrun
      simpa [Command.unheard, Command.talk, hnum] using hraise _ hrun
    | some num =>
      have hunheard : (Command.call args).unheard = pyFalse := by
        simp [Command.unheard, Command.talk, hnum, Command.refusal]
      by_cases hfit : num.length ≤ 25
      · rw [call_eq hnum hfit] at hrun
        rw [hunheard]
        exact hfalse (run_unsent h hrun)
      · rw [run_call_long hnum hfit] at hrun
        cases hrun
  | status | online | offline | restart | hangup => exact hfalse (run_unsent h hrun)

/-! ## Whole runs -/

/-- What a call returns, and the memory after it. -/
def answer (mem : Mem π) (c : Call) : Except Fault (PyRef × Mem π) :=
  (exec mem c).map fun r => (r.1, r.2.mem)

/-- The result of a call tells whether the module is connected after it. -/
theorem connected_answer {mem mem' : Mem π} {c : Call} {r : PyRef}
    (h : answer mem c = .ok (r, mem')) : Connected mem' ↔ c.connects (Connected mem) r := by
  obtain ⟨⟨r', s'⟩, hrun, hr⟩ := map_eq_ok.mp h
  cases hr
  have hreleased : c.event = .release → ¬Connected s'.mem := by
    intro hc
    have hstep : step mem c = .ok s'.mem := map_eq_ok.mpr ⟨(r', s'), hrun, rfl⟩
    have howner := step_refines.moves mem c s'.mem hstep
    rw [hc] at howner
    exact not_connected (closed_of_released howner)
  cases c with
  | newLte args env =>
    rw [exec, Call.body] at hrun
    cases hargs : parseNewLte args with
    | none =>
      rw [newLte_unparsed hargs] at hrun
      cases hrun
      simp [Call.connects, hargs, NULL, pyTrue]
    | some a =>
      simp only [Call.connects, hargs, reduceCtorEq, false_and, or_false]
      by_cases hno : NoStream a env
      · rw [newLte_noStream hargs hno] at hrun
        cases hrun
      · obtain ⟨r1, s1, hrun', hdone⟩ := newLte_created hargs hno ⟨none, mem⟩
        rw [hrun] at hrun'
        cases hrun'
        by_cases hheld : creation a env = .held
        · exact iff_of_true (hdone.connected hheld) (hdone.returns hheld)
        · refine iff_of_false (not_connected (hdone.closed hheld)) fun htrue => ?_
          rw [(hdone.raises hheld).1] at htrue
          cases htrue
  | delLte => exact iff_of_false (hreleased rfl) fun h => h
  | freeLte => exact iff_of_false (hreleased rfl) fun h => h
  | command c => exact ((LineOnly.command c).keeps _ _ _ hrun).connected_iff

/-- From any memory, a call that returns adds its dialogue to the record. -/
theorem answer_dialogue {mem mem' : Mem (Recorded π)} {c : Call} {r : PyRef}
    (h : answer mem c = .ok (r, mem')) :
    ∃ ops, mem'.tty.ops = mem.tty.ops ++ ops ∧ c.Dialogue (Connected mem) r ops := by
  obtain ⟨⟨r', s'⟩, hrun, hr⟩ := map_eq_ok.mp h
  cases hr
  have hsilent : s'.mem.tty = mem.tty → s'.mem.tty.ops = mem.tty.ops ++ [] := by
    intro htty
    rw [htty, List.append_nil]
  cases c with
  | newLte args env => exact ⟨[], hsilent ((leavesTty_newLte args env).keeps _ _ _ hrun), rfl⟩
  | delLte =>
    have hkeeps : LeavesTty (delLte : CM (Mem (Recorded π)) PyRef) :=
      holdsOffLine_leavesTty.freeLte.bind fun _ => Frames.pure _
    exact ⟨[], hsilent (hkeeps.keeps _ _ _ hrun), rfl⟩
  | freeLte =>
    have hkeeps : LeavesTty (Call.freeLte.body : CM (Mem (Recorded π)) PyRef) :=
      holdsOffLine_leavesTty.freeLte.bind fun _ => Frames.pure _
    exact ⟨[], hsilent (hkeeps.keeps _ _ _ hrun), rfl⟩
  | command c =>
    by_cases hconn : Connected mem
    · obtain ⟨_, ops, hops, hdialogue⟩ := talks_command c ⟨none, mem⟩ r' s' hconn hrun
      exact ⟨ops, hops, .inl ⟨hconn, hdialogue⟩⟩
    · obtain ⟨htty, hunheard⟩ := command_unconnected hconn hrun
      exact ⟨[], hsilent htty, .inr ⟨hconn, rfl, hunheard⟩⟩

/-- What a run adds to the record falls into dialogues. -/
theorem answers_dialogues {mem mem' : Mem (Recorded π)} {calls : List Call} {rs : List PyRef}
    (h : Emits.answers answer mem calls = .ok (rs, mem')) :
    ∃ parts, Dialogues (Connected mem) (calls.zip rs) parts ∧ rs.length = calls.length ∧
      mem'.tty.ops = mem.tty.ops ++ parts.flatten := by
  have hstep : ∀ (mem : Mem (Recorded π)) connected c r mem', Connected mem = connected →
      answer mem c = .ok (r, mem') → Connected mem' = c.connects connected r ∧
        ∃ ops, mem'.tty.ops = mem.tty.ops ++ ops ∧ c.Dialogue connected r ops := by
    rintro mem connected c r mem' rfl hanswer
    exact ⟨propext (connected_answer hanswer), answer_dialogue hanswer⟩
  exact Emits.of_answers hstep rfl h

/-- What a run says on the line is one dialogue for each call, in their order: the lines of the
call, each listened to as long as it has tries and none settles it, up to the first that is
not accepted or not settled, which is what the call reports. Only a command without a
connection, as the results of the calls before tell, says nothing and fails. No block is read
without a line that was accepted before it, and none that was announced is left unread by the
next line. -/
theorem run_dialogue {mem mem' : Mem (Recorded π)} {calls : List Call} {rs : List PyRef}
    (h : Emits.answers answer mem calls = .ok (rs, mem')) :
    ∃ parts, Dialogues (Connected mem) (calls.zip rs) parts ∧
      rs.length = calls.length ∧ mem'.tty.ops = mem.tty.ops ++ parts.flatten ∧
      Runs.Accepts Turn.next Turn.Allows .closed parts.flatten := by
  obtain ⟨parts, hparts, hlength, hops⟩ := answers_dialogues h
  exact ⟨parts, hparts, hlength, hops, hparts.allowed (by decide)⟩

/-- A recorded line with one reply to come, on a connected machine. -/
def recordedMem : Mem (Recorded Script) :=
  ⟨some 0, Heap.empty.alloc ⟨some 0, none⟩, Heap.empty.alloc (),
    ⟨⟨[some (lit "\r\nOK\r\n")]⟩, []⟩, []⟩

/-- `led(1)`, `hangup()`, and `led(0)`, to which nothing is answered. -/
def ledHangupLed : List Call :=
  [.command (.led [.atom (.int 1)]), .command .hangup, .command (.led [.atom (.int 0)])]

/-- What these calls say. -/
def ledHangupLedOps : List LineOp :=
  [.write (lit "AT^LEDCTRL=1\r\n") 14, .select 1, .read 256 (some (lit "\r\nOK\r\n")),
    .write (lit "AT+CHUP\r\n") 9, .write (lit "AT^LEDCTRL=0\r\n") 14, .select 0]

/-- The three calls say three dialogues, the last one without an answer. -/
theorem run_dialogue_ledHangupLed :
    ∃ mem' parts, Emits.answers answer recordedMem ledHangupLed =
        .ok ([pyTrue, pyTrue, pyFalse], mem') ∧
      Dialogues (Connected recordedMem) (ledHangupLed.zip [pyTrue, pyTrue, pyFalse]) parts ∧
      parts.flatten = ledHangupLedOps ∧
      Runs.Accepts Turn.next Turn.Allows .closed ledHangupLedOps := by
  have hrun : (Emits.answers answer recordedMem ledHangupLed).map
      (fun r => (r.1, r.2.tty.ops)) = .ok ([pyTrue, pyTrue, pyFalse], ledHangupLedOps) := by
    decide +kernel
  obtain ⟨⟨rs, mem'⟩, hanswers, hresult⟩ := map_eq_ok.mp hrun
  obtain ⟨rfl, hops⟩ := Prod.mk.inj hresult
  obtain ⟨parts, hparts, _, hlog, hturns⟩ := run_dialogue hanswers
  have hflatten : parts.flatten = ledHangupLedOps := hlog.symm.trans hops
  rw [hflatten] at hturns
  exact ⟨mem', parts, hanswers, hparts, hflatten, hturns⟩

end PyModules.Lte
