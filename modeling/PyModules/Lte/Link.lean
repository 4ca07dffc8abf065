import PyModules.Library.Runs
import PyModules.Lte.Lifecycle
import PyModules.Lte.Replies

/-!
# The modem link

The line as a queue of bytes with a modem at its far end. The modem answers the
command lines it received in order, each with one reply after any delay; a read
times out or takes some of the bytes that wait. A byte carries the number of the
command it answers, so that a reply can be traced to its request.
-/

namespace PyModules.Lte

open Overlap

/-- What happens at one `write`. -/
structure WriteTurn where
  /-- Replies that arrive before it. -/
  answers : List (List UInt8)
  /-- The number of bytes it accepts, or `none` for -1. -/
  accepted : Option ℕ
  /-- The modem takes what it accepted for a command line. -/
  line : Bool
  deriving DecidableEq, Repr

/-- What happens at one `module_recv`. -/
structure ReadTurn where
  /-- Replies that arrive before it gives up waiting. -/
  answers : List (List UInt8)
  /-- The number of bytes it takes, or `none` for a timeout. -/
  takes : Option ℕ
  deriving DecidableEq, Repr

/-- The link. Bytes and commands are tagged with the number of the command. -/
structure Link where
  /-- Commands written so far. -/
  sent : ℕ
  /-- Command lines that the modem has yet to answer, in order. -/
  outstanding : List ℕ
  /-- Bytes that arrived and were not read. -/
  pending : List (ℕ × UInt8)
  /-- Bytes taken by the last read. -/
  lastRead : List (ℕ × UInt8)
  /-- Bytes that the coming `read` may take. -/
  grant : ℕ
  /-- The coming writes; once the list is used up, writes are plain command lines. -/
  writes : List WriteTurn
  /-- The coming reads; once the list is used up, reads time out. -/
  reads : List ReadTurn
  deriving DecidableEq, Repr

namespace Link

/-- The modem answers the oldest command line it has not answered. -/
def answer (l : Link) (reply : List UInt8) : Link :=
  match l.outstanding with
  | [] => l
  | tag :: rest =>
    { l with outstanding := rest, pending := l.pending ++ reply.map fun b => (tag, b) }

/-- The modem answers several times. -/
def answerAll (l : Link) (replies : List (List UInt8)) : Link := replies.foldl answer l

/-- A command is written; `line` tells whether the modem will answer it. -/
def send (l : Link) (line : Bool) : Link :=
  { l with
    sent := l.sent + 1
    outstanding := if line then l.outstanding ++ [l.sent] else l.outstanding }

/-- `write` -/
def write (req : List UInt8) (l : Link) : ℤ × Link :=
  match l.writes with
  | [] => (req.length, l.send true)
  | t :: writes =>
    let l := { l with writes := writes }.answerAll t.answers
    match t.accepted with
    | none => (-1, l.send false)
    | some n => (min n req.length, l.send t.line)

/-- `select` -/
def select (l : Link) : ℤ × Link :=
  match l.reads with
  | [] => (0, l)
  | t :: reads =>
    let l := { l with reads := reads }.answerAll t.answers
    match t.takes with
    | none => (0, l)
    | some n => if l.pending = [] then (0, l) else (1, { l with grant := n })

/-- `read` takes a non-empty prefix of the bytes that wait. -/
def read (n : ℕ) (l : Link) : Option (List UInt8) × Link :=
  let k := min n (max 1 l.grant)
  (some ((l.pending.take k).map Prod.snd),
    { l with pending := l.pending.drop k, lastRead := l.pending.take k })

instance : Tty Link where
  write := write
  select := select
  read := read
  read_length n l b h := by
    cases h
    simp only [List.length_map, List.length_take]
    omega

/-- The modem owes no reply and no byte waits to be read. -/
def Quiet (l : Link) : Prop := l.outstanding = [] ∧ l.pending = []

instance (l : Link) : Decidable l.Quiet := inferInstanceAs (Decidable (_ ∧ _))

/-- Whatever waits or is still to come answers the command `tag`. -/
structure Answers (tag : ℕ) (l : Link) : Prop where
  outstanding : ∀ t ∈ l.outstanding, t = tag
  pending : ∀ x ∈ l.pending, x.1 = tag

/-- A quiet link stays as it is when nothing is written. -/
theorem Quiet.answerAll {l : Link} (h : l.Quiet) (replies : List (List UInt8)) :
    l.answerAll replies = l := by
  induction replies with
  | nil => rfl
  | cons reply replies ih =>
    have hstep : l.answer reply = l := by simp [answer, h.1]
    rwa [Link.answerAll, List.foldl_cons, hstep]

/-- A reply to `tag` only adds bytes that answer `tag`. -/
theorem Answers.answer {tag : ℕ} {l : Link} (h : Answers tag l) (reply : List UInt8) :
    Answers tag (l.answer reply) := by
  unfold Link.answer
  split
  · exact h
  · rename_i t rest hout
    have ht : t = tag := h.outstanding t (hout ▸ List.mem_cons_self)
    refine ⟨fun u hu => h.outstanding u (hout ▸ List.mem_cons_of_mem _ hu), ?_⟩
    intro x hx
    rcases List.mem_append.mp hx with hx | hx
    · exact h.pending x hx
    · obtain ⟨b, _, rfl⟩ := List.mem_map.mp hx
      exact ht

/-- So do several replies. -/
theorem Answers.answerAll {tag : ℕ} {l : Link} (h : Answers tag l)
    (replies : List (List UInt8)) : Answers tag (l.answerAll replies) := by
  induction replies generalizing l with
  | nil => exact h
  | cons reply replies ih => exact ih (h.answer reply)

/-- A command written to a quiet link is the only one that gets answers. -/
theorem Quiet.send {l : Link} (h : l.Quiet) (line : Bool) : Answers l.sent (l.send line) := by
  obtain ⟨hout, hpend⟩ := h
  constructor
  · intro t ht
    cases line <;> simp [Link.send, hout] at ht
    exact ht
  · intro x hx
    simp [Link.send, hpend] at hx

/-- After a write to a quiet link, everything on it answers that command. -/
theorem Quiet.write {l : Link} (h : l.Quiet) (req : List UInt8) :
    Answers l.sent (l.write req).2 := by
  unfold Link.write
  split
  · exact h.send true
  · rename_i t writes _
    have hq : Quiet { l with writes := writes } := h
    rw [hq.answerAll]
    split
    · exact hq.send false
    · exact hq.send t.line

/-- Waiting for bytes keeps to the answers of one command. -/
theorem Answers.select {tag : ℕ} {l : Link} (h : Answers tag l) :
    Answers tag l.select.2 := by
  unfold Link.select
  split
  · exact h
  · rename_i t reads _
    have ht : Answers tag { l with reads := reads } := ⟨h.outstanding, h.pending⟩
    have ha := ht.answerAll t.answers
    split
    · exact ha
    · dsimp only
      split
      · exact ha
      · exact ⟨ha.outstanding, ha.pending⟩

/-- A block that is read is what the link logs as read last, and answers `tag` when
everything on the link does. -/
theorem Answers.received {tag : ℕ} {l : Link} (h : Answers tag l) {b : List UInt8}
    (hb : (received l).1 = some b) :
    b = (Lte.received l).2.lastRead.map Prod.snd ∧
      ∀ x ∈ (Lte.received l).2.lastRead, x.1 = tag := by
  simp only [Lte.received] at hb ⊢
  split at hb
  · cases hb
  · rename_i hrc
    rw [if_neg hrc]
    cases hb
    exact ⟨rfl, fun x hx => h.select.pending x (List.mem_of_mem_take hx)⟩

end Link

/-! ## Requests and replies -/

/-- What happens on a connected machine: a call, or a reply that arrives between calls. -/
inductive LinkEvent
  | call (c : Call)
  | reply (bytes : List UInt8)
  deriving DecidableEq, Repr

/-- One event. -/
def linkStep (mem : Mem Link) : LinkEvent → Except Fault (Mem Link)
  | .call c => step mem c
  | .reply bytes => .ok { mem with tty := mem.tty.answer bytes }

/-- A string other than `ERROR` that `cmd_lte` returns consists of bytes that were
just read and that answer the command it sent. -/
def Paired (mem : Mem Link) : LinkEvent → Prop
  | .call (.command (.cmdLte args)) =>
    ∀ str s', exec mem (.command (.cmdLte args)) = .ok (some (.atom (.str (some str))), s') →
      str ≠ lit "ERROR" →
        str = (s'.mem.tty.lastRead.take str.length).map Prod.snd ∧
          ∀ x ∈ s'.mem.tty.lastRead.take str.length, x.1 = mem.tty.sent
  | _ => True

/-- `cmd_lte` is called with a command on a quiet link only. -/
def QuietBefore (mem : Mem Link) : LinkEvent → Prop
  | .call (.command (.cmdLte args)) =>
    (Command.cmdLte args).Reaches = true → mem.tty.Quiet
  | _ => True

/-- On a quiet link, `cmd_lte` returns bytes of its own reply. -/
theorem paired_of_quiet {mem : Mem Link} {args : List PyObject}
    (h : (Command.cmdLte args).Reaches = true → mem.tty.Quiet) :
    Paired mem (.call (.command (.cmdLte args))) := by
  intro str s' hrun hne
  obtain ⟨cmd, b, hcmd, hrec, _, hstr⟩ := cmdLte_string hrun hne
  have hreach : (Command.cmdLte args).Reaches = true := by simp [Command.Reaches, hcmd]
  have hown : (mem.tty.write cmd).2.Answers mem.tty.sent := (h hreach).write cmd
  have hblock : (received (mem.tty.write cmd).2).1 = some b := congrArg Prod.fst hrec
  obtain ⟨hread, htags⟩ := hown.received hblock
  have htty : (received (mem.tty.write cmd).2).2 = s'.mem.tty := congrArg Prod.snd hrec
  rw [htty] at hread htags
  have hprefix := prefix_of_cString_fill (received_length hblock) hstr
  refine ⟨?_, fun x hx => htags x (List.mem_of_mem_take hx)⟩
  rw [List.map_take, ← hread]
  exact List.prefix_iff_eq_take.mp hprefix

/-- In every run that calls `cmd_lte` on a quiet link only, replies are paired with
their requests. -/
theorem paired_of_quietBefore (mem : Mem Link) (events : List LinkEvent)
    (hquiet : Runs.Always linkStep QuietBefore mem events) :
    Runs.Always linkStep Paired mem events := by
  refine hquiet.mono fun mem event h => ?_
  unfold Paired
  split
  · exact paired_of_quiet h
  · trivial

/-- A link on which the first reply is late: nothing is read before it arrives. -/
def lateReply : Link :=
  { sent := 0
    outstanding := []
    pending := []
    lastRead := []
    grant := 0
    writes := []
    reads := [⟨[lit "\r\nOK\r\n"], some 256⟩] }

/-- Arguments that make `cmd_lte` send `ATI`. -/
def atiArgs : List PyObject := [.atom (.str (some (lit "ATI\r\n")))]

/-- `cmd_lte` with the command `ATI`. -/
def ati : LinkEvent := .call (.command (.cmdLte atiArgs))

/-- What `ati` returns after some events, and what it read, with the number of the
command it sent. -/
def atiAfter (events : List LinkEvent) : Except Fault (PyRef × List (ℕ × UInt8) × ℕ) := do
  let mem ← Runs.after linkStep (Mem.initial lateReply) events
  let r ← exec mem (.command (.cmdLte atiArgs))
  return (r.1, r.2.mem.tty.lastRead, mem.tty.sent)

/-- With no command before it, `ati` gets the reply to itself. -/
theorem ati_paired :
    Runs.Always linkStep Paired (Mem.initial lateReply) [.call plugged, ati] ∧
      (atiAfter [.call plugged]).map Prod.fst =
        .ok (some (.atom (.str (some (lit "\r\nOK\r\n"))))) := by
  constructor
  · refine paired_of_quietBefore _ _ ⟨trivial, fun mem h => ⟨?_, fun mem' _ => True.intro⟩⟩
    have hquiet : mem.tty.Quiet := by
      cases h
      exact ⟨rfl, rfl⟩
    exact fun _ => hquiet
  · decide +kernel

/-- After `hangup`, which leaves its reply unread, `ati` returns the reply to `hangup`. -/
theorem hangup_then_ati_mixes_replies :
    ¬Runs.Always linkStep Paired (Mem.initial lateReply)
      ([.call plugged, .call (.command .hangup)] ++ [ati]) := by
  intro h
  have heval : atiAfter [.call plugged, .call (.command .hangup)] =
      .ok (some (.atom (.str (some (lit "\r\nOK\r\n")))),
        (lit "\r\nOK\r\n").map fun b => (0, b), 1) := by decide +kernel
  rw [atiAfter, bind_eq_ok] at heval
  obtain ⟨mem, hmem, hcall⟩ := heval
  obtain ⟨r, hexec, hr⟩ := bind_eq_ok.mp hcall
  simp only [pure_eq_ok, Except.ok.injEq, Prod.mk.injEq] at hr
  obtain ⟨hret, hread, hsent⟩ := hr
  have hpaired := (h.at_end hmem) (lit "\r\nOK\r\n") r.2 (hret ▸ hexec) (by decide)
  have htag := hpaired.2 (0, 13) (by rw [hread]; decide)
  rw [hsent] at htag
  cases htag

end PyModules.Lte
