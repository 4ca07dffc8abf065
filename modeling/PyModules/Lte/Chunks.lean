import PyModules.Lte.Status

/-!
# Replies in pieces

The port is opened without blocking, so one reply of the modem can arrive in several
reads. This file compares what a command makes of a reply in pieces with what it
makes of the same reply in one read.
-/

namespace PyModules.Lte

open Overlap

/-- A reply delivered in one, two, or three reads. -/
structure Delivery where
  /-- The block that each read takes. -/
  parts : List (List UInt8)
  nonempty : ∀ b ∈ parts, b ≠ []
  one : parts ≠ []
  few : parts.length ≤ 3
  fits : parts.flatten.length ≤ maxRecvBufSize

namespace Delivery

/-- The whole reply. -/
def reply (d : Delivery) : List UInt8 := d.parts.flatten

/-- The first block. -/
def first (d : Delivery) : List UInt8 := d.parts.head d.one

/-- No reply is empty. -/
theorem reply_ne_nil (d : Delivery) : d.reply ≠ [] := by
  intro h
  have hmem := List.head_mem d.one
  exact d.nonempty _ hmem (List.flatten_eq_nil_iff.mp h _ hmem)

/-- The same reply in a single read. -/
def whole (d : Delivery) : Delivery where
  parts := [d.reply]
  nonempty := by simpa using d.reply_ne_nil
  one := by simp
  few := by simp
  fits := by simpa [reply] using d.fits

/-- A block of the delivery is a piece of the reply. -/
theorem part_infix (d : Delivery) {b : List UInt8} (hb : b ∈ d.parts) : b <:+: d.reply :=
  List.infix_of_mem_flatten hb

/-- A block of the delivery fits in the buffer. -/
theorem part_fits (d : Delivery) {b : List UInt8} (hb : b ∈ d.parts) :
    b.length ≤ maxRecvBufSize := (d.part_infix hb).length_le.trans d.fits

/-- The first block begins the reply. -/
theorem first_prefix (d : Delivery) : d.first <+: d.reply := by
  obtain ⟨_ | ⟨b, parts⟩, _, hone, _, _⟩ := d
  · exact absurd rfl hone
  · exact List.prefix_append b parts.flatten

end Delivery

/-- The process before a call to whose command the delivery is the reply. -/
def awaiting (mem : Mem Script) (d : Delivery) : Proc (Mem Script) :=
  withTty ⟨none, mem⟩ ⟨d.parts.map some⟩

/-- What Python sees of a command whose reply is delivered to it. -/
def Command.verdict (c : Command) (mem : Mem Script) (d : Delivery) :
    Except Fault (PyRef × Option PyErr) :=
  Lte.verdict c.body (awaiting mem d)

/-- On a scripted line, sending a command leads straight to what follows it. -/
theorem verdict_afterSend {s : Proc (Mem Script)} (h : Connected s.mem) (cmd : List UInt8)
    (x y : CM (Mem Script) PyRef) :
    verdict (do
      let ret ← ctxSend cmd
      if ret ≠ cmd.length then x else y) s = verdict y s := by
  rw [verdict, StateT.run_bind, run_ctxSend h, ok_bind, write_script]
  simp only [ne_eq, not_true_eq_false, if_false]
  rfl

/-! ## The polling commands -/

/-- Reading a script of blocks yields the blocks, and after them nothing. -/
theorem outcomes_script {parts : List (List UInt8)}
    (hfits : ∀ b ∈ parts, b.length ≤ maxRecvBufSize) {n : ℕ} (hn : parts.length ≤ n) :
    outcomes n (⟨parts.map some⟩ : Script) =
      parts.map some ++ List.replicate (n - parts.length) none := by
  induction n generalizing parts with
  | zero =>
    have hnil : parts = [] := List.length_eq_zero_iff.mp (Nat.le_zero.mp hn)
    subst hnil
    rfl
  | succ n ih =>
    cases parts with
    | nil =>
      have hrest := ih hfits n.zero_le
      rw [List.map_nil] at hrest ⊢
      rw [outcomes, received_nothing, hrest]
      rfl
    | cons b parts =>
      have hrest := ih (fun c hc => hfits c (List.mem_cons_of_mem b hc))
        (Nat.le_of_succ_le_succ hn)
      rw [List.map_cons, outcomes, received_block (hfits b List.mem_cons_self), hrest]
      simp

/-- The loop of `online` and `offline` succeeds when some block contains the token. -/
theorem verdict_pollFrom {token : List UInt8} (htoken : token ≠ [])
    (hsize : token.length ≤ maxRecvBufSize) {found : CM (Mem Script) PyRef}
    (hfound : ∀ s, verdict found s = .ok (pyTrue, s.err)) {todo : ℕ}
    {parts : List (List UInt8)} {s : Proc (Mem Script)} (h : Connected s.mem)
    (htty : s.mem.tty = ⟨parts.map some⟩) (hfits : ∀ b ∈ parts, b.length ≤ maxRecvBufSize)
    (htodo : parts.length ≤ todo) :
    verdict (pollFrom token found todo) s =
      .ok (if ∃ b ∈ parts, token <:+: b then pyTrue else pyFalse, s.err) := by
  have hany : (∃ o ∈ outcomes todo s.mem.tty, Announces token o) ↔
      ∃ b ∈ parts, token <:+: b := by
    rw [exists_announces, htty, outcomes_script hfits htodo]
    simp
  rw [verdict, run_pollFrom htoken hsize found todo h]
  by_cases hin : ∃ b ∈ parts, token <:+: b
  · rw [if_pos (hany.mpr hin), if_pos hin]
    exact hfound (withTty s _)
  · rw [if_neg (mt hany.mp hin), if_neg hin]
    rfl

/-- The loop of `status` reports the first digit shown, unless a block ends with the
token and the buffer at once. -/
theorem verdict_statusFrom_script {todo : ℕ} {parts : List (List UInt8)}
    {s : Proc (Mem Script)} (h : Connected s.mem) (htty : s.mem.tty = ⟨parts.map some⟩)
    (hfits : ∀ b ∈ parts, b.length ≤ maxRecvBufSize)
    (hlast : ∀ b ∈ parts, firstOccurrence statusToken b ≠ some lastStart)
    (htodo : parts.length ≤ todo) :
    verdict (statusFrom todo) s = returns (statusWord (parts.findSome? shown)) s.err := by
  have hreads : outcomes todo s.mem.tty = _ := htty ▸ outcomes_script hfits htodo
  have hinside : StaysInside (outcomes todo s.mem.tty) := by
    intro b hb
    have hmem := (List.takeWhile_sublist _).mem hb
    rw [hreads] at hmem
    exact hlast b (by simpa using hmem)
  have hfirst : (outcomes todo s.mem.tty).findSome? toldBy = parts.findSome? shown := by
    rw [hreads, List.findSome?_append, List.findSome?_map]
    have hnothing : (List.replicate (todo - parts.length) none).findSome? toldBy = none := by
      simp [toldBy]
    have hblock : toldBy ∘ some = shown := funext fun b => (shown_eq_told b).symm
    rw [hnothing, hblock, Option.or_none]
  rw [verdict_statusFrom todo h, if_pos hinside, hfirst]

/-- A block of 256 bytes that ends with its first token makes `status` read past
the buffer. -/
theorem verdict_statusFrom_last {todo : ℕ} {b : List UInt8} {s : Proc (Mem Script)}
    (h : Connected s.mem) (htty : s.mem.tty = ⟨[some b]⟩) (hb : b.length ≤ maxRecvBufSize)
    (hlast : firstOccurrence statusToken b = some lastStart) :
    verdict (statusFrom (todo + 1)) s = .error .outOfBounds := by
  have hr : received s.mem.tty = (some b, ⟨[]⟩) := htty ▸ received_block hb []
  rw [verdict, run_statusFrom_overrun h todo hr hlast]
  rfl

/-! ## The commands that read once -/

/-- The verdict of returning the string in a buffer, if it holds one. -/
def built (text : Option (List UInt8)) (err : Option PyErr) :
    Except Fault (PyRef × Option PyErr) :=
  match text with
  | none => .error .outOfBounds
  | some word =>
    if utf8Valid word then returns word err
    else .ok (NULL, some ⟨.unicodeDecode word, "invalid utf-8"⟩)

/-- Different strings have different verdicts. -/
theorem built_inj {x y : Option (List UInt8)} {err : Option PyErr} :
    built x err = built y err ↔ x = y := by
  refine ⟨fun h => ?_, fun h => h ▸ rfl⟩
  cases x with
  | none => cases y with
    | none => rfl
    | some v =>
      simp only [built, returns] at h
      split at h <;> cases h
  | some u => cases y with
    | none =>
      simp only [built, returns] at h
      split at h <;> cases h
    | some v =>
      simp only [built, returns] at h
      split at h <;> split at h <;> cases h <;> rfl

/-- The verdict of `Py_BuildValue` on bytes without NUL. -/
theorem verdict_buildStr {σ : Type} (word : List UInt8) (s : Proc σ) :
    verdict (buildStr word) s = built (some word) s.err := by
  rw [verdict, run_buildStr, built]
  split <;> rfl

/-- The verdict of `Py_BuildValue` on a buffer. -/
theorem verdict_buildValueS {σ : Type} (buffer : List UInt8) (s : Proc σ) :
    verdict (buildValueS buffer) s = built (cString buffer) s.err := by
  unfold buildValueS
  split
  · rename_i word hword
    rw [verdict_buildStr, hword]
  · rename_i hnone
    rw [hnone]
    rfl

/-- What `cmd_lte` makes of its first block. -/
theorem verdict_cmdLte {s : Proc (Mem Script)} (h : Connected s.mem) {args : List PyObject}
    (hargs : (Command.cmdLte args).Reaches = true) {b : List UInt8}
    {reads : List (Option (List UInt8))} (htty : s.mem.tty = ⟨some b :: reads⟩)
    (hb : b.length ≤ maxRecvBufSize) :
    verdict (cmdLte args) s =
      built (if okToken <:+: b then cString (fill b) else some (lit "ERROR")) s.err := by
  obtain ⟨cmd, hcmd⟩ := Option.isSome_iff_exists.mp hargs
  rw [verdict, run_cmdLte h hcmd rfl, write_script, htty, received_block hb]
  by_cases hok : okToken <:+: b
  · simp only [if_pos hok]
    exact verdict_buildValueS (fill b) (withTty s ⟨reads⟩)
  · simp only [if_neg hok]
    exact verdict_buildStr (lit "ERROR") (withTty s ⟨reads⟩)

/-- What `led` makes of its first block. -/
theorem verdict_led {s : Proc (Mem Script)} (h : Connected s.mem) {args : List PyObject}
    (hargs : (Command.led args).Reaches = true) {b : List UInt8}
    {reads : List (Option (List UInt8))} (htty : s.mem.tty = ⟨some b :: reads⟩)
    (hb : b.length ≤ maxRecvBufSize) :
    verdict (led args) s = .ok (if okToken <:+: b then pyTrue else pyFalse, s.err) := by
  simp only [Command.Reaches] at hargs
  split at hargs
  · rename_i st hst
    rw [verdict, run_led h hst (of_decide_eq_true hargs) rfl, write_script, htty,
      received_block hb]
    rfl
  · cases hargs

/-! ## Pieces and the whole -/

/-- The blocks are the whole reply, or each is shorter. -/
theorem Delivery.single_or_shorter (d : Delivery) :
    d.parts = [d.reply] ∨ ∀ b ∈ d.parts, b.length < d.reply.length := by
  obtain ⟨parts, hnonempty, hone, _, _⟩ := d
  simp only [reply]
  rcases parts with _ | ⟨a, _ | ⟨c, rest⟩⟩
  · exact absurd rfl hone
  · exact .inl (by simp)
  · refine .inr fun b hb => ?_
    obtain ⟨before, following, hsplit⟩ := List.append_of_mem hb
    have hother : ∃ x ∈ before ++ following, x ∈ a :: c :: rest := by
      cases before with
      | nil =>
        obtain ⟨_, rfl⟩ := List.cons.inj hsplit
        exact ⟨c, by simp, by simp⟩
      | cons x before => exact ⟨x, by simp, by simp [hsplit]⟩
    obtain ⟨x, hx, hmem⟩ := hother
    have hpos : 0 < x.length := List.length_pos_iff.mpr (hnonempty x hmem)
    have hle : x.length ≤ (before ++ following).flatten.length :=
      (List.sublist_flatten_of_mem hx).length_le
    rw [hsplit]
    simp only [List.flatten_append, List.flatten_cons, List.length_append] at hle ⊢
    omega

/-- The string in a filled first block is the one in the filled reply when the first
block holds a NUL, or a NUL or nothing follows it. -/
theorem cString_fill_prefix {b rest : List UInt8} (h : (b ++ rest).length ≤ maxRecvBufSize) :
    cString (fill b) = cString (fill (b ++ rest)) ↔ 0 ∈ b ∨ (b ++ rest).getD b.length 0 = 0 := by
  have hb : b.length ≤ maxRecvBufSize := by
    rw [List.length_append] at h
    omega
  rw [cString_fill b hb, cString_fill _ h]
  cases rest with
  | nil => simp
  | cons c rest =>
    have hshort : b.length < maxRecvBufSize := by
      rw [List.length_append, List.length_cons] at h
      omega
    have hnext : (b ++ c :: rest).getD b.length 0 = c := by simp
    rw [if_pos (.inr hshort), hnext, takeWhile_append]
    by_cases hnul : 0 ∈ b
    · simp [hnul]
    · rw [takeWhile_eq_self_iff.mpr hnul, if_neg hnul]
      by_cases hc : c = 0
      · simp [hc]
      · have hlonger : some b ≠ some (b ++ (c :: rest).takeWhile (· ≠ 0)) := by
          intro heq
          simp [hc] at heq
        have hright : ¬(0 ∈ b ∨ c = 0) := not_or.mpr ⟨hnul, hc⟩
        rw [iff_false_right hright]
        split
        · exact hlonger
        · exact Option.some_ne_none b

/-- The pieces make a command do what the whole reply makes it do. -/
def KeepsVerdict (d : Delivery) : Command → Prop
  | .status => (d.parts = [d.reply] ∨ firstOccurrence statusToken d.reply ≠ some lastStart) ∧
      d.parts.findSome? shown = shown d.reply
  | .online => onlineToken <:+: d.reply → ∃ b ∈ d.parts, onlineToken <:+: b
  | .offline => offlineToken <:+: d.reply → ∃ b ∈ d.parts, offlineToken <:+: b
  | .led _ => okToken <:+: d.reply → okToken <:+: d.first
  | .cmdLte _ => okToken <:+: d.reply →
      if okToken <:+: d.first then 0 ∈ d.first ∨ d.reply.getD d.first.length 0 = 0
      else d.reply.takeWhile (· ≠ 0) = lit "ERROR"
  | .init | .restart | .call _ | .hangup => True

/-- Two yes-or-no verdicts agree when each yes implies the other. -/
theorem bool_verdict_iff {p q : Prop} [Decidable p] [Decidable q] (hpq : p → q)
    (err : Option PyErr) :
    (Except.ok (if p then pyTrue else pyFalse, err) : Except Fault (PyRef × Option PyErr)) =
      .ok (if q then pyTrue else pyFalse, err) ↔ (q → p) := by
  have hne : pyFalse ≠ pyTrue := by decide
  by_cases hp : p
  · simp [hp, hpq hp]
  · by_cases hq : q <;> simp [hp, hq, hne]

/-- For `online` and `offline`: some piece contains the token when the reply does. -/
theorem poll_iff (d : Delivery) (token : List UInt8) (err : Option PyErr) :
    (Except.ok (if ∃ b ∈ d.parts, token <:+: b then pyTrue else pyFalse, err) :
        Except Fault (PyRef × Option PyErr)) =
      .ok (if ∃ b ∈ d.whole.parts, token <:+: b then pyTrue else pyFalse, err) ↔
    (token <:+: d.reply → ∃ b ∈ d.parts, token <:+: b) := by
  have hwhole : (∃ b ∈ d.whole.parts, token <:+: b) ↔ token <:+: d.reply := by
    simp [Delivery.whole]
  have hpart : (∃ b ∈ d.parts, token <:+: b) → ∃ b ∈ d.whole.parts, token <:+: b := by
    rintro ⟨b, hb, hin⟩
    exact hwhole.mpr (hin.trans (d.part_infix hb))
  rw [bool_verdict_iff hpart, hwhole]

/-- For `status`: the pieces show what the reply shows, and the reply does not end with
its token at the end of the buffer unless it comes in one read. -/
theorem status_iff {mem : Mem Script} (h : Connected mem) (d : Delivery) :
    verdict (statusFrom 3) (awaiting mem d) = verdict (statusFrom 3) (awaiting mem d.whole) ↔
      KeepsVerdict d .status := by
  have hfits : ∀ b ∈ d.parts, b.length ≤ maxRecvBufSize := fun b hb => d.part_fits hb
  have hconn : ∀ d, Connected (awaiting mem d).mem := fun _ => h
  simp only [KeepsVerdict]
  rcases d.single_or_shorter with hsingle | hshort
  · have hwhole : d.whole.parts = d.parts := hsingle.symm
    simp [awaiting, hwhole, hsingle]
  · have hmany : d.parts ≠ [d.reply] := by
      intro heq
      have := hshort d.reply (heq ▸ List.mem_singleton_self _)
      omega
    have hinner : ∀ b ∈ d.parts, firstOccurrence statusToken b ≠ some lastStart := by
      intro b hb hlast
      have hend := (firstOccurrence_eq_some.mp hlast).2.1.le_length (by decide)
      have hlt := hshort b hb
      have hle : d.reply.length ≤ maxRecvBufSize := d.fits
      have hsum : lastStart + statusToken.length = maxRecvBufSize := by decide
      omega
    rw [verdict_statusFrom_script (hconn d) rfl hfits hinner d.few]
    by_cases hlast : firstOccurrence statusToken d.reply = some lastStart
    · rw [verdict_statusFrom_last (b := d.reply) (hconn d.whole) rfl d.fits hlast]
      simp [hmany, hlast, returns]
    · rw [verdict_statusFrom_script (hconn d.whole) rfl (fun b hb => d.whole.part_fits hb)
        (by simpa [Delivery.whole] using hlast) d.whole.few]
      have hone : d.whole.parts.findSome? shown = shown d.reply := by
        rw [Delivery.whole, List.findSome?_cons]
        cases shown d.reply <;> rfl
      have herr : (awaiting mem d).err = (awaiting mem d.whole).err := rfl
      rw [hone, herr]
      simp [hlast, returns, statusWord_inj]

/-- For `led`: the first block contains `OK` when the reply does. -/
theorem led_iff (d : Delivery) (err : Option PyErr) :
    (Except.ok (if okToken <:+: d.first then pyTrue else pyFalse, err) :
        Except Fault (PyRef × Option PyErr)) =
      .ok (if okToken <:+: d.whole.first then pyTrue else pyFalse, err) ↔
    (okToken <:+: d.reply → okToken <:+: d.first) :=
  bool_verdict_iff (fun hin => hin.trans d.first_prefix.isInfix) err

/-- For `cmd_lte`: when the reply contains `OK`, so does the first block, and the string
in it ends there too; or else the string in the reply is `ERROR`. -/
theorem cmdLte_iff (d : Delivery) (err : Option PyErr) (args : List PyObject) :
    built (if okToken <:+: d.first then cString (fill d.first) else some (lit "ERROR")) err =
      built (if okToken <:+: d.reply then cString (fill d.reply) else some (lit "ERROR")) err ↔
    KeepsVerdict d (.cmdLte args) := by
  obtain ⟨rest, hrest⟩ := d.first_prefix
  rw [built_inj, KeepsVerdict]
  by_cases hall : okToken <:+: d.reply
  · rw [if_pos hall]
    by_cases hin : okToken <:+: d.first
    · have hfits : (d.first ++ rest).length ≤ maxRecvBufSize := hrest ▸ d.fits
      have htext := cString_fill_prefix hfits
      rw [hrest] at htext
      simpa [hall, hin] using htext
    · have herror : cString (fill d.reply) = some (lit "ERROR") ↔ _ :=
        cString_fill_eq_some d.fits (by decide)
      rw [if_neg hin, eq_comm]
      simpa [hall, hin] using herror
  · have hno : ¬okToken <:+: d.first := fun hin => hall (hin.trans d.first_prefix.isInfix)
    simp [hall, hno]

/-- A command that reads nothing does not see the delivery. -/
theorem verdict_sendOnly {mem : Mem Script} (h : Connected mem) (d : Delivery)
    (cmd : List UInt8) :
    verdict (sendOnly cmd) (awaiting mem d) = verdict (sendOnly cmd) (awaiting mem d.whole) := by
  have hconn : ∀ d, Connected (awaiting mem d).mem := fun _ => h
  simp only [sendOnly, verdict_afterSend (hconn _)]
  rfl

/-- A connected command gives the same verdict on a reply in pieces as on the whole
reply precisely when the pieces keep it. -/
theorem verdict_eq_whole_iff {mem : Mem Script} (h : Connected mem) {c : Command}
    (hreach : c.Reaches = true) (hinit : c ≠ .init) (d : Delivery) :
    c.verdict mem d = c.verdict mem d.whole ↔ KeepsVerdict d c := by
  have hconn : ∀ d, Connected (awaiting mem d).mem := fun _ => h
  have hfits : ∀ d : Delivery, ∀ b ∈ d.parts, b.length ≤ maxRecvBufSize :=
    fun d b hb => d.part_fits hb
  have hfirst : ∀ d : Delivery, (awaiting mem d).mem.tty =
      ⟨some d.first :: d.parts.tail.map some⟩ := by
    intro d
    rw [awaiting, withTty_tty, ← List.map_cons, Delivery.first, List.cons_head_tail]
  cases c with
  | init => exact absurd rfl hinit
  | status =>
    simp only [Command.verdict, Command.body, status, verdict_afterSend (hconn _)]
    exact status_iff h d
  | online =>
    have hpoll : ∀ d, Command.online.verdict mem d =
        .ok (if ∃ b ∈ d.parts, onlineToken <:+: b then pyTrue else pyFalse, none) := fun d =>
      (verdict_afterSend (hconn d) _ _ _).trans
        (verdict_pollFrom (by decide) (by decide) (fun _ => rfl) (hconn d) rfl (hfits d) d.few)
    rw [hpoll, hpoll]
    exact poll_iff d onlineToken none
  | offline =>
    have hpoll : ∀ d, Command.offline.verdict mem d =
        .ok (if ∃ b ∈ d.parts, offlineToken <:+: b then pyTrue else pyFalse, none) := fun d =>
      (verdict_afterSend (hconn d) _ _ _).trans
        (verdict_pollFrom (by decide) (by decide) (fun _ => rfl) (hconn d) rfl (hfits d) d.few)
    rw [hpoll, hpoll]
    exact poll_iff d offlineToken none
  | led args =>
    have hled : ∀ d, (Command.led args).verdict mem d =
        .ok (if okToken <:+: d.first then pyTrue else pyFalse, none) := fun d =>
      verdict_led (hconn d) hreach (hfirst d) (d.part_fits (List.head_mem d.one))
    rw [hled, hled]
    exact led_iff d none
  | cmdLte args =>
    have hcmd : ∀ d, (Command.cmdLte args).verdict mem d =
        built (if okToken <:+: d.first then cString (fill d.first) else some (lit "ERROR"))
          none := fun d =>
      verdict_cmdLte (hconn d) hreach (hfirst d) (d.part_fits (List.head_mem d.one))
    rw [hcmd, hcmd]
    exact cmdLte_iff d none args
  | restart => exact iff_of_true (verdict_sendOnly h d _) trivial
  | call args =>
    obtain ⟨num, hnum⟩ := Option.isSome_iff_exists.mp hreach
    refine iff_of_true ?_ trivial
    by_cases hfit : num.length ≤ 25
    · simpa only [Command.verdict, Command.body, call_eq hnum hfit] using
        verdict_sendOnly h d (callText num)
    · simp [Command.verdict, Command.body, verdict, run_call_long hnum hfit]
  | hangup => exact iff_of_true (verdict_sendOnly h d _) trivial

/-- A reply to `online` in two lines, each read on its own. -/
def onlineLines : Delivery where
  parts := [lit "\r\nOK\r\n", lit "\r\n^NDISSTAT: 1,,,\"IPV4\"\r\n"]
  nonempty := by decide
  one := by decide
  few := by decide
  fits := by decide

/-- `online` keeps its verdict when the reply is split between its lines. -/
theorem online_keeps_verdict :
    Command.online.verdict connectedMem onlineLines =
      Command.online.verdict connectedMem onlineLines.whole :=
  (verdict_eq_whole_iff (c := .online) connectedMem_connected rfl (by decide)
    onlineLines).mpr fun _ => ⟨lit "\r\n^NDISSTAT: 1,,,\"IPV4\"\r\n", by decide, by decide⟩

/-- `OK` split in the middle. -/
def splitOk : Delivery where
  parts := [lit "\r\nO", lit "K\r\n"]
  nonempty := by decide
  one := by decide
  few := by decide
  fits := by decide

/-- `led` returns False on a reply whose `OK` is split, and True on the whole reply. -/
theorem led_loses_split_ok :
    (Command.led [.atom (.int 1)]).verdict connectedMem splitOk ≠
      (Command.led [.atom (.int 1)]).verdict connectedMem splitOk.whole := by
  decide +kernel

end PyModules.Lte
