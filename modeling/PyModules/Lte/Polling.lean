import PyModules.Lte.Replies
import PyModules.Lte.Script

/-!
# Waiting for a notification

`online` and `offline` send a command and then receive up to three times, until a block
contains the notification of the modem. This file says what they return, how many reads
they make, and when the shell command of `online` runs, for all outcomes of the reads.
-/

namespace PyModules.Lte

variable {π : Type} [Tty π]

/-- The outcomes of the next `n` reads: blocks, and `none` for reads that fail. -/
def outcomes : ℕ → π → List (Option (List UInt8))
  | 0, _ => []
  | n + 1, tty => (received tty).1 :: outcomes n (received tty).2

/-- The line after `n` reads. -/
def afterReads : ℕ → π → π
  | 0, tty => tty
  | n + 1, tty => afterReads n (received tty).2

/-- The outcome is a block that contains the token. -/
def Announces (token : List UInt8) (outcome : Option (List UInt8)) : Prop :=
  ∃ b, outcome = some b ∧ token <:+: b

@[simp] theorem not_announces_none (token : List UInt8) : ¬Announces token none := by
  rintro ⟨b, hb, _⟩
  exact Option.some_ne_none b hb.symm

@[simp] theorem announces_some {token b : List UInt8} :
    Announces token (some b) ↔ token <:+: b := by
  simp [Announces]

instance (token : List UInt8) : DecidablePred (Announces token)
  | none => .isFalse (not_announces_none token)
  | some _ => decidable_of_iff _ announces_some.symm

/-- How many of the reads are made: none after the first block that contains the token. -/
def readsMade (token : List UInt8) (os : List (Option (List UInt8))) : ℕ :=
  min (os.findIdx (Announces token ·) + 1) os.length

/-- A poll whose first read brings the token makes no other. -/
theorem readsMade_of_announces {token : List UInt8} {o : Option (List UInt8)}
    (h : Announces token o) (os : List (Option (List UInt8))) :
    readsMade token (o :: os) = 1 := by
  simp [readsMade, List.findIdx_cons, h]

/-- A poll whose first read does not bring the token goes on. -/
theorem readsMade_of_not {token : List UInt8} {o : Option (List UInt8)}
    (h : ¬Announces token o) (os : List (Option (List UInt8))) :
    readsMade token (o :: os) = readsMade token os + 1 := by
  simp [readsMade, List.findIdx_cons, h]

/-- The loop of `online` and `offline` makes its reads, and goes on with `found` precisely
when one of the blocks contains the token. -/
theorem run_pollFrom {token : List UInt8} (htoken : token ≠ [])
    (hsize : token.length ≤ maxRecvBufSize) (found : CM (Mem π) PyRef) (n : ℕ)
    {s : Proc (Mem π)} (h : Connected s.mem) :
    (pollFrom token found n).run s =
      (if ∃ o ∈ outcomes n s.mem.tty, Announces token o then found else return pyFalse).run
        (withTty s (afterReads (readsMade token (outcomes n s.mem.tty)) s.mem.tty)) := by
  induction n generalizing s with
  | zero => rfl
  | succ n ih =>
    rw [run_pollFrom_succ h htoken hsize, outcomes]
    rcases hr : received s.mem.tty with ⟨_ | b, tty⟩
    · have hno := not_announces_none token
      simp only [readsMade_of_not hno, List.exists_mem_cons_iff, hno, false_or, afterReads, hr]
      exact ih (h.withTty tty)
    · by_cases hin : token <:+: b
      · have hyes := announces_some.mpr hin
        simp only [readsMade_of_announces hyes, List.exists_mem_cons_iff, hyes, true_or, if_true,
          hin, afterReads, hr]
      · have hno := mt announces_some.mp hin
        simp only [readsMade_of_not hno, List.exists_mem_cons_iff, hno, false_or, if_neg hin,
          afterReads, hr]
        exact ih (h.withTty tty)

/-- What a poll for the token on the line `tty` must do, `commands` being what the shell runs
when the token is found. -/
structure Polled (token : List UInt8) (commands : List String) (s : Proc (Mem π)) (tty : π)
    (r : PyRef) (s' : Proc (Mem π)) : Prop where
  answer : r = pyTrue ∨ r = pyFalse
  /-- True stands for a token within one of the three blocks. -/
  found : r = pyTrue ↔ ∃ b, some b ∈ outcomes 3 tty ∧ token <:+: b
  /-- No read follows the first block with the token. -/
  reads : s'.mem.tty = afterReads (readsMade token (outcomes 3 tty)) tty
  /-- The shell command runs once with the answer True, and not at all otherwise. -/
  shell : s'.mem.shell = s.mem.shell ++ if r = pyTrue then commands else []

/-- Some read brings the token precisely when some block contains it. -/
theorem exists_announces {token : List UInt8} {os : List (Option (List UInt8))} :
    (∃ o ∈ os, Announces token o) ↔ ∃ b, some b ∈ os ∧ token <:+: b := by
  constructor
  · rintro ⟨_, ho, b, rfl, hin⟩
    exact ⟨b, ho, hin⟩
  · rintro ⟨b, hb, hin⟩
    exact ⟨some b, hb, announces_some.mpr hin⟩

/-- A loop that answers True after running the given shell commands polls. -/
theorem polled_of_pollFrom {token : List UInt8} (htoken : token ≠ [])
    (hsize : token.length ≤ maxRecvBufSize) {found : CM (Mem π) PyRef} {commands : List String}
    (hfound : ∀ s, found.run s =
      .ok (pyTrue, { s with mem := { s.mem with shell := s.mem.shell ++ commands } }))
    {s : Proc (Mem π)} (h : Connected s.mem) (tty : π) :
    ∃ r s', (pollFrom token found 3).run (withTty s tty) = .ok (r, s') ∧
      Polled token commands s tty r s' := by
  have htrue : pyFalse ≠ pyTrue := by decide
  rw [run_pollFrom htoken hsize found 3 (h.withTty tty)]
  by_cases hin : ∃ o ∈ outcomes 3 tty, Announces token o
  · rw [withTty_tty, if_pos hin, hfound]
    refine ⟨_, _, rfl, .inl rfl, iff_of_true rfl (exists_announces.mp hin), rfl, ?_⟩
    simp [withTty]
  · rw [withTty_tty, if_neg hin]
    refine ⟨_, _, rfl, .inr rfl, iff_of_false htrue (mt exists_announces.mpr hin), rfl, ?_⟩
    simp [withTty, htrue]

/-- The command that `online` sends. -/
def onlineCmd : List UInt8 := lit "AT^NDISDUP=1,1\r\n"

/-- The command that `offline` sends. -/
def offlineCmd : List UInt8 := lit "AT^NDISDUP=1,0\r\n"

/-- Once their command is sent, `online` and `offline` return True precisely when one of the
next three blocks contains their token; they make no read after the first such block, and
`online` runs `udhcpc` exactly when it returns True. -/
theorem online_offline_polled {s : Proc (Mem π)} (h : Connected s.mem) :
    ((Tty.write onlineCmd s.mem.tty).1 = onlineCmd.length →
      ∃ r s', (online : CM (Mem π) PyRef).run s = .ok (r, s') ∧
        Polled onlineToken ["udhcpc -n -i usb0"] s (Tty.write onlineCmd s.mem.tty).2 r s') ∧
      ((Tty.write offlineCmd s.mem.tty).1 = offlineCmd.length →
        ∃ r s', (offline : CM (Mem π) PyRef).run s = .ok (r, s') ∧
          Polled offlineToken [] s (Tty.write offlineCmd s.mem.tty).2 r s') := by
  constructor
  · intro hsent
    rw [show (online : CM (Mem π) PyRef).run s = _ from run_sent h hsent _ _]
    exact polled_of_pollFrom (by decide) (by decide) (fun _ => rfl) h _
  · intro hsent
    have hfound : ∀ s : Proc (Mem π), (return pyTrue : CM (Mem π) PyRef).run s =
        .ok (pyTrue, { s with mem := { s.mem with shell := s.mem.shell ++ [] } }) := by
      intro s
      rw [List.append_nil]
      rfl
    rw [show (offline : CM (Mem π) PyRef).run s = _ from run_sent h hsent _ _]
    exact polled_of_pollFrom (by decide) (by decide) hfound h _

/-- A timeout, a block with a NUL, and the notification. -/
def thirdRead : List (Option (List UInt8)) :=
  [none, some [94, 0, 78], some (lit "\r\n^NDISSTAT: 1,,,\r\n")]

/-- A process with a connected context and these reads to come. -/
def threeReads : Proc (Mem Script) := ⟨none, { connectedMem with tty := ⟨thirdRead⟩ }⟩

/-- `online` waits for the third read, and returns True. -/
theorem online_polled_thirdRead :
    ∃ s', (online : CM (Mem Script) PyRef).run threeReads = .ok (pyTrue, s') ∧
      Polled onlineToken ["udhcpc -n -i usb0"] threeReads ⟨thirdRead⟩ pyTrue s' := by
  have hconn : Connected threeReads.mem := connectedMem_connected
  obtain ⟨r, s', hrun, hpolled⟩ := (online_offline_polled hconn).1 rfl
  have hfound : ∃ o ∈ outcomes 3 (Script.mk thirdRead), Announces onlineToken o := by
    decide +kernel
  have hr : r = pyTrue := hpolled.found.mpr (exists_announces.mp hfound)
  rw [hr] at hrun hpolled
  exact ⟨s', hrun, hpolled⟩

end PyModules.Lte
