import PyModules.Lte.Polling

/-!
# The state of the connection

`status` asks the modem and then receives up to three times, until a block shows a digit
behind the token. The digit is read from the buffer without a look at the received length.
The zeros behind a short block keep that harmless; a token that ends with the buffer does not.
-/

namespace PyModules.Lte

open Overlap

/-- What Python sees of a program: the returned reference and the error indicator. -/
def verdict {σ : Type} (x : CM σ PyRef) (s : Proc σ) : Except Fault (PyRef × Option PyErr) :=
  (x.run s).map fun r => (r.1, r.2.err)

/-- What the byte after the token tells `status`. -/
def digit (c : UInt8) : Option Bool :=
  if c = 48 then some false else if c = 49 then some true else none

/-- What a block shows: the digit after its first token. -/
def shown (b : List UInt8) : Option Bool :=
  match firstOccurrence statusToken b with
  | some p => digit (b.getD (p + statusToken.length) 0)
  | none => none

/-- The word `status` returns. -/
def statusWord : Option Bool → List UInt8
  | some false => lit "offline"
  | some true => lit "online"
  | none => lit "ERROR"

/-- Different states of the connection have different words. -/
theorem statusWord_inj {x y : Option Bool} : statusWord x = statusWord y ↔ x = y := by
  cases x with
  | none => cases y with
    | none => simp
    | some b => cases b <;> decide
  | some a => cases y with
    | none => cases a <;> decide
    | some b => cases a <;> cases b <;> decide

/-- The position at which a token ends with the buffer, so that no digit follows. -/
def lastStart : ℕ := maxRecvBufSize - statusToken.length

/-- The verdict of returning a string. -/
def returns (word : List UInt8) (err : Option PyErr) : Except Fault (PyRef × Option PyErr) :=
  .ok (some (.atom (.str (some word))), err)

/-- The words are ASCII, so `status` can return them. -/
theorem verdict_statusWord {σ : Type} (x : Option Bool) (s : Proc σ) :
    verdict (buildStr (statusWord x)) s = returns (statusWord x) s.err := by
  have hvalid : utf8Valid (statusWord x) = true := by
    apply utf8Valid_of_ascii
    rcases x with _ | _ | _ <;> decide +kernel
  rw [verdict, run_buildStr, if_pos hvalid]
  rfl

/-! ## Digits inside the block -/

/-- The digit that follows the first token of a block, inside the block. -/
def told (b : List UInt8) : Option Bool := do
  let p ← firstOccurrence statusToken b
  let c ← b[p + statusToken.length]?
  digit c

/-- The zeros behind a block are no digits. -/
theorem shown_eq_told (b : List UInt8) : shown b = told b := by
  have hzero : digit 0 = none := by decide
  rcases hfirst : firstOccurrence statusToken b with _ | p
  · simp [shown, told, hfirst]
  · rcases hc : b[p + statusToken.length]? with _ | c
    · simp [shown, told, hfirst, hc, hzero]
    · simp [shown, told, hfirst, hc]

/-- A token at the end of the buffer is followed by nothing. -/
theorem told_lastStart {b : List UInt8} (hb : b.length ≤ maxRecvBufSize)
    (hlast : firstOccurrence statusToken b = some lastStart) : told b = none := by
  have hend : b[lastStart + statusToken.length]? = none := by
    rw [List.getElem?_eq_none]
    rw [lastStart]
    omega
  simp [told, hlast, hend]

/-- What the outcome of a read tells. -/
def toldBy (outcome : Option (List UInt8)) : Option Bool := outcome.bind told

/-- Before a digit is told, no block ends with its first token and with the buffer. -/
def StaysInside (os : List (Option (List UInt8))) : Prop :=
  ∀ b, some b ∈ os.takeWhile (fun o => (toldBy o).isNone) →
    firstOccurrence statusToken b ≠ some lastStart

instance (os : List (Option (List UInt8))) : Decidable (StaysInside os) :=
  decidable_of_iff
    (∀ o ∈ os.takeWhile (fun o => (toldBy o).isNone),
      o.bind (firstOccurrence statusToken) ≠ some lastStart) <| by
    constructor
    · exact fun h b hb => h (some b) hb
    · rintro h (_ | b) ho
      · exact (Option.some_ne_none lastStart).symm
      · exact h b ho

@[simp] theorem staysInside_nil : StaysInside [] := by
  simp [StaysInside]

/-- A failed read leaves all to the later ones. -/
@[simp] theorem staysInside_none_cons {os : List (Option (List UInt8))} :
    StaysInside (none :: os) ↔ StaysInside os := by
  simp [StaysInside, toldBy]

/-- After a block that tells a digit nothing is read. -/
theorem staysInside_of_told {b : List UInt8} (htold : told b ≠ none)
    (os : List (Option (List UInt8))) : StaysInside (some b :: os) := by
  simp [StaysInside, toldBy, htold]

/-- A block that tells no digit must not end with the token, and nor must those after it. -/
theorem staysInside_cons {b : List UInt8} (htold : told b = none)
    {os : List (Option (List UInt8))} :
    StaysInside (some b :: os) ↔
      firstOccurrence statusToken b ≠ some lastStart ∧ StaysInside os := by
  simp [StaysInside, toldBy, htold]

/-! ## The loop -/

variable {π : Type} [Tty π]

/-- A round whose block ends with the token and the buffer reads past the buffer. -/
theorem run_statusFrom_overrun {s : Proc (Mem π)} (h : Connected s.mem) (todo : ℕ)
    {b : List UInt8} {tty : π} (hr : received s.mem.tty = (some b, tty))
    (hlast : firstOccurrence statusToken b = some lastStart) :
    (statusFrom (todo + 1)).run s = .error .outOfBounds := by
  have hb : b.length ≤ maxRecvBufSize := received_length (congrArg Prod.fst hr)
  have hend : (fill b)[lastStart + statusToken.length]? = none := by
    rw [List.getElem?_eq_none]
    rw [fill_length hb, lastStart]
    omega
  rw [run_statusFrom_succ h, hr]
  simp only [hlast, hend]

/-- A round with any other block returns the word for the digit told, or goes on. -/
theorem run_statusFrom_block {s : Proc (Mem π)} (h : Connected s.mem) (todo : ℕ)
    {b : List UInt8} {tty : π} (hr : received s.mem.tty = (some b, tty))
    (hlast : firstOccurrence statusToken b ≠ some lastStart) :
    (statusFrom (todo + 1)).run s =
      ((told b).elim (statusFrom todo) fun d => buildStr (statusWord (some d))).run
        (withTty s tty) := by
  have hb : b.length ≤ maxRecvBufSize := received_length (congrArg Prod.fst hr)
  rw [run_statusFrom_succ h, hr, ← shown_eq_told]
  simp only [shown]
  rcases hfirst : firstOccurrence statusToken b with _ | p
  · rfl
  · have hin := (firstOccurrence_eq_some.mp hfirst).2.1.le_length (by decide)
    have hp : p + statusToken.length < maxRecvBufSize := by
      have hne : p ≠ lastStart := fun hp => hlast (hp ▸ hfirst)
      have hlen : statusToken.length = 14 := by decide
      simp only [lastStart] at hne
      omega
    simp only [fill_getElem? hb hp, digit]
    generalize b.getD (p + statusToken.length) 0 = c
    by_cases h0 : c = 48
    · simp only [if_pos h0, Option.elim_some, statusWord]
    · by_cases h1 : c = 49
      · simp only [if_neg h0, if_pos h1, Option.elim_some, statusWord]
      · simp only [if_neg h0, if_neg h1, Option.elim_none]

/-- What the loop of `status` comes to: a read past the buffer, or the word for the first
digit told. -/
theorem verdict_statusFrom (n : ℕ) {s : Proc (Mem π)} (h : Connected s.mem) :
    verdict (statusFrom n) s =
      if StaysInside (outcomes n s.mem.tty) then
        returns (statusWord ((outcomes n s.mem.tty).findSome? toldBy)) s.err
      else .error .outOfBounds := by
  induction n generalizing s with
  | zero =>
    simp only [outcomes, staysInside_nil, if_true, List.findSome?_nil]
    exact verdict_statusWord none s
  | succ n ih =>
    rcases hr : received s.mem.tty with ⟨_ | b, tty⟩
    · have hstep : verdict (statusFrom (n + 1)) s = verdict (statusFrom n) (withTty s tty) := by
        rw [verdict, run_statusFrom_succ h, hr]
        rfl
      rw [hstep, ih (h.withTty tty), outcomes, hr]
      exact if_congr staysInside_none_cons.symm rfl rfl
    · have hb : b.length ≤ maxRecvBufSize := received_length (congrArg Prod.fst hr)
      by_cases hlast : firstOccurrence statusToken b = some lastStart
      · have hover : ¬StaysInside (outcomes (n + 1) s.mem.tty) := by
          rw [outcomes, hr, staysInside_cons (told_lastStart hb hlast)]
          exact fun hin => hin.1 hlast
        rw [if_neg hover, verdict, run_statusFrom_overrun h n hr hlast]
        rfl
      · rw [verdict, run_statusFrom_block h n hr hlast]
        rcases htold : told b with _ | d
        · have hskip : StaysInside (some b :: outcomes n tty) ↔ StaysInside (outcomes n tty) := by
            simp [staysInside_cons htold, hlast]
          have hfind : (some b :: outcomes n tty).findSome? toldBy =
              (outcomes n tty).findSome? toldBy := by
            simp [toldBy, htold]
          rw [outcomes, hr, hfind]
          exact (ih (h.withTty tty)).trans (if_congr hskip.symm rfl rfl)
        · have hin : StaysInside (outcomes (n + 1) s.mem.tty) := by
            rw [outcomes, hr]
            apply staysInside_of_told
            rw [htold]
            exact Option.some_ne_none d
          have hfind : (some b :: outcomes n tty).findSome? toldBy = some d := by
            simp [toldBy, htold]
          rw [if_pos hin, outcomes, hr, hfind]
          exact verdict_statusWord (some d) (withTty s tty)

/-! ## The command -/

/-- The command that `status` sends. -/
def statusCmd : List UInt8 := lit "AT^NDISSTATQRY?\r\n"

/-- The outcomes of the three reads of `status`. -/
def statusReads (s : Proc (Mem π)) : List (Option (List UInt8)) :=
  outcomes 3 (Tty.write statusCmd s.mem.tty).2

/-- What `status` comes to once its command is sent. -/
theorem verdict_status {s : Proc (Mem π)} (h : Connected s.mem)
    (hsent : (Tty.write statusCmd s.mem.tty).1 = statusCmd.length) :
    verdict (status : CM (Mem π) PyRef) s =
      if StaysInside (statusReads s) then
        returns (statusWord ((statusReads s).findSome? toldBy)) s.err
      else .error .outOfBounds := by
  have hrun : verdict (status : CM (Mem π) PyRef) s =
      verdict (statusFrom 3) (withTty s (Tty.write statusCmd s.mem.tty).2) :=
    congrArg (Except.map _) (run_sent h hsent _ _)
  rw [hrun, verdict_statusFrom 3 (h.withTty _)]
  rfl

/-- Once its command is sent, `status` reports the digit that follows the first token of the
first block in which one does, inside the block, and `ERROR` without such a block, precisely
when no earlier block ends with its first token and with the buffer. -/
theorem status_reports_iff {s : Proc (Mem π)} (h : Connected s.mem)
    (hsent : (Tty.write statusCmd s.mem.tty).1 = statusCmd.length) :
    verdict (status : CM (Mem π) PyRef) s =
        returns (statusWord ((statusReads s).findSome? toldBy)) s.err ↔
      StaysInside (statusReads s) := by
  rw [verdict_status h hsent]
  split
  · rename_i hin
    exact iff_of_true rfl hin
  · rename_i hover
    exact iff_of_false (by simp [returns]) hover

/-- A timeout, a token that ends its block, and the token with its digit. -/
def digitThird : List (Option (List UInt8)) :=
  [none, some (lit "\r\n^NDISSTATQRY: "), some (lit "\r\n^NDISSTATQRY: 1,,,\"IPV4\"\r\n")]

/-- `status` ignores the zero behind the second block, and finds the digit in the third. -/
theorem status_reports_digitThird :
    verdict (status : CM (Mem Script) PyRef) (reading digitThird) =
      returns (lit "online") none := by
  have htold : (statusReads (reading digitThird)).findSome? toldBy = some true := by
    decide +kernel
  have hreports := (status_reports_iff (reading_connected digitThird) rfl).mpr (by decide +kernel)
  rw [htold] at hreports
  exact hreports

/-- A block of 256 bytes, the last of which are the token. -/
def tokenLast : List UInt8 := List.replicate lastStart 32 ++ statusToken

/-- After such a block `status` indexes its buffer at 256, where it should read on and
return `ERROR`. -/
theorem status_overruns_tokenLast :
    verdict (status : CM (Mem Script) PyRef) (reading [some tokenLast]) = .error .outOfBounds ∧
      verdict (status : CM (Mem Script) PyRef) (reading [some tokenLast]) ≠
        returns (statusWord ((statusReads (reading [some tokenLast])).findSome? toldBy)) none := by
  have hover : ¬StaysInside (statusReads (reading [some tokenLast])) := by decide +kernel
  have hverdict := verdict_status (reading_connected [some tokenLast]) rfl
  rw [if_neg hover] at hverdict
  refine ⟨hverdict, ?_⟩
  rw [hverdict]
  simp [returns]

end PyModules.Lte
