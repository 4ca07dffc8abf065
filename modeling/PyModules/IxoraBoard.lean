import Mathlib.Data.Fintype.Prod
import Mathlib.Data.List.TakeWhile
import PyModules.Attributes
import PyModules.IxoraLed
import PyModules.Library.Runs

/-!
# The lights of the board

Which LEDs are lit, as a set that calls change, and as what the brightness files hold. The
module refines the set whatever the system answers: an LED changes only when its file takes
the data, and `clear` and the teardown stop at the first file that does not open or buffer.
They switch off the LEDs 4 and 5, while `ioctl` switches all of 0 to 5.
-/

namespace PyModules.IxoraLed

/-! ## LEDs -/

/-- The colors. -/
inductive Color
  | red
  | green
  deriving DecidableEq, Repr

instance : Fintype Color where
  elems := {.red, .green}
  complete c := by cases c <;> decide

/-- The name of a color in a path. -/
def Color.name : Color → String
  | .red => "RED"
  | .green => "GREEN"

/-- An LED of the board. -/
structure Led where
  num : Fin 6
  color : Color
  deriving DecidableEq, Repr

instance : Fintype Led :=
  Fintype.ofEquiv (Fin 6 × Color)
    ⟨fun p => ⟨p.1, p.2⟩, fun led => (led.num, led.color), fun _ => rfl, fun _ => rfl⟩

/-- The number and the name under which the functions use an LED. -/
def Led.key (led : Led) : ℤ × String := (led.num, led.color.name)

/-- The brightness file of an LED. -/
def Led.path (led : Led) : String := ledPath led.num led.color.name

/-- Different LEDs have different files. -/
theorem path_injective : Function.Injective Led.path := by
  have hall : ∀ a b : Led, a.path = b.path → a = b := by decide +kernel
  exact fun a b => hall a b

/-- The LEDs in the order of `led_exit`. -/
def cleared : List Led := [⟨4, .red⟩, ⟨4, .green⟩, ⟨5, .red⟩, ⟨5, .green⟩]

theorem map_key_cleared : cleared.map Led.key = leds := rfl

/-- Numbers that select an LED and a status. -/
def InRange (num color status : ℤ) : Prop :=
  (0 ≤ num ∧ num < 6) ∧ (color = RED ∨ color = GREEN) ∧ (status = LOW ∨ status = HIGH)

instance (num color status : ℤ) : Decidable (InRange num color status) :=
  inferInstanceAs (Decidable (_ ∧ _ ∧ _))

/-- The LED and the status that the arguments of `ioctl` select. -/
def request (args : List PyObject) : Option (Led × Bool) := do
  let (num, color, status) ← parseIoctl args
  if h : InRange num color status then
    have hnum : num.toNat < 6 := (Int.toNat_lt h.1.1).mpr h.1.2
    some (⟨⟨num.toNat, hnum⟩, if color = RED then .red else .green⟩, decide (status = HIGH))
  else none

/-! ## Calls -/

/-- The functions that act on the board, with their arguments and the answers they get. -/
inductive Call
  | ioctl (args : List PyObject) (leddev : FileOutcome)
  | clear (leddev : ℤ × String → FileOutcome)
  | ledExit (leddev : ℤ × String → FileOutcome)

/-- The function a call runs; teardown returns nothing, and `None` stands for it. -/
def Call.body : Call → CM Mem PyRef
  | .ioctl args leddev => IxoraLed.ioctl args leddev
  | .clear leddev => IxoraLed.clear leddev
  | .ledExit leddev => do
    IxoraLed.ledExit leddev
    return pyNone

/-- The memory after a call. -/
def step (mem : Mem) (c : Call) : Except Fault Mem :=
  (c.body.run ⟨none, mem⟩).map fun r => r.2.mem

/-! ## The board -/

/-- The file opens, buffers, and accepts the data. -/
def Serves (o : FileOutcome) : Prop := o.opens ∧ o.writes ∧ o.accepts

instance (o : FileOutcome) : Decidable (Serves o) := inferInstanceAs (Decidable (_ ∧ _ ∧ _))

/-- The LEDs that `led_exit` switches off: those before the first whose file does not open or
buffer, as far as their files accept the data. -/
def switchedOff (leddev : ℤ × String → FileOutcome) : List Led :=
  (cleared.takeWhile fun led => (leddev led.key).opens ∧ (leddev led.key).writes).filter
    fun led => (leddev led.key).accepts

/-- The lit LEDs after a call. -/
def Call.after (lit : Finset Led) : Call → Finset Led
  | .ioctl args leddev =>
    match request args with
    | none => lit
    | some (led, on) =>
      if ¬Serves leddev then lit else if on then insert led lit else lit.erase led
  | .clear leddev => lit \ (switchedOff leddev).toFinset
  | .ledExit leddev => lit \ (switchedOff leddev).toFinset

/-- The LEDs whose brightness files hold a 1. -/
def lights (c : Contents) : Finset Led := Finset.univ.filter fun led => c led.path = some (cstr "1")

/-! ## Writes to brightness files -/

theorem mem_lights {c : Contents} {led : Led} : led ∈ lights c ↔ c led.path = some (cstr "1") := by
  simp [lights]

/-- A file that takes a 1 lights its LED. -/
theorem lights_take_on (c : Contents) (led : Led) (accepted : Bool) :
    lights (c.take ⟨led.path, cstr "1", accepted⟩) =
      if accepted then insert led (lights c) else lights c := by
  cases accepted with
  | false => simp [Contents.take]
  | true =>
    ext other
    simp only [mem_lights, take_apply, true_and, if_true, Finset.mem_insert]
    by_cases hsame : other = led
    · simp [hsame]
    · simp [hsame, path_injective.ne hsame]

/-- A file that takes a 0 switches its LED off. -/
theorem lights_take_off (c : Contents) (led : Led) (accepted : Bool) :
    lights (c.take ⟨led.path, cstr "0", accepted⟩) =
      if accepted then (lights c).erase led else lights c := by
  cases accepted with
  | false => simp [Contents.take]
  | true =>
    have hne : cstr "0" ≠ cstr "1" := by decide
    ext other
    simp only [mem_lights, take_apply, true_and, if_true, Finset.mem_erase]
    by_cases hsame : other = led
    · simp [hsame, hne]
    · simp [hsame, path_injective.ne hsame]

/-- What `led_exit` flushes to the file of an LED. -/
def offWrite (leddev : ℤ × String → FileOutcome) (led : Led) : Write :=
  ⟨led.path, cstr "0", (leddev led.key).accepts⟩

/-- The files that take a 0 switch their LEDs off. -/
theorem lights_after_off (leddev : ℤ × String → FileOutcome) (todo : List Led) (c : Contents) :
    lights (c.after (todo.map (offWrite leddev))) =
      lights c \ (todo.filter fun led => (leddev led.key).accepts).toFinset := by
  induction todo generalizing c with
  | nil => simp
  | cons led todo ih =>
    have hrest := ih (c.take (offWrite leddev led))
    rw [offWrite, lights_take_off] at hrest
    rw [List.map_cons, Contents.after, List.foldl_cons]
    refine hrest.trans ?_
    cases haccepts : (leddev led.key).accepts with
    | false => simp [haccepts]
    | true => simp [haccepts, Finset.sdiff_insert, Finset.erase_sdiff_comm]

/-! ## What a call flushes -/

/-- The loops of `led_exit` write up to the first file that does not open or buffer. -/
theorem run_switchOff_log (leddev : ℤ × String → FileOutcome) (todo : List Led) (s : Proc Mem) :
    ∃ s', (switchOff leddev (todo.map Led.key)).run s = .ok ((), s') ∧
      s'.mem.log = s.mem.log ++ (todo.takeWhile fun led =>
        (leddev led.key).opens ∧ (leddev led.key).writes).map (offWrite leddev) := by
  induction todo generalizing s with
  | nil => exact ⟨s, rfl, by simp⟩
  | cons led todo ih =>
    rw [List.map_cons, switchOff, StateT.run_bind]
    by_cases hdelivers : (leddev led.key).Delivers (ledPath led.key.1 led.key.2)
    · have hled := delivers_ledPath.mp hdelivers
      rw [run_writeChecked_of_delivers hdelivers, ok_bind]
      obtain ⟨s', hrun, hlog⟩ := ih _
      refine ⟨s', hrun, ?_⟩
      rw [hlog, List.takeWhile_cons_of_pos (by simpa using hled)]
      simp only [wrote_log, hled.2, if_true, flush_of_ne (cstr_ne_nil "0"), List.append_assoc,
        List.map_cons]
      rfl
    · obtain ⟨e, files, hrun, _⟩ := run_writeChecked_of_fails hdelivers (cstr "0") s
      rw [hrun, ok_bind]
      refine ⟨_, rfl, ?_⟩
      have hled := mt delivers_ledPath.mpr hdelivers
      rw [List.takeWhile_cons_of_neg (by simpa using hled)]
      simp

/-- What `ioctl` flushes to the file of an LED. -/
def ioctlWrites (led : Led) (data : List UInt8) (leddev : FileOutcome) : List Write :=
  if leddev.opens ∧ leddev.writes then [⟨led.path, data, leddev.accepts⟩] else []

theorem data_ne (on : Bool) : (if on then cstr "1" else cstr "0") ≠ [] := by
  cases on <;> exact cstr_ne_nil _

/-- The write of `ioctl` reaches its file if the file opens and buffers. -/
theorem run_ioctl_log (led : Led) {data : List UInt8} (hdata : data ≠ []) (leddev : FileOutcome)
    (s : Proc Mem) :
    ∃ r s', (do
        if ← writeChecked led.path data leddev then return pyTrue else return NULL).run s =
          .ok (r, s') ∧ s'.mem.log = s.mem.log ++ ioctlWrites led data leddev := by
  by_cases hdelivers : leddev.Delivers led.path
  · have hled := delivers_ledPath.mp hdelivers
    refine ⟨pyTrue, ⟨s.err, s.mem.wrote led.path data leddev⟩, ?_, ?_⟩
    · simp [run_writeChecked_of_delivers hdelivers]
    · simp [ioctlWrites, hled, hdata]
  · have hled := mt delivers_ledPath.mpr hdelivers
    obtain ⟨e, files, hrun, _⟩ := run_writeChecked_of_fails hdelivers data s
    refine ⟨NULL, ⟨some e, { s.mem with files := files }⟩, ?_, ?_⟩
    · simp [hrun]
    · simp [ioctlWrites, hled]

/-- A write that `ioctl` gets through changes the light of its LED. -/
theorem lights_after_ioctl (files : Contents) (led : Led) (on : Bool) (leddev : FileOutcome) :
    lights (files.after (ioctlWrites led (if on then cstr "1" else cstr "0") leddev)) =
      if ¬Serves leddev then lights files
      else if on then insert led (lights files) else (lights files).erase led := by
  by_cases hdelivers : leddev.opens ∧ leddev.writes
  · have hserves : Serves leddev ↔ leddev.accepts := by simp [Serves, hdelivers]
    rw [ioctlWrites, if_pos hdelivers, Contents.after, List.foldl_cons, List.foldl_nil]
    cases on with
    | false =>
      rw [if_neg Bool.false_ne_true, lights_take_off]
      by_cases haccepts : leddev.accepts <;> simp [hserves, haccepts]
    | true =>
      rw [if_pos rfl, lights_take_on]
      by_cases haccepts : leddev.accepts <;> simp [hserves, haccepts]
  · have hserves : ¬Serves leddev := fun h => hdelivers ⟨h.1, h.2.1⟩
    simp [ioctlWrites, hdelivers, hserves]

/-- `ioctl` writes the status to the file of the LED that its arguments select. -/
theorem ioctl_of_request {args : List PyObject} {led : Led} {on : Bool}
    (h : request args = some (led, on)) (leddev : FileOutcome) :
    ioctl args leddev = (do
      if ← writeChecked led.path (if on then cstr "1" else cstr "0") leddev then return pyTrue
      else return NULL) := by
  cases hparse : parseIoctl args with
  | none => simp [request, hparse] at h
  | some values =>
    obtain ⟨num, color, status⟩ := values
    by_cases hrange : InRange num color status
    · simp only [request, hparse, Option.bind_eq_bind, Option.bind_some, dif_pos hrange,
        Option.some.injEq, Prod.mk.injEq] at h
      obtain ⟨rfl, rfl⟩ := h
      obtain ⟨⟨hlow, hhigh⟩, hcolor, hstatus⟩ := hrange
      have hnum : ¬(num ≤ IXORA_LED_UNDEF ∨ num ≥ IXORA_LED_MAX) := by
        simp only [IXORA_LED_UNDEF, IXORA_LED_MAX]
        omega
      have hpath : ((num.toNat : ℕ) : ℤ) = num := Int.toNat_of_nonneg hlow
      simp only [ioctl, hparse, if_neg hnum, Led.path, hpath]
      rcases hcolor with rfl | rfl <;> rcases hstatus with rfl | rfl <;> rfl
    · simp [request, hparse, hrange] at h

/-- `ioctl` refuses arguments that select nothing. -/
theorem ioctl_refused {args : List PyObject} (h : request args = none) (leddev : FileOutcome) :
    ∃ msg, ioctl args leddev = raise msg := by
  unfold ioctl
  cases hparse : parseIoctl args with
  | none => exact ⟨_, rfl⟩
  | some values =>
    obtain ⟨num, color, status⟩ := values
    dsimp only
    by_cases hnum : num ≤ IXORA_LED_UNDEF ∨ num ≥ IXORA_LED_MAX
    · exact ⟨_, if_pos hnum⟩
    · rw [if_neg hnum]
      by_cases hcolor : color ≤ COLOR_UNDEF ∨ color ≥ COLOR_MAX
      · exact ⟨_, if_pos hcolor⟩
      · rw [if_neg hcolor]
        by_cases hstatus : status < LOW ∨ status > HIGH
        · exact ⟨_, if_pos hstatus⟩
        · have hrange : InRange num color status := by
            simp only [InRange, RED, GREEN, LOW, HIGH, IXORA_LED_UNDEF, IXORA_LED_MAX, COLOR_UNDEF,
              COLOR_MAX] at *
            omega
          simp [request, hparse, hrange] at h

/-! ## Whole runs -/

/-- A call returns, and what it flushes changes the lights as the call changes the set. -/
theorem step_board (c : Call) (mem : Mem) (files : Contents) :
    ∃ mem' ws, step mem c = .ok mem' ∧ mem'.log = mem.log ++ ws ∧
      lights (files.after ws) = c.after (lights files) := by
  have hexit : ∀ (leddev : ℤ × String → FileOutcome) (r : PyRef),
      ∃ s' ws, (do ledExit leddev; return r : CM Mem PyRef).run ⟨none, mem⟩ = .ok (r, s') ∧
        s'.mem.log = mem.log ++ ws ∧
        lights (files.after ws) = lights files \ (switchedOff leddev).toFinset := by
    intro leddev r
    obtain ⟨s', hrun, hlog⟩ := run_switchOff_log leddev cleared ⟨none, mem⟩
    refine ⟨s', _, ?_, hlog, lights_after_off leddev _ files⟩
    rw [ledExit, ← map_key_cleared, StateT.run_bind, hrun]
    rfl
  cases c with
  | ioctl args leddev =>
    cases hrequest : request args with
    | none =>
      obtain ⟨msg, hraise⟩ := ioctl_refused hrequest leddev
      refine ⟨mem, [], map_eq_ok.mpr ⟨(NULL, ⟨some ⟨.module, msg⟩, mem⟩), ?_, rfl⟩, by simp, ?_⟩
      · rw [Call.body, hraise, run_raise]
      · simp [Call.after, hrequest]
    | some request =>
      obtain ⟨led, on⟩ := request
      obtain ⟨r, s', hrun, hlog⟩ :=
        run_ioctl_log led (data_ne on) leddev ⟨none, mem⟩
      refine ⟨s'.mem, _, map_eq_ok.mpr ⟨(r, s'), ?_, rfl⟩, hlog, ?_⟩
      · rw [Call.body, ioctl_of_request hrequest]
        exact hrun
      · simp only [Call.after, hrequest]
        exact lights_after_ioctl files led on leddev
  | clear leddev =>
    obtain ⟨s', ws, hrun, hlog, hlights⟩ := hexit leddev pyTrue
    exact ⟨s'.mem, ws, map_eq_ok.mpr ⟨_, hrun, rfl⟩, hlog, hlights⟩
  | ledExit leddev =>
    obtain ⟨s', ws, hrun, hlog, hlights⟩ := hexit leddev pyNone
    exact ⟨s'.mem, ws, map_eq_ok.mpr ⟨_, hrun, rfl⟩, hlog, hlights⟩

/-- Whatever the system answers, a run of calls never faults, and the brightness files show the
set of LEDs that the calls switch. -/
theorem run_board (calls : List Call) (mem : Mem) (files : Contents) :
    ∃ mem' ws, Runs.after step mem calls = .ok mem' ∧ mem'.log = mem.log ++ ws ∧
      lights (files.after ws) = calls.foldl Call.after (lights files) := by
  induction calls generalizing mem files with
  | nil => exact ⟨mem, [], rfl, by simp, rfl⟩
  | cons c calls ih =>
    obtain ⟨mem1, ws1, hstep, hlog1, hlights1⟩ := step_board c mem files
    obtain ⟨mem2, ws2, hrun, hlog2, hlights2⟩ := ih mem1 (files.after ws1)
    refine ⟨mem2, ws1 ++ ws2, ?_, ?_, ?_⟩
    · rw [Runs.after, List.foldlM_cons, hstep]
      exact hrun
    · rw [hlog2, hlog1, List.append_assoc]
    · rw [after_append, hlights2, hlights1, List.foldl_cons]

/-! ## After the teardown -/

/-- The status that a call sets an LED to, if it gets through. -/
def Call.sets (led : Led) : Call → Option Bool
  | .ioctl args leddev =>
    (request args).bind fun r => if r.1 = led ∧ Serves leddev then some r.2 else none
  | _ => none

/-- The status that the last `ioctl` for an LED set, among those that got through. -/
def lastSet (led : Led) (calls : List Call) : Option Bool :=
  calls.foldl (fun last c => (c.sets led).or last) none

/-- `clear` and the teardown leave the LEDs 0 to 3 alone. -/
theorem not_mem_switchedOff {led : Led} (h : led.num < 4) (leddev : ℤ × String → FileOutcome) :
    led ∉ (switchedOff leddev).toFinset := by
  intro hmem
  have hcleared : led ∈ cleared := by
    rw [List.mem_toFinset, switchedOff] at hmem
    exact (List.takeWhile_prefix _).subset (List.mem_of_mem_filter hmem)
  have hnum : ∀ led ∈ cleared, ¬led.num < 4 := by decide
  exact hnum led hcleared h

/-- With files that serve, all of the LEDs 4 and 5 are switched off. -/
theorem mem_switchedOff {leddev : ℤ × String → FileOutcome}
    (hserves : ∀ led ∈ cleared, Serves (leddev led.key)) {led : Led} (h : ¬led.num < 4) :
    led ∈ (switchedOff leddev).toFinset := by
  have hcleared : ∀ led : Led, ¬led.num < 4 → led ∈ cleared := by decide
  have hall : (cleared.takeWhile fun led =>
      (leddev led.key).opens ∧ (leddev led.key).writes) = cleared := by
    rw [List.takeWhile_eq_self_iff]
    intro led hled
    have hserved := hserves led hled
    simp [hserved.1, hserved.2.1]
  rw [List.mem_toFinset, switchedOff, hall, List.mem_filter]
  exact ⟨hcleared led h, (hserves led (hcleared led h)).2.2⟩

/-- One call changes a low LED as it changes the status last set. -/
theorem mem_after_iff {led : Led} (hlow : led.num < 4) {lit : Finset Led} {last : Option Bool}
    (h : led ∈ lit ↔ last = some true) (c : Call) :
    led ∈ c.after lit ↔ (c.sets led).or last = some true := by
  cases c with
  | ioctl args leddev =>
    simp only [Call.after, Call.sets]
    cases hrequest : request args with
    | none => simpa using h
    | some request =>
      obtain ⟨other, on⟩ := request
      by_cases hserves : Serves leddev
      · by_cases hsame : other = led
        · cases on <;> simp [hserves, hsame]
        · have hne : led ≠ other := fun heq => hsame heq.symm
          cases on <;> simp [hserves, hsame, hne, h]
      · simpa [hserves] using h
  | clear leddev => simpa [Call.after, Call.sets, not_mem_switchedOff hlow] using h
  | ledExit leddev => simpa [Call.after, Call.sets, not_mem_switchedOff hlow] using h

/-- A low LED is lit precisely when the last `ioctl` for it that got through switched it on. -/
theorem mem_foldl_after_iff {led : Led} (hlow : led.num < 4) (calls : List Call) {lit : Finset Led}
    {last : Option Bool} (h : led ∈ lit ↔ last = some true) :
    led ∈ calls.foldl Call.after lit ↔
      calls.foldl (fun last c => (c.sets led).or last) last = some true := by
  induction calls generalizing lit last with
  | nil => exact h
  | cons c calls ih => exact ih (mem_after_iff hlow h c)

/-- Whatever the system answers, the brightness files show after any run from import the set of
LEDs that the calls switch. After a teardown whose files all serve, the LEDs that are still lit
are those of 0 to 3 that the last `ioctl` to get through to them switched on. -/
theorem lit_after_teardown (calls : List Call) {leddev : ℤ × String → FileOutcome}
    (hserves : ∀ led ∈ cleared, Serves (leddev led.key)) :
    ∃ mem mem', Runs.after step Mem.initial calls = .ok mem ∧
      lights (Contents.untouched.after mem.log) = calls.foldl Call.after ∅ ∧
      step mem (.ledExit leddev) = .ok mem' ∧
      ∀ led, led ∈ lights (Contents.untouched.after mem'.log) ↔
        led.num < 4 ∧ lastSet led calls = some true := by
  have hdark : lights Contents.untouched = ∅ := by
    ext led
    simp [mem_lights, Contents.untouched]
  obtain ⟨mem, ws, hrun, hlog, hlights⟩ := run_board calls Mem.initial Contents.untouched
  obtain ⟨mem', ws', hexit, hlog', hlights'⟩ :=
    step_board (.ledExit leddev) mem (Contents.untouched.after ws)
  have hws : mem.log = ws := hlog.trans (List.nil_append ws)
  rw [hdark] at hlights
  refine ⟨mem, mem', hrun, by rw [hws, hlights], hexit, fun led => ?_⟩
  rw [hlog', hws, after_append, hlights', hlights, Call.after, Finset.mem_sdiff]
  by_cases hlow : led.num < 4
  · have hnone : led ∈ (∅ : Finset Led) ↔ none = some true := by simp
    rw [mem_foldl_after_iff hlow calls hnone]
    simp only [not_mem_switchedOff hlow, not_false_eq_true, and_true, hlow, true_and]
    exact Iff.rfl
  · simp [mem_switchedOff hserves hlow, hlow]

/-- `ioctl(0, RED, HIGH)` and `ioctl(4, RED, HIGH)` with files that serve. -/
def lowAndHigh : List Call :=
  [.ioctl [.atom (.int 0), .atom (.int 0), .atom (.int 1)] .works,
    .ioctl [.atom (.int 4), .atom (.int 0), .atom (.int 1)] .works]

/-- Files that all work. -/
def allWork : ℤ × String → FileOutcome := fun _ => .works

/-- Of an LED 0 and an LED 4 that were switched on, the teardown leaves the LED 0 on. -/
theorem lit_after_teardown_lowAndHigh :
    ∃ mem mem', Runs.after step Mem.initial lowAndHigh = .ok mem ∧
      step mem (.ledExit allWork) = .ok mem' ∧
      ⟨0, .red⟩ ∈ lights (Contents.untouched.after mem'.log) ∧
      ⟨4, .red⟩ ∈ lights (Contents.untouched.after mem.log) ∧
      ⟨4, .red⟩ ∉ lights (Contents.untouched.after mem'.log) := by
  have hserves : ∀ led ∈ cleared, Serves (allWork led.key) := fun _ _ => ⟨rfl, rfl, rfl⟩
  obtain ⟨mem, mem', hrun, hlights, hexit, hlit⟩ := lit_after_teardown lowAndHigh hserves
  refine ⟨mem, mem', hrun, hexit, (hlit _).mpr (by decide), ?_, fun h => ?_⟩
  · rw [hlights]
    decide
  · exact absurd ((hlit _).mp h) (by decide)

end PyModules.IxoraLed
