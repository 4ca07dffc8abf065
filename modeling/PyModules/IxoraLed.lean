import PyModules.Stdio

/-!
# The LED extension module

The functions of `imx6_ixora_led.c`. `ioctl` switches one LED; `clear` and the teardown of
the module switch all of them off through `led_exit`, which returns nothing.
-/

namespace PyModules.IxoraLed

/-- Memory of the module, which has no static variables to keep. -/
abbrev Mem := Host Unit

/-- Memory at import. -/
def Mem.initial : Mem := ⟨(), Heap.empty, Heap.empty, []⟩

/-- `IXORA_LED_UNDEF` -/
def IXORA_LED_UNDEF : ℤ := -1

/-- `IXORA_LED4` -/
def IXORA_LED4 : ℤ := 4

/-- `IXORA_LED_MAX` -/
def IXORA_LED_MAX : ℤ := 6

/-- `COLOR_UNDEF` -/
def COLOR_UNDEF : ℤ := -1

/-- `RED` -/
def RED : ℤ := 0

/-- `GREEN` -/
def GREEN : ℤ := 1

/-- `COLOR_MAX` -/
def COLOR_MAX : ℤ := 2

/-- `LOW` -/
def LOW : ℤ := 0

/-- `HIGH` -/
def HIGH : ℤ := 1

/-- `sprintf(path, "/sys/class/leds/LED_%d_%s/brightness", num, colors)` -/
def ledPath (num : ℤ) (colors : String) : String :=
  "/sys/class/leds/LED_" ++ toString num ++ "_" ++ colors ++ "/brightness"

/-- The switch over the color. -/
def colorName (color : ℤ) : Option String :=
  if color = RED then some "RED" else if color = GREEN then some "GREEN" else none

/-- `PyArg_ParseTuple(args, "ii|i", &num, &color, &status)` -/
def parseIoctl (args : List PyObject) : Option (ℤ × ℤ × ℤ) := do
  if 3 < args.length then none
  let num ← required convertInt args 0
  let color ← required convertInt args 1
  let status ← optional convertInt 0 args 2
  return (num, color, status)

/-- `ioctl` -/
def ioctl (args : List PyObject) (leddev : FileOutcome) : CM Mem PyRef :=
  match parseIoctl args with
  | none => raise "Invalid input parameter."
  | some (num, color, status) =>
    if num ≤ IXORA_LED_UNDEF ∨ num ≥ IXORA_LED_MAX then raise "Invalid Port Number."
    else if color ≤ COLOR_UNDEF ∨ color ≥ COLOR_MAX then raise "Invalid color."
    else if status < LOW ∨ status > HIGH then raise "Invalid status."
    else
      match colorName color with
      | none => raise "Invalid color."
      | some colors => do
        let data := if status = HIGH then cstr "1" else cstr "0"
        if ← writeChecked (ledPath num colors) data leddev then return pyTrue
        else return NULL

/-- The LEDs in the order of the two loops of `led_exit`, the color innermost. -/
def leds : List (ℤ × String) :=
  [(IXORA_LED4, "RED"), (IXORA_LED4, "GREEN"), (IXORA_LED4 + 1, "RED"), (IXORA_LED4 + 1, "GREEN")]

/-- The loops of `led_exit`, which return at the first failure. -/
def switchOff (leddev : ℤ × String → FileOutcome) : List (ℤ × String) → CM Mem Unit
  | [] => return ()
  | led :: rest => do
    if ← writeChecked (ledPath led.1 led.2) (cstr "0") (leddev led) then switchOff leddev rest
    else return ()

/-- `led_exit` -/
def ledExit (leddev : ℤ × String → FileOutcome) : CM Mem Unit := switchOff leddev leds

/-- `clear` -/
def clear (leddev : ℤ × String → FileOutcome) : CM Mem PyRef := do
  ledExit leddev
  return pyTrue

/-! ## What the functions do to a process -/

/-- The name of the file of an LED is not empty. -/
theorem ledPath_ne (num : ℤ) (colors : String) : ledPath num colors ≠ "" := by
  unfold ledPath
  intro h
  have hlen := congrArg String.length h
  simp [String.length_append] at hlen

/-- A use of the file of an LED delivers its data if both calls succeed. -/
theorem delivers_ledPath {o : FileOutcome} {num : ℤ} {colors : String} :
    o.Delivers (ledPath num colors) ↔ o.opens ∧ o.writes := by
  simp [FileOutcome.Delivers, FileOutcome.Opens, ledPath_ne]

end PyModules.IxoraLed
