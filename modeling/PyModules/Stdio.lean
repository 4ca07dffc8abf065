import PyModules.Runtime
import PyModules.Library.Decimal
import PyModules.Library.Heap

/-!
# Streams over device attributes

Two of the modules set hardware by writing short strings to attribute files. A write to
an open stream only fills its buffer; the data reaches the file, and the driver takes or
refuses it, when the stream is closed. What the system answers is an argument.
-/

namespace PyModules

/-- What the system answers one use of a file. -/
structure FileOutcome where
  /-- `fopen` returns a stream. -/
  opens : Bool
  /-- `fwrite` buffers the data and returns 1. -/
  writes : Bool
  /-- The file accepts the data when the buffer is flushed. -/
  accepts : Bool
  /-- `strerror(errno)` after a failure. -/
  strerror : String
  deriving DecidableEq, Repr

/-- A file that opens, buffers its data, and accepts it. -/
def FileOutcome.works : FileOutcome := ⟨true, true, true, ""⟩

/-- An open stream: its file, and the bytes in its buffer. -/
structure Stream where
  path : String
  pending : List UInt8
  deriving DecidableEq, Repr

/-- Data that was flushed to a file, and whether the file accepted it. -/
structure Write where
  path : String
  data : List UInt8
  accepted : Bool
  deriving DecidableEq, Repr

/-- Memory of a module with static variables `σ`: its open streams and directories, and
what was flushed so far. -/
structure Host (σ : Type) where
  vars : σ
  files : Heap Stream
  dirs : Heap String
  log : List Write

/-- `FILE_WRITE_NMEMB` -/
def FILE_WRITE_NMEMB : ℤ := 1

/-- The bytes of a string literal with its terminating NUL, `sizeof` of them. -/
def cstr (s : String) : List UInt8 := lit s ++ [0]

/-- `sprintf(values, "%ld", v)`, of which `strlen(values)` bytes are used. -/
def decimal (v : ℤ) : List UInt8 := lit (toString v)

variable {σ : Type}

/-- What closing a stream flushes. -/
def Stream.flush (f : Stream) (accepts : Bool) : List Write :=
  if f.pending = [] then [] else [⟨f.path, f.pending, accepts⟩]

/-- Whether a file can be opened; there is none with an empty name. -/
def FileOutcome.Opens (o : FileOutcome) (path : String) : Prop := path ≠ "" ∧ o.opens

instance (o : FileOutcome) (path : String) : Decidable (o.Opens path) :=
  inferInstanceAs (Decidable (_ ∧ _))

/-- `fopen(path, "w")` -/
def fopen (path : String) (o : FileOutcome) : CM (Host σ) (Option ℕ) := do
  if o.Opens path then
    let file := (← getMem).files.next
    modifyMem fun mem => { mem with files := mem.files.alloc ⟨path, []⟩ }
    return some file
  else return none

/-- `fwrite(data, sizeof data, FILE_WRITE_NMEMB, file)` -/
def fwrite (data : List UInt8) (file : Option ℕ) (o : FileOutcome) : CM (Host σ) ℤ := do
  match file with
  | none => fault .nullPointer
  | some p =>
    match (← getMem).files.cell p with
    | none => fault .useAfterFree
    | some _ =>
      if o.writes then
        modifyMem fun mem =>
          { mem with
            files := mem.files.modify p fun f => { f with pending := f.pending ++ data } }
        return 1
      else return 0

/-- `fclose(file)`, whose result is the only sign of data that was refused. -/
def fclose (file : Option ℕ) (o : FileOutcome) : CM (Host σ) ℤ := do
  match file with
  | none => fault .nullPointer
  | some p =>
    match (← getMem).files.cell p with
    | none => fault .useAfterFree
    | some f =>
      modifyMem fun mem =>
        { mem with files := mem.files.free p, log := mem.log ++ f.flush o.accepts }
      return if f.pending = [] ∨ o.accepts then 0 else -1

/-- `opendir(path)` -/
def opendir (path : String) (found : Bool) : CM (Host σ) (Option ℕ) := do
  if found then
    let dir := (← getMem).dirs.next
    modifyMem fun mem => { mem with dirs := mem.dirs.alloc path }
    return some dir
  else return none

/-- `PyErr_Format(<module error>, "Open file faild [%s]", strerror(errno));` -/
def openFailed (o : FileOutcome) : PyErr := ⟨.module, "Open file faild [" ++ o.strerror ++ "]"⟩

/-- `PyErr_Format(<module error>, "Write file faild [%s]", strerror(errno));` -/
def writeFailed (o : FileOutcome) : PyErr := ⟨.module, "Write file faild [" ++ o.strerror ++ "]"⟩

/-- `PyErr_Format` with one of the two messages. -/
def pyErrFormat (e : PyErr) : CM (Host σ) Unit := pyErrSet e.exc e.msg

/-- Write one string to a stream, check the count, and close the stream; false where the
function that does this goes on to return NULL. -/
def writeAndClose (data : List UInt8) (file : Option ℕ) (o : FileOutcome) :
    CM (Host σ) Bool := do
  let ret ← fwrite data file o
  if ret < FILE_WRITE_NMEMB then
    pyErrFormat (writeFailed o)
    let _ ← fclose file o
    return false
  else
    let _ ← fclose file o
    return true

/-- Open a file and write one string, without a look at what `fopen` returned. -/
def writeUnchecked (path : String) (data : List UInt8) (o : FileOutcome) : CM (Host σ) Bool := do
  let file ← fopen path o
  writeAndClose data file o

/-- Open a file, check that it is open, and write one string. -/
def writeChecked (path : String) (data : List UInt8) (o : FileOutcome) : CM (Host σ) Bool := do
  let file ← fopen path o
  if file.isNone then
    pyErrFormat (openFailed o)
    return false
  else writeAndClose data file o

/-! ## What a use of a file does to a process -/

@[simp] theorem run_pyErrFormat (e : PyErr) (s : Proc (Host σ)) :
    (pyErrFormat e).run s = .ok ((), ⟨some e, s.mem⟩) := rfl

@[simp] theorem flush_nil (path : String) (accepts : Bool) :
    Stream.flush ⟨path, []⟩ accepts = [] := rfl

@[simp] theorem flush_of_ne {path : String} {data : List UInt8} (h : data ≠ []) (accepts : Bool) :
    Stream.flush ⟨path, data⟩ accepts = [⟨path, data, accepts⟩] := by
  simp [Stream.flush, h]

@[simp] theorem decimal_ne_nil (v : ℤ) : decimal v ≠ [] := by
  simpa [decimal, lit] using Decimal.toString_ne_nil v

@[simp] theorem cstr_ne_nil (s : String) : cstr s ≠ [] := by
  simp [cstr]

/-- The host after `data` was written to the stream of an opened file and flushed. -/
def Host.wrote (mem : Host σ) (path : String) (data : List UInt8) (o : FileOutcome) : Host σ :=
  { mem with
    files := mem.files.skip
    log := mem.log ++ Stream.flush ⟨path, if o.writes then data else []⟩ o.accepts }

@[simp] theorem wrote_vars (mem : Host σ) (path : String) (data : List UInt8) (o : FileOutcome) :
    (mem.wrote path data o).vars = mem.vars := rfl

@[simp] theorem wrote_log (mem : Host σ) (path : String) (data : List UInt8) (o : FileOutcome) :
    (mem.wrote path data o).log =
      mem.log ++ Stream.flush ⟨path, if o.writes then data else []⟩ o.accepts := rfl

/-- Opening a file adds a stream with an empty buffer. -/
theorem run_fopen (path : String) (o : FileOutcome) (s : Proc (Host σ)) :
    (fopen path o).run s =
      if o.Opens path then
        .ok (some s.mem.files.next,
          ⟨s.err, { s.mem with files := s.mem.files.alloc ⟨path, []⟩ }⟩)
      else .ok (none, s) := by
  unfold fopen
  split <;> rfl

/-- Writing to a stream that was just opened. -/
theorem run_writeAndClose (path : String) (data : List UInt8) (o : FileOutcome)
    (s : Proc (Host σ)) :
    (writeAndClose data (some s.mem.files.next) o).run
        ⟨s.err, { s.mem with files := s.mem.files.alloc ⟨path, []⟩ }⟩ =
      .ok (o.writes, ⟨if o.writes then s.err else some (writeFailed o),
        s.mem.wrote path data o⟩) := by
  cases hwrites : o.writes <;>
    simp [writeAndClose, fwrite, fclose, hwrites, FILE_WRITE_NMEMB, Host.wrote]

/-- An unchecked use of a file hands NULL to `fwrite` unless the file opens. -/
theorem run_writeUnchecked (path : String) (data : List UInt8) (o : FileOutcome)
    (s : Proc (Host σ)) :
    (writeUnchecked path data o).run s =
      if o.Opens path then
        .ok (o.writes, ⟨if o.writes then s.err else some (writeFailed o),
          s.mem.wrote path data o⟩)
      else .error .nullPointer := by
  rw [writeUnchecked, StateT.run_bind, run_fopen]
  split
  · exact run_writeAndClose path data o s
  · rfl

/-- A checked use of a file reports that it does not open. -/
theorem run_writeChecked (path : String) (data : List UInt8) (o : FileOutcome)
    (s : Proc (Host σ)) :
    (writeChecked path data o).run s =
      if o.Opens path then
        .ok (o.writes, ⟨if o.writes then s.err else some (writeFailed o),
          s.mem.wrote path data o⟩)
      else .ok (false, ⟨some (openFailed o), s.mem⟩) := by
  rw [writeChecked, StateT.run_bind, run_fopen]
  split
  · exact run_writeAndClose path data o s
  · rfl

/-- Both calls on the file succeed. -/
def FileOutcome.Delivers (o : FileOutcome) (path : String) : Prop := o.Opens path ∧ o.writes

instance (o : FileOutcome) (path : String) : Decidable (o.Delivers path) :=
  inferInstanceAs (Decidable (_ ∧ _))

/-- A checked use of a file that delivers its data. -/
theorem run_writeChecked_of_delivers {path : String} {o : FileOutcome} (h : o.Delivers path)
    (data : List UInt8) (s : Proc (Host σ)) :
    (writeChecked path data o).run s = .ok (true, ⟨s.err, s.mem.wrote path data o⟩) := by
  rw [run_writeChecked, if_pos h.1, if_pos h.2, h.2]

/-- A checked use of a file that does not raises, and leaves no stream open. -/
theorem run_writeChecked_of_fails {path : String} {o : FileOutcome} (h : ¬o.Delivers path)
    (data : List UInt8) (s : Proc (Host σ)) :
    ∃ e files, (writeChecked path data o).run s =
        .ok (false, ⟨some e, { s.mem with files := files }⟩) ∧
      e.exc = .module ∧ files.live = s.mem.files.live := by
  rw [run_writeChecked]
  by_cases hopens : o.Opens path
  · have hwrites : o.writes = false := by simpa [FileOutcome.Delivers, hopens] using h
    refine ⟨writeFailed o, s.mem.files.skip, ?_, rfl, rfl⟩
    simp [hopens, hwrites, Host.wrote]
  · exact ⟨openFailed o, s.mem.files, by rw [if_neg hopens], rfl, rfl⟩

end PyModules
