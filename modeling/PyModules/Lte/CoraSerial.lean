import PyModules.Runtime
import PyModules.Library.Heap

/-!
# The serial layer of the LTE module

`CoraSerial.c`: allocation, connection, and release of a `module_t`, and the two
transfer functions. The line itself is any state with the three system calls of
`Tty`; what the modem does is whatever that state answers.
-/

namespace PyModules.Lte

/-- The serial line behind an open descriptor. -/
class Tty (π : Type) where
  /-- `write(fd, req, n)`: the number of bytes accepted, or -1. -/
  write : List UInt8 → π → ℤ × π
  /-- The last answer of `select` once interrupted calls were repeated: -1 for an
  error, 0 for a timeout, and positive when bytes can be read. -/
  select : π → ℤ × π
  /-- `read(fd, rsp, n)`: the bytes stored, or `none` for -1. -/
  read : ℕ → π → Option (List UInt8) × π
  /-- `read` stores at most as many bytes as it was asked for. -/
  read_length : ∀ n t b, (read n t).1 = some b → b.length ≤ n

/-- `cora_serial_t`: the line parameters of a module. -/
structure CoraSerial where
  device : List UInt8
  baud : ℤ
  parity : UInt8
  dataBit : UInt8
  stopBit : UInt8
  deriving DecidableEq, Repr

/-- `module_t`: the descriptor, -1 being `none`, and the backend data once set. -/
structure Module where
  s : Option ℕ
  backendData : Option CoraSerial
  deriving DecidableEq, Repr

/-- Memory of the LTE extension: its static context pointer, the modules it
allocated, the descriptors it opened, the line, and the shell commands it ran. -/
structure Mem (π : Type) where
  ctx : Option ℕ
  modules : Heap Module
  fds : Heap Unit
  tty : π
  shell : List String

/-- Memory at import: the static pointer is NULL. -/
def Mem.initial {π : Type} (tty : π) : Mem π := ⟨none, Heap.empty, Heap.empty, tty, []⟩

/-- Store into the static context pointer. -/
def Mem.withCtx {π : Type} (mem : Mem π) (ctx : Option ℕ) : Mem π := { mem with ctx := ctx }

/-- `ctx->marks`, the USB identifier of the modem. -/
def marks : ℕ := 315692481

variable {π : Type}

/-- Read `*ctx`. -/
def deref (ctx : ℕ) : CM (Mem π) Module := do
  match (← getMem).modules.cell ctx with
  | some m => return m
  | none => fault .useAfterFree

/-- Change `*ctx`. -/
def assign (ctx : ℕ) (f : Module → Module) : CM (Mem π) Unit := do
  let _ ← deref ctx
  modifyMem fun mem => { mem with modules := mem.modules.modify ctx f }

/-- `malloc(sizeof(module_t))` and `_module_init_common`. -/
def moduleAlloc : CM (Mem π) ℕ := do
  let ctx := (← getMem).modules.next
  modifyMem fun mem => { mem with modules := mem.modules.alloc ⟨none, none⟩ }
  return ctx

/-- `open(uart->device, flags)` when it succeeds. -/
def openFd : CM (Mem π) ℕ := do
  let fd := (← getMem).fds.next
  modifyMem fun mem => { mem with fds := mem.fds.alloc () }
  return fd

/-- `close(ctx->s)` -/
def closeFd (fd : ℕ) : CM (Mem π) Unit :=
  modifyMem fun mem => { mem with fds := mem.fds.free fd }

/-- `_uarts_free` -/
def uartsFree (ctx : ℕ) : CM (Mem π) Unit := do
  let _ ← deref ctx
  modifyMem fun mem => { mem with modules := mem.modules.free ctx }

/-- `_uarts_close` -/
def uartsClose (ctx : ℕ) : CM (Mem π) Unit := do
  match (← deref ctx).s with
  | some fd =>
    closeFd fd
    assign ctx fun m => { m with s := none }
  | none => return ()

/-- How the system calls of `_uarts_connect` turn out. -/
structure ConnectEnv where
  /-- `open` returns a descriptor. -/
  opens : Bool
  /-- `cfsetispeed` and `cfsetospeed` accept the speed. -/
  setsSpeed : Bool
  /-- `tcsetattr` succeeds. -/
  setsAttr : Bool
  deriving DecidableEq, Repr

/-- `_uarts_connect` -/
def uartsConnect (ctx : ℕ) (env : ConnectEnv) : CM (Mem π) ℤ := do
  if !env.opens then
    assign ctx fun m => { m with s := none }
    return -1
  let fd ← openFd
  assign ctx fun m => { m with s := some fd }
  if !env.setsSpeed then
    closeFd fd
    assign ctx fun m => { m with s := none }
    return -1
  if !env.setsAttr then
    closeFd fd
    assign ctx fun m => { m with s := none }
    return -1
  return 0

/-- `module_free` -/
def moduleFree : Option ℕ → CM (Mem π) Unit
  | none => return ()
  | some ctx => uartsFree ctx

/-- `module_close` -/
def moduleClose : Option ℕ → CM (Mem π) Unit
  | none => return ()
  | some ctx => uartsClose ctx

/-- `module_new`, where `lsusb` is the number that `strtoul` reads from what the USB listing
prints, or `none` where `popen` fails: its NULL goes to `fgets` unchecked. -/
def moduleNew (device : List UInt8) (baud : ℤ) (parity : UInt8) (dataBit stopBit : ℤ)
    (lsusb : Option ℕ) : CM (Mem π) (Option ℕ) := do
  if device = [] then return none
  if baud = 0 then return none
  match lsusb with
  | none => fault .nullPointer
  | some number =>
    let ctx ← moduleAlloc
    if number ≠ marks then return none
    assign ctx fun m => { m with backendData := some ⟨device, baud, 0, 0, 0⟩ }
    if parity = 78 ∨ parity = 69 ∨ parity = 79 then
      let serial : CoraSerial :=
        ⟨device, baud, parity, UInt8.ofInt dataBit, UInt8.ofInt stopBit⟩
      assign ctx fun m => { m with backendData := some serial }
      return some ctx
    else
      moduleFree (some ctx)
      return none

/-- `module_connect` -/
def moduleConnect (ctx : Option ℕ) (env : ConnectEnv) : CM (Mem π) ℤ :=
  match ctx with
  | none => return -1
  | some ctx => uartsConnect ctx env

/-- `ctx->s` for `FD_SET`; -1 indexes outside the `fd_set`. -/
def descriptor (ctx : ℕ) : CM (Mem π) ℕ := do
  match (← deref ctx).s with
  | some fd => return fd
  | none => fault .outOfBounds

/-- A system call on the line. -/
def ttyCall {α : Type} (f : π → α × π) : CM (Mem π) α := do
  let r := f (← getMem).tty
  modifyMem fun mem => { mem with tty := r.2 }
  return r.1

variable [Tty π]

/-- `_uarts_select` -/
def uartsSelect : CM (Mem π) ℤ := do
  let rc ← ttyCall Tty.select
  return if rc = 0 then -1 else rc

/-- `module_recv(ctx, rsp, sizeof(rsp))`: the result and the buffer afterwards. -/
def moduleRecv (ctx : Option ℕ) (rsp : List UInt8) : CM (Mem π) (ℤ × List UInt8) :=
  match ctx with
  | none => return (-1, rsp)
  | some ctx => do
    let _ ← descriptor ctx
    let rc ← uartsSelect
    if rc = -1 then return (-1, rsp)
    match ← ttyCall (Tty.read rsp.length) with
    | none => return (-1, rsp)
    | some b => return (b.length, b ++ rsp.drop b.length)

/-- `module_send(ctx, req, strlen(req))`; `write` refuses the descriptor -1. -/
def moduleSend (ctx : Option ℕ) (req : List UInt8) : CM (Mem π) ℤ :=
  match ctx with
  | none => return -1
  | some ctx => do
    match (← deref ctx).s with
    | some _ => ttyCall (Tty.write req)
    | none => return -1

/-! ## What each operation does to a process -/

omit [Tty π]

@[simp] theorem run_deref (ctx : ℕ) (s : Proc (Mem π)) :
    (deref ctx).run s = match s.mem.modules.cell ctx with
      | some m => .ok (m, s)
      | none => .error .useAfterFree := by
  simp only [deref, StateT.run_bind, run_getMem, ok_bind]
  cases s.mem.modules.cell ctx <;> rfl

@[simp] theorem run_assign (ctx : ℕ) (f : Module → Module) (s : Proc (Mem π)) :
    (assign ctx f).run s = match s.mem.modules.cell ctx with
      | some _ =>
        .ok ((), { s with mem := { s.mem with modules := s.mem.modules.modify ctx f } })
      | none => .error .useAfterFree := by
  cases hm : s.mem.modules.cell ctx <;> simp [assign, hm]

@[simp] theorem run_ttyCall {α : Type} (f : π → α × π) (s : Proc (Mem π)) :
    (ttyCall f).run s =
      .ok ((f s.mem.tty).1, { s with mem := { s.mem with tty := (f s.mem.tty).2 } }) := rfl

@[simp] theorem run_descriptor (ctx : ℕ) (s : Proc (Mem π)) :
    (descriptor ctx).run s = match s.mem.modules.cell ctx with
      | some m => match m.s with
        | some fd => .ok (fd, s)
        | none => .error .outOfBounds
      | none => .error .useAfterFree := by
  simp only [descriptor, StateT.run_bind, run_deref]
  cases s.mem.modules.cell ctx with
  | none => rfl
  | some m =>
    obtain ⟨_ | fd, _⟩ := m <;> rfl

@[simp] theorem run_moduleAlloc (s : Proc (Mem π)) :
    (moduleAlloc : CM (Mem π) ℕ).run s = .ok (s.mem.modules.next,
      { s with mem := { s.mem with modules := s.mem.modules.alloc ⟨none, none⟩ } }) := rfl

@[simp] theorem run_openFd (s : Proc (Mem π)) :
    (openFd : CM (Mem π) ℕ).run s =
      .ok (s.mem.fds.next, { s with mem := { s.mem with fds := s.mem.fds.alloc () } }) := rfl

@[simp] theorem run_closeFd (fd : ℕ) (s : Proc (Mem π)) :
    (closeFd fd).run s = .ok ((), { s with mem := { s.mem with fds := s.mem.fds.free fd } }) := rfl

end PyModules.Lte
