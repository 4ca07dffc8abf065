import PyModules.Lte.CoraSerial
import PyModules.Lte.Kmp

/-!
# The LTE extension module

The functions of `me909s.c` that Python can call. Each sends one command line over
the serial layer; some read replies, each into a zeroed buffer of 256 bytes, and
search them for a token.
-/

namespace PyModules.Lte

variable {π : Type} [Tty π]

/-- `uint8_t buffer[MAX_RECV_BUF_SIZE] = {'\0'};` -/
def zeroBuffer : List UInt8 := List.replicate maxRecvBufSize 0

/-- `module_send(ctx, req, strlen(req))` on the static context. -/
def ctxSend (req : List UInt8) : CM (Mem π) ℤ := do
  moduleSend (← getMem).ctx req

/-- `module_recv(ctx, buffer, MAX_RECV_BUF_SIZE)` on the static context and a zeroed
buffer: the result and the buffer afterwards. -/
def ctxRecv : CM (Mem π) (ℤ × List UInt8) := do
  moduleRecv (← getMem).ctx zeroBuffer

/-- A call of `KMP_Match`. -/
def search {σ : Type} (src des : List UInt8) (len : ℤ) : CM σ ℤ :=
  match kmpMatch src des len with
  | some p => return p
  | none => fault .outOfBounds

/-- `len <= 0 || -1 == KMP_Match(buffer, "OK", len)` -/
def lacksOk {σ : Type} (buffer : List UInt8) (len : ℤ) : CM σ Bool := do
  if len ≤ 0 then return true
  return (← search buffer (lit "OK") len) == -1

/-- `sprintf(cmd, ...)` into `char cmd[32]`: the text and its NUL must fit. -/
def sprintf32 {σ : Type} (text : List UInt8) : CM σ (List UInt8) :=
  if text.length + 1 ≤ 32 then return text else fault .outOfBounds

/-- A continuation byte of UTF-8. -/
def isCont (b : UInt8) : Bool := 0x80 ≤ b && b ≤ 0xBF

/-- Well-formed UTF-8, as the `utf-8` codec decodes it. -/
def utf8Valid : List UInt8 → Bool
  | [] => true
  | [a] => a < 0x80
  | a :: b :: [] => (a < 0x80 && b < 0x80) || (0xC2 ≤ a && a ≤ 0xDF && isCont b)
  | a :: b :: c :: rest =>
    if a < 0x80 then utf8Valid (b :: c :: rest)
    else if a ≤ 0xDF then 0xC2 ≤ a && isCont b && utf8Valid (c :: rest)
    else if a ≤ 0xEF then
      (if a = 0xE0 then 0xA0 ≤ b && b ≤ 0xBF else if a = 0xED then 0x80 ≤ b && b ≤ 0x9F
        else isCont b) && isCont c && utf8Valid rest
    else match rest with
      | [] => false
      | d :: rest =>
        (if a = 0xF0 then 0x90 ≤ b && b ≤ 0xBF else if a = 0xF4 then 0x80 ≤ b && b ≤ 0x8F
          else a ≤ 0xF4 && isCont b) && isCont c && isCont d && utf8Valid rest

/-- The C string at the start of a buffer, if the buffer holds its NUL. -/
def cString (buffer : List UInt8) : Option (List UInt8) :=
  if 0 ∈ buffer then some (buffer.takeWhile (· ≠ 0)) else none

/-- `Py_BuildValue("s", ...)` on bytes without NUL. -/
def buildStr {σ : Type} (bytes : List UInt8) : CM σ PyRef := do
  if utf8Valid bytes then return some (.atom (.str (some bytes)))
  pyErrSet (.unicodeDecode bytes) "invalid utf-8"
  return NULL

/-- `Py_BuildValue("s", buffer)` -/
def buildValueS {σ : Type} (buffer : List UInt8) : CM σ PyRef :=
  match cString buffer with
  | some bytes => buildStr bytes
  | none => fault .outOfBounds

/-- The arguments of `new_lte`. -/
def parseNewLte (args : List PyObject) : Option SerialArgs := parseSerial 3000000 args

/-- What the machine answers during `new_lte`. -/
structure NewLteEnv where
  /-- The number that the USB listing yields, unless `popen` fails. -/
  lsusb : Option ℕ
  /-- The system calls of `_uarts_connect`. -/
  connect : ConnectEnv
  deriving DecidableEq, Repr

/-- `new_lte` -/
def newLte (args : List PyObject) (env : NewLteEnv) : CM (Mem π) PyRef := do
  match parseNewLte args with
  | none => raise "Invalid input parameter."
  | some a =>
    let ctx ← moduleNew a.device a.baud a.parity a.dataBit a.stopBit env.lsusb
    modifyMem fun mem => mem.withCtx ctx
    if ctx.isNone then raise "Illegal function [module_new]"
    else
      let rc ← moduleConnect ctx env.connect
      if rc = -1 then
        moduleFree ctx
        raise "Illegal function [module_connect]"
      else return pyTrue

/-- The commands of `init`, each a `uint8_t[16]`. -/
def initCmds : List (List UInt8) :=
  ["AT\r\n", "ATE0\r\n", "AT^CURC=0\r\n", "AT^STSF=0\r\n", "ATS0=0\r\n", "AT+CGREG=2\r\n",
    "AT+CMEE=2\r\n"].map fun cmd => lit cmd ++ List.replicate (16 - (lit cmd).length) 0

/-- The loop of `init` over the commands still to send. -/
def initFrom : List (List UInt8) → CM (Mem π) PyRef
  | [] => return pyTrue
  | cmd :: cmds => do
    let ret ← ctxSend cmd
    if ret ≠ cmd.length then raise "Communication faild."
    else
      let (len, buffer) ← ctxRecv
      if ← lacksOk buffer len then return pyFalse
      else initFrom cmds

/-- `init` -/
def init : CM (Mem π) PyRef := initFrom initCmds

/-- `cmd_lte` -/
def cmdLte (args : List PyObject) : CM (Mem π) PyRef := do
  match parseOne convertStr args with
  | none => raise "Invalid input parameter."
  | some cmd =>
    let ret ← ctxSend cmd
    if ret ≠ cmd.length then raise "Communication faild."
    else
      let (len, buffer) ← ctxRecv
      if ← lacksOk buffer len then buildStr (lit "ERROR")
      else buildValueS buffer

/-- The command text that `led` formats. -/
def ledText (status : ℤ) : List UInt8 :=
  lit "AT^LEDCTRL=" ++ lit (toString status) ++ lit "\r\n"

/-- `led` -/
def led (args : List PyObject) : CM (Mem π) PyRef := do
  match parseOne convertInt args with
  | none => raise "Invalid input parameter."
  | some status =>
    if status ≤ -1 ∨ status ≥ 2 then raise "Invalid status."
    else
      let cmd ← sprintf32 (ledText status)
      let ret ← ctxSend cmd
      if ret ≠ cmd.length then return pyFalse
      else
        let (len, buffer) ← ctxRecv
        if ← lacksOk buffer len then return pyFalse
        else return pyTrue

/-- The token that `status` looks for. -/
def statusToken : List UInt8 := lit "^NDISSTATQRY: "

/-- The loop of `status`, `todo` iterations. -/
def statusFrom : ℕ → CM (Mem π) PyRef
  | 0 => buildStr (lit "ERROR")
  | todo + 1 => do
    let (len, buffer) ← ctxRecv
    let pos ← search buffer statusToken len
    if 0 < len ∧ pos ≠ -1 then
      match buffer[pos.toNat + statusToken.length]? with
      | none => fault .outOfBounds
      | some c =>
        if c = 48 then buildStr (lit "offline")
        else if c = 49 then buildStr (lit "online")
        else statusFrom todo
    else statusFrom todo

/-- `status` -/
def status : CM (Mem π) PyRef := do
  let cmd := lit "AT^NDISSTATQRY?\r\n"
  let ret ← ctxSend cmd
  if ret ≠ cmd.length then return pyFalse
  else statusFrom 3

/-- The loop that `online` and `offline` share: wait for a block that contains the
token, then do what follows it; `todo` iterations. -/
def pollFrom (token : List UInt8) (found : CM (Mem π) PyRef) : ℕ → CM (Mem π) PyRef
  | 0 => return pyFalse
  | todo + 1 => do
    let (len, buffer) ← ctxRecv
    if 0 < len then
      let pos ← search buffer token len
      if pos ≠ -1 then found
      else pollFrom token found todo
    else pollFrom token found todo

/-- `system(command)` -/
def system (command : String) : CM (Mem π) Unit :=
  modifyMem fun mem => { mem with shell := mem.shell ++ [command] }

/-- The token that `online` waits for. -/
def onlineToken : List UInt8 := lit "^NDISSTAT: 1"

/-- The token that `offline` waits for. -/
def offlineToken : List UInt8 := lit "^NDISSTAT: 0"

/-- `online` -/
def online : CM (Mem π) PyRef := do
  let cmd := lit "AT^NDISDUP=1,1\r\n"
  let ret ← ctxSend cmd
  if ret ≠ cmd.length then return pyFalse
  else pollFrom onlineToken (do system "udhcpc -n -i usb0"; return pyTrue) 3

/-- `offline` -/
def offline : CM (Mem π) PyRef := do
  let cmd := lit "AT^NDISDUP=1,0\r\n"
  let ret ← ctxSend cmd
  if ret ≠ cmd.length then return pyFalse
  else pollFrom offlineToken (return pyTrue) 3

/-- Send a command and read no reply, as `restart`, `call`, and `hangup` do. -/
def sendOnly (cmd : List UInt8) : CM (Mem π) PyRef := do
  let ret ← ctxSend cmd
  if ret ≠ cmd.length then return pyFalse else return pyTrue

/-- `restart` -/
def restart : CM (Mem π) PyRef := sendOnly (lit "AT^RESET\r\n")

/-- The command text that `call` formats. -/
def callText (num : List UInt8) : List UInt8 := lit "ATD" ++ num ++ lit ";\r\n"

/-- `call` -/
def call (args : List PyObject) : CM (Mem π) PyRef := do
  match parseOne convertStr args with
  | none => raise "Invalid input parameter."
  | some num =>
    let cmd ← sprintf32 (callText num)
    sendOnly cmd

/-- `hangup` -/
def hangup : CM (Mem π) PyRef := sendOnly (lit "AT+CHUP\r\n")

/-- `module_close(ctx); module_free(ctx);`, the body of `free_lte`. -/
def freeLte : CM (Mem π) Unit := do
  let ctx := (← getMem).ctx
  moduleClose ctx
  moduleFree ctx

/-- `del_lte` -/
def delLte : CM (Mem π) PyRef := do
  freeLte
  return pyNone

end PyModules.Lte
