import PyModules.Lte.CoraSerial

/-!
# Settings of a line

The settings that `_uarts_connect` builds from the line parameters of a module, and those among
the arguments of `new_lte` that they meet.
-/

namespace PyModules.Lte

/-- Character sizes, the bits of `CSIZE`. -/
inductive CSize
  | cs5
  | cs6
  | cs7
  | cs8
  deriving DecidableEq, Repr

/-- `struct termios`: the speeds in bits per second, the flags that the module names, and all
others as one number. -/
structure Termios where
  ispeed : ℤ
  ospeed : ℤ
  cread : Bool
  clocal : Bool
  csize : CSize
  cstopb : Bool
  parenb : Bool
  parodd : Bool
  icanon : Bool
  echo : Bool
  echoe : Bool
  isig : Bool
  inpck : Bool
  ixon : Bool
  ixoff : Bool
  ixany : Bool
  opost : Bool
  vmin : ℕ
  vtime : ℕ
  others : ℕ
  deriving DecidableEq, Repr

/-- `memset(&tios, 0, sizeof(struct termios));` -/
def Termios.zero : Termios :=
  ⟨0, 0, false, false, .cs5, false, false, false, false, false, false, false, false, false, false,
    false, false, 0, 0, 0⟩

/-- The speeds that have a constant. -/
def speeds : List ℤ :=
  [110, 300, 600, 1200, 2400, 4800, 9600, 19200, 38400, 57600, 115200, 230400, 460800, 500000,
    576000, 921600, 1000000, 1152000, 1500000, 2500000, 3000000, 3500000, 4000000]

/-- `switch (uart->baud)`, which takes `B9600` for a speed it does not know. -/
def speedOf (baud : ℤ) : ℤ := if baud ∈ speeds then baud else 9600

/-- `switch (uart->data_bit)` -/
def csizeOf (dataBit : UInt8) : CSize :=
  match dataBit.toNat with
  | 5 => .cs5
  | 6 => .cs6
  | 7 => .cs7
  | _ => .cs8

/-- The settings that `_uarts_connect` builds for the line parameters. -/
def configure (uart : CoraSerial) : Termios :=
  let tios := { Termios.zero with ispeed := speedOf uart.baud, ospeed := speedOf uart.baud }
  let tios := { tios with cread := true, clocal := true }
  let tios := { tios with csize := csizeOf uart.dataBit }
  let tios := { tios with cstopb := if uart.stopBit = 1 then false else true }
  let tios :=
    if uart.parity = 78 then { tios with parenb := false }
    else if uart.parity = 69 then { tios with parenb := true, parodd := false }
    else { tios with parenb := true, parodd := true }
  let tios := { tios with icanon := false, echo := false, echoe := false, isig := false }
  let tios := { tios with inpck := if uart.parity = 78 then false else true }
  let tios := { tios with ixon := false, ixoff := false, ixany := false }
  let tios := { tios with opost := false }
  { tios with vmin := 0, vtime := 0 }

/-- The line parameters that `module_new` keeps of its arguments. -/
def uartOf (a : SerialArgs) : CoraSerial :=
  ⟨a.device, a.baud, a.parity, UInt8.ofInt a.dataBit, UInt8.ofInt a.stopBit⟩

/-! ## What was asked for -/

/-- The number of data bits. -/
def CSize.bits : CSize → ℤ
  | .cs5 => 5
  | .cs6 => 6
  | .cs7 => 7
  | .cs8 => 8

/-- The letter of the parity. -/
def Termios.parity (tios : Termios) : UInt8 :=
  if tios.parenb then if tios.parodd then 79 else 69 else 78

/-- The settings are those that the arguments of `new_lte` ask for, on a raw line. -/
structure Meets (tios : Termios) (a : SerialArgs) : Prop where
  ispeed : tios.ispeed = a.baud
  ospeed : tios.ospeed = a.baud
  parity : tios.parity = a.parity
  dataBit : tios.csize.bits = a.dataBit
  stopBit : (if tios.cstopb then 2 else 1) = a.stopBit
  receiver : tios.cread ∧ tios.clocal
  raw : ¬(tios.icanon ∨ tios.echo ∨ tios.echoe ∨ tios.isig ∨ tios.ixon ∨ tios.ixoff ∨
    tios.ixany ∨ tios.opost)

/-- The arguments name a speed that has a constant, and a framing that a line has. -/
structure Standard (a : SerialArgs) : Prop where
  baud : a.baud ∈ speeds
  dataBit : 5 ≤ a.dataBit ∧ a.dataBit ≤ 8
  stopBit : a.stopBit = 1 ∨ a.stopBit = 2

/-- What the arguments are taken for: another speed is 9600, and of the numbers of data bits and
stop bits only the low byte counts, where another size is 8 bits and other stop bits are two. -/
def taken (a : SerialArgs) : SerialArgs where
  device := a.device
  baud := speedOf a.baud
  parity := a.parity
  dataBit := if 5 ≤ a.dataBit % 256 ∧ a.dataBit % 256 ≤ 8 then a.dataBit % 256 else 8
  stopBit := if a.stopBit % 256 = 1 then 1 else 2

/-- The number that an `int` is truncated to. -/
theorem toNat_ofInt (v : ℤ) : ((UInt8.ofInt v).toNat : ℤ) = v % 256 := by
  have hlt : (v % 2 ^ 8).toNat < 256 := by omega
  rw [UInt8.ofInt, UInt8.toNat_ofNat', Nat.mod_eq_of_lt hlt]
  omega

/-- All fields of the settings that `_uarts_connect` builds. -/
theorem configure_eq (uart : CoraSerial) :
    configure uart =
      ⟨speedOf uart.baud, speedOf uart.baud, true, true, csizeOf uart.dataBit,
        if uart.stopBit = 1 then false else true, if uart.parity = 78 then false else true,
        if uart.parity = 78 ∨ uart.parity = 69 then false else true, false, false, false, false,
        if uart.parity = 78 then false else true, false, false, false, false, 0, 0, 0⟩ := by
  unfold configure
  by_cases hnone : uart.parity = 78
  · simp [hnone, Termios.zero]
  · by_cases heven : uart.parity = 69 <;> simp [hnone, heven, Termios.zero]

/-- The parity of the line is that of the module. -/
theorem parity_configure {uart : CoraSerial}
    (h : uart.parity = 78 ∨ uart.parity = 69 ∨ uart.parity = 79) :
    (configure uart).parity = uart.parity := by
  rw [configure_eq]
  rcases h with h | h | h <;> simp [Termios.parity, h]

/-- The data bits of the line, of a number that is cut to a byte. -/
theorem bits_csizeOf (v : ℤ) :
    (csizeOf (UInt8.ofInt v)).bits = if 5 ≤ v % 256 ∧ v % 256 ≤ 8 then v % 256 else 8 := by
  have hmod := toNat_ofInt v
  unfold csizeOf
  split
  · simp only [CSize.bits]
    omega
  · simp only [CSize.bits]
    omega
  · simp only [CSize.bits]
    omega
  · rename_i hfive hsix hseven
    have hother : ¬((UInt8.ofInt v).toNat = 5 ∨ (UInt8.ofInt v).toNat = 6 ∨
        (UInt8.ofInt v).toNat = 7) := by
      rintro (h | h | h)
      · exact hfive h
      · exact hsix h
      · exact hseven h
    simp only [CSize.bits]
    omega

/-- The stop bits of the line, of a number that is cut to a byte. -/
theorem cstopb_eq (v : ℤ) :
    (if (if UInt8.ofInt v = 1 then false else true) then 2 else 1) =
      if v % 256 = 1 then (1 : ℤ) else 2 := by
  have hmod := toNat_ofInt v
  by_cases hone : UInt8.ofInt v = 1
  · rw [hone] at hmod
    simp only [hone, if_true, Bool.false_eq_true, if_false, UInt8.toNat_one] at hmod ⊢
    omega
  · have hne : (UInt8.ofInt v).toNat ≠ 1 := fun h => hone (UInt8.toNat_inj.mp h)
    simp only [hone, if_false, if_true]
    omega

/-- The speed is the one asked for if it has a constant. -/
theorem speedOf_iff (baud : ℤ) : speedOf baud = baud ↔ baud ∈ speeds := by
  unfold speedOf
  split
  · rename_i hmem
    exact iff_of_true rfl hmem
  · rename_i hmem
    refine iff_of_false (fun h => hmem ?_) hmem
    rw [← h]
    decide

/-- The settings of a module are those that its arguments are taken for. -/
theorem meets_taken {a : SerialArgs}
    (hparity : a.parity = 78 ∨ a.parity = 69 ∨ a.parity = 79) :
    Meets (configure (uartOf a)) (taken a) := by
  have hparity' : (configure (uartOf a)).parity = (uartOf a).parity := parity_configure hparity
  rw [configure_eq] at hparity' ⊢
  exact ⟨rfl, rfl, hparity', bits_csizeOf a.dataBit, cstopb_eq a.stopBit, ⟨rfl, rfl⟩, by simp⟩

/-- Settings meet two requests together if these ask for the same line. -/
theorem Meets.iff_of_meets {tios : Termios} {a b : SerialArgs} (h : Meets tios b) :
    Meets tios a ↔
      b.baud = a.baud ∧ b.parity = a.parity ∧ b.dataBit = a.dataBit ∧ b.stopBit = a.stopBit := by
  constructor
  · intro ha
    exact ⟨h.ispeed.symm.trans ha.ispeed, h.parity.symm.trans ha.parity,
      h.dataBit.symm.trans ha.dataBit, h.stopBit.symm.trans ha.stopBit⟩
  · rintro ⟨hbaud, hparity, hdata, hstop⟩
    exact ⟨h.ispeed.trans hbaud, h.ospeed.trans hbaud, h.parity.trans hparity,
      h.dataBit.trans hdata, h.stopBit.trans hstop, h.receiver, h.raw⟩

/-- The settings of a module are those asked for precisely if they are standard. -/
theorem meets_configure_iff {a : SerialArgs}
    (hparity : a.parity = 78 ∨ a.parity = 69 ∨ a.parity = 79) :
    Meets (configure (uartOf a)) a ↔ Standard a := by
  rw [(meets_taken hparity).iff_of_meets]
  simp only [taken, speedOf_iff]
  constructor
  · rintro ⟨hbaud, _, hdata, hstop⟩
    exact ⟨hbaud, by omega, by omega⟩
  · rintro ⟨hbaud, hdata, hstop⟩
    exact ⟨hbaud, trivial, by omega, by omega⟩

end PyModules.Lte
