import Mathlib.Data.List.TakeWhile
import PyModules.Library.Hexadecimal
import PyModules.Lte.Lifecycle

/-!
# The number of the USB listing

`module_new` reads at most nine bytes of what a pipeline prints, and compares the number that
they spell with the marks of the modem. Whatever is printed, this file says on the bytes
whether it is the modem, and follows the comparison to the result of `new_lte`.
-/

namespace PyModules.Lte

open Hexadecimal

variable {π : Type}

/-! ## Reading the number -/

/-- The bytes that `fgets` stores, with room for `room` bytes in front of the NUL. -/
def fgets : ℕ → List UInt8 → List UInt8
  | 0, _ => []
  | _, [] => []
  | room + 1, c :: stream => if c = 10 then [c] else c :: fgets room stream

/-- `isspace` -/
def isSpace (c : UInt8) : Bool := c = 32 ∨ 9 ≤ c ∧ c ≤ 13

/-- The text behind `0x`, if it starts so. -/
def skipBase : List UInt8 → List UInt8
  | 48 :: 120 :: rest => rest
  | 48 :: 88 :: rest => rest
  | text => text

/-- What `strtoul` makes of a number in an `unsigned long` of `longBits` bits: `ULONG_MAX` of one
that is too large, and the number from below the range behind a minus. -/
def unsignedLong (longBits : ℕ) (negative : Bool) (v : ℕ) : ℕ :=
  if 2 ^ longBits ≤ v then 2 ^ longBits - 1
  else if negative then (2 ^ longBits - v) % 2 ^ longBits
  else v

/-- `strtoul(text, NULL, 16)` -/
def strtoul (longBits : ℕ) (text : List UInt8) : ℕ :=
  let rest := text.dropWhile isSpace
  let negative : Bool := rest.head? = some 45
  let rest := if rest.head? = some 43 ∨ negative then rest.tail else rest
  unsignedLong longBits negative (read 0 (skipBase rest))

/-- `buffer` after `fgets(buffer, sizeof(buffer), fp)`, which finds ten NULs in it. -/
def usbBuffer (out : List UInt8) : List UInt8 :=
  let stored := fgets 9 out
  stored ++ List.replicate (10 - stored.length) 0

/-- The number that the output of the pipeline yields. -/
def usbNumber (longBits : ℕ) (out : List UInt8) : ℕ := strtoul longBits (usbBuffer out)

/-- `new_lte` with the text that the pipeline prints, `none` if `popen` fails. -/
def newLteFrom (longBits : ℕ) (args : List PyObject) (fp : Option (List UInt8))
    (env : ConnectEnv) : CM (Mem π) PyRef :=
  newLte args ⟨fp.map (usbNumber longBits), env⟩

/-! ## Outputs that spell the marks -/

/-- The output spells the marks: with eight digits at its start that no ninth follows, with eight
digits behind one blank, plus or zero, or, where an `unsigned long` has 32 bits, with the eight
digits of the number below the range that the marks are. -/
inductive Spells (longBits : ℕ) : List UInt8 → Prop
  | digits {digits rest : List UInt8} (hlength : digits.length = 8)
      (hnumeral : Numeral digits marks) (hstops : Stops rest) : Spells longBits (digits ++ rest)
  | behind {c : UInt8} {digits rest : List UInt8} (hc : isSpace c ∧ c ≠ 10 ∨ c = 43 ∨ c = 48)
      (hlength : digits.length = 8) (hnumeral : Numeral digits marks) :
    Spells longBits (c :: (digits ++ rest))
  | negative {digits rest : List UInt8} (hlong : longBits = 32) (hlength : digits.length = 8)
      (hnumeral : Numeral digits (2 ^ 32 - marks)) : Spells longBits (45 :: (digits ++ rest))

/-! ### The buffer -/

/-- What is stored is a prefix of the stream. -/
theorem fgets_prefix_stream (room : ℕ) (stream : List UInt8) : fgets room stream <+: stream := by
  induction room generalizing stream with
  | zero => exact List.nil_prefix
  | succ room ih =>
    cases stream with
    | nil => exact List.nil_prefix
    | cons c stream =>
      rw [fgets]
      split
      · exact ⟨stream, rfl⟩
      · exact List.cons_prefix_cons.mpr ⟨rfl, ih stream⟩

theorem fgets_length (room : ℕ) (stream : List UInt8) : (fgets room stream).length ≤ room := by
  induction room generalizing stream with
  | zero => simp [fgets]
  | succ room ih =>
    cases stream with
    | nil => simp [fgets]
    | cons c stream =>
      rw [fgets]
      split
      · simp
      · simpa using ih stream

/-- A text without the end of a line is stored as far as there is room. -/
theorem fgets_append {room : ℕ} {text : List UInt8} (hline : 10 ∉ text)
    (hroom : text.length ≤ room) (stream : List UInt8) :
    fgets room (text ++ stream) = text ++ fgets (room - text.length) stream := by
  induction text generalizing room with
  | nil => rfl
  | cons c text ih =>
    obtain ⟨hc, hline⟩ := not_or.mp (mt List.mem_cons.mpr hline)
    rw [List.length_cons] at hroom ⊢
    obtain ⟨room, rfl⟩ : ∃ r, room = r + 1 := ⟨room - 1, by omega⟩
    rw [List.cons_append, fgets, if_neg (Ne.symm hc), ih hline (by omega), List.cons_append,
      Nat.add_sub_add_right]

/-- What stands in the buffer in front of a NUL was printed. -/
theorem prefix_of_usbBuffer {out text rest : List UInt8} (h : usbBuffer out = text ++ rest)
    (hnul : 0 ∉ text) : text <+: fgets 9 out := by
  rcases List.append_eq_append_iff.mp h with ⟨more, rfl, hmore⟩ | ⟨more, hstored, _⟩
  · cases more with
    | nil => simp
    | cons c more =>
      have hc : c ∈ List.replicate (10 - (fgets 9 out).length) (0 : UInt8) := by
        rw [hmore]
        simp
      rw [List.eq_of_mem_replicate hc] at hnul
      simp at hnul
  · exact ⟨more, hstored.symm⟩

/-- Behind eight bytes of a line, the buffer goes on with a digit where the output does. -/
theorem usbBuffer_eight {text : List UInt8} (hline : 10 ∉ text) (hlength : text.length = 8)
    (stream : List UInt8) :
    ∃ rest, usbBuffer (text ++ stream) = text ++ rest ∧ (Stops rest ↔ Stops stream) := by
  have hstored : fgets 9 (text ++ stream) = text ++ fgets 1 stream := by
    rw [fgets_append hline (by omega), hlength]
  refine ⟨fgets 1 stream ++ List.replicate (10 - (text ++ fgets 1 stream).length) 0, ?_, ?_⟩
  · rw [usbBuffer, hstored, List.append_assoc]
  · cases stream with
    | nil =>
      have hnul : value 0 = none := by decide
      simp [Stops, fgets, hlength, List.replicate, hnul]
    | cons c stream => simp [Stops, fgets]

/-- Behind nine bytes of a line, the buffer has its NUL. -/
theorem usbBuffer_nine {text : List UInt8} (hline : 10 ∉ text) (hlength : text.length = 9)
    (stream : List UInt8) :
    ∃ rest, usbBuffer (text ++ stream) = text ++ rest ∧ Stops rest := by
  have hstored : fgets 9 (text ++ stream) = text := by
    rw [fgets_append hline (by omega), hlength]
    simp [fgets]
  refine ⟨[0], ?_, fun c hc => ?_⟩
  · rw [usbBuffer, hstored, hlength]
    rfl
  · rw [← Option.some.inj hc]
    decide

/-! ### The number -/

/-- Blanks are no digits. -/
theorem value_of_isSpace {c : UInt8} (h : isSpace c = true) : value c = none := by
  simp only [isSpace, decide_eq_true_eq, UInt8.le_iff_toNat_le, ← UInt8.toNat_inj,
    UInt8.reduceToNat] at h
  simp only [value, UInt8.le_iff_toNat_le, UInt8.reduceToNat]
  rw [if_neg (by omega), if_neg (by omega), if_neg (by omega)]

/-- `strtoul` finds a numeral behind a front without NUL. -/
theorem skipBase_parts (text : List UInt8) :
    ∃ base digits rest n, text = base ++ (digits ++ rest) ∧ 0 ∉ base ∧
      (base = [] ∨ base.length = 2) ∧ Numeral digits n ∧ Stops rest ∧
      read 0 (skipBase text) = n := by
  unfold skipBase
  split
  · rename_i text
    obtain ⟨digits, rest, n, rfl, hdigits, hstops⟩ := exists_numeral text
    exact ⟨[48, 120], digits, rest, n, rfl, by decide, .inr rfl, hdigits, hstops,
      read_eq hdigits hstops⟩
  · rename_i text
    obtain ⟨digits, rest, n, rfl, hdigits, hstops⟩ := exists_numeral text
    exact ⟨[48, 88], digits, rest, n, rfl, by decide, .inr rfl, hdigits, hstops,
      read_eq hdigits hstops⟩
  · obtain ⟨digits, rest, n, rfl, hdigits, hstops⟩ := exists_numeral text
    exact ⟨[], digits, rest, n, rfl, List.not_mem_nil, .inl rfl, hdigits, hstops,
      read_eq hdigits hstops⟩

/-- The sign in front of a number; true for a minus. -/
inductive Sign : List UInt8 → Bool → Prop
  | nothing : Sign [] false
  | plus : Sign [43] false
  | minus : Sign [45] true

theorem sign_parts (text : List UInt8) :
    ∃ sign unsigned negative, text = sign ++ unsigned ∧ Sign sign negative ∧
      decide (text.head? = some 45) = negative ∧
      (if text.head? = some 43 ∨ decide (text.head? = some 45) = true then text.tail else text) =
        unsigned := by
  cases text with
  | nil => exact ⟨[], [], false, rfl, .nothing, rfl, rfl⟩
  | cons c text =>
    by_cases hminus : c = 45
    · subst hminus
      exact ⟨[45], text, true, rfl, .minus, by simp, by simp⟩
    · by_cases hplus : c = 43
      · subst hplus
        exact ⟨[43], text, false, rfl, .plus, by simp, by simp⟩
      · exact ⟨[], c :: text, false, rfl, .nothing, by simp [hminus], by simp [hminus, hplus]⟩

/-- The parts of a text, and what `strtoul` makes of them. -/
theorem strtoul_parts (longBits : ℕ) (text : List UInt8) :
    ∃ blanks sign base digits rest negative n,
      text = (blanks ++ sign ++ base ++ digits) ++ rest ∧ (∀ c ∈ blanks, isSpace c = true) ∧
      Sign sign negative ∧ 0 ∉ base ∧ (base = [] ∨ base.length = 2) ∧ Numeral digits n ∧
      Stops rest ∧ strtoul longBits text = unsignedLong longBits negative n := by
  obtain ⟨sign, unsigned, negative, hsigned, hsign, hminus, htail⟩ :=
    sign_parts (text.dropWhile isSpace)
  obtain ⟨base, digits, rest, n, hunsigned, hnul, hbase, hdigits, hstops, hread⟩ :=
    skipBase_parts unsigned
  refine ⟨text.takeWhile isSpace, sign, base, digits, rest, negative, n, ?_,
    fun c hc => List.mem_takeWhile_imp hc, hsign, hnul, hbase, hdigits, hstops, ?_⟩
  · rw [List.append_assoc, List.append_assoc, List.append_assoc, ← hunsigned, ← hsigned,
      List.takeWhile_append_dropWhile]
  · rw [strtoul, htail, hminus, hread]

/-- A numeral of two digits and more is read behind a sign. -/
theorem strtoul_sign (longBits : ℕ) {sign digits rest : List UInt8} {negative : Bool} {n : ℕ}
    (hsign : Sign sign negative) (hlength : 2 ≤ digits.length) (hdigits : Numeral digits n)
    (hstops : Stops rest) :
    strtoul longBits (sign ++ (digits ++ rest)) = unsignedLong longBits negative n := by
  obtain ⟨a, b, tail, rfl⟩ : ∃ a b tail, digits = a :: b :: tail := by
    match digits, hlength with
    | a :: b :: tail, _ => exact ⟨a, b, tail, rfl⟩
  have hread := read_eq hdigits hstops
  have ha : value a ≠ none := hdigits.value_ne_none (by simp)
  have hb : value b ≠ none := hdigits.value_ne_none (by simp)
  have hspace : isSpace a = false := by
    by_contra h
    exact ha (value_of_isSpace (Bool.not_eq_false _ ▸ h))
  have hother : ∀ c : UInt8, value c = none → a ≠ c ∧ b ≠ c := by
    intro c hc
    exact ⟨fun h => ha (h ▸ hc), fun h => hb (h ▸ hc)⟩
  have hplus := (hother 43 (by decide)).1
  have hminus := (hother 45 (by decide)).1
  have hsmall := (hother 120 (by decide)).2
  have hcapital := (hother 88 (by decide)).2
  have hbase : skipBase (a :: b :: tail ++ rest) = a :: b :: tail ++ rest := by
    unfold skipBase
    split
    · rename_i heq
      cases heq
      exact absurd rfl hsmall
    · rename_i heq
      cases heq
      exact absurd rfl hcapital
    · rfl
  rw [← hbase, List.cons_append, List.cons_append] at hread
  cases hsign with
  | nothing => simp [strtoul, hspace, hplus, hminus, hread]
  | plus =>
    have hsign : isSpace 43 = false := by decide
    simp [strtoul, hsign, hread]
  | minus =>
    have hsign : isSpace 45 = false := by decide
    simp [strtoul, hsign, hread]

/-- A blank in front does not count. -/
theorem strtoul_blank (longBits : ℕ) {c : UInt8} (h : isSpace c = true) (text : List UInt8) :
    strtoul longBits (c :: text) = strtoul longBits text := by
  rw [strtoul, strtoul, List.dropWhile_cons_of_pos h]

/-- The number is the marks, or behind a minus the number below the range that the marks are. -/
theorem unsignedLong_eq_marks_iff {longBits : ℕ} (hlong : 32 ≤ longBits) {negative : Bool}
    {n : ℕ} :
    unsignedLong longBits negative n = marks ↔
      negative = false ∧ n = marks ∨ negative = true ∧ n + marks = 2 ^ longBits := by
  have hrange : 2 ^ 32 ≤ 2 ^ longBits := Nat.pow_le_pow_right (by omega) hlong
  have hmarks : marks = 315692481 := rfl
  unfold unsignedLong
  generalize 2 ^ longBits = range at hrange ⊢
  by_cases hlarge : range ≤ n
  · rw [if_pos hlarge]
    refine iff_of_false (by omega) ?_
    rintro (⟨_, hn⟩ | ⟨_, hn⟩)
    all_goals omega
  · rw [if_neg hlarge]
    cases negative with
    | false => simp
    | true =>
      simp only [if_true, Bool.true_eq_false, false_and, false_or, true_and]
      rcases Nat.eq_zero_or_pos n with rfl | hpos
      · rw [Nat.sub_zero, Nat.mod_self]
        omega
      · rw [Nat.mod_eq_of_lt (by omega)]
        omega

/-- The number of the modem takes eight digits at least. -/
theorem eight_le_length {longBits : ℕ} (hlong : 32 ≤ longBits) {negative : Bool}
    {digits : List UInt8} {n : ℕ} (hdigits : Numeral digits n)
    (hnumber : unsignedLong longBits negative n = marks) : 8 ≤ digits.length := by
  have hmarks : marks = 315692481 := rfl
  have hlt := hdigits.lt
  have hrange : 2 ^ 32 ≤ 2 ^ longBits := Nat.pow_le_pow_right (by omega) hlong
  by_contra hfew
  have hpow : 16 ^ digits.length ≤ 16 ^ 7 := Nat.pow_le_pow_right (by omega) (by omega)
  rcases (unsignedLong_eq_marks_iff hlong).mp hnumber with ⟨_, hn⟩ | ⟨_, hn⟩
  all_goals omega

/-- An output that starts with the digits of the marks spells them. -/
theorem spells_of_digits {longBits : ℕ} {digits more rest : List UInt8}
    (hdigits : Numeral digits marks) (height : 8 ≤ digits.length) (hroom : digits.length ≤ 9)
    (hbuffer : usbBuffer (digits ++ more) = digits ++ rest) (hstops : Stops rest) :
    Spells longBits (digits ++ more) := by
  have hmarks : marks = 315692481 := rfl
  rcases Nat.lt_or_ge 8 digits.length with hnine | hle
  · -- The ninth digit is a zero in front.
    cases digits with
    | nil => simp at hnine
    | cons c digits =>
      obtain ⟨d, m, hvalue, hrest, hsum⟩ := hdigits
      have hlength : digits.length = 8 := by
        rw [List.length_cons] at hroom hnine
        omega
      rw [hlength] at hsum
      obtain ⟨rfl, rfl⟩ : d = 0 ∧ m = marks := by omega
      exact .behind (.inr (.inr (eq_of_value_zero hvalue))) hlength hrest
  · have hlength : digits.length = 8 := by omega
    obtain ⟨rest', hbuffer', hiff⟩ := usbBuffer_eight (hdigits.not_mem (by decide)) hlength more
    rw [hbuffer] at hbuffer'
    rw [List.append_cancel_left hbuffer'] at hstops
    exact .digits hlength hdigits (hiff.mp hstops)

/-- An output that yields the marks spells them: there is no room for more than one byte in
front of eight digits. -/
theorem spells_of_usbNumber {longBits : ℕ} (hlong : 32 ≤ longBits) {out : List UInt8}
    (h : usbNumber longBits out = marks) : Spells longBits out := by
  obtain ⟨blanks, sign, base, digits, rest, negative, n, hbuffer, hblanks, hsign, hbaseNul, hbase,
    hdigits, hstops, hvalue⟩ := strtoul_parts longBits (usbBuffer out)
  have hnumber := (unsignedLong_eq_marks_iff hlong).mp (hvalue.symm.trans h)
  have height := eight_le_length hlong hdigits (hvalue.symm.trans h)
  -- Nothing stands in front of the digits but one blank or sign.
  have hnul : 0 ∉ blanks ++ sign ++ base ++ digits := by
    simp only [List.mem_append, not_or]
    refine ⟨⟨⟨fun h => absurd (hblanks 0 h) (by decide), ?_⟩, hbaseNul⟩,
      hdigits.not_mem (by decide)⟩
    cases hsign <;> decide
  have hprefix := prefix_of_usbBuffer hbuffer hnul
  have hroom := hprefix.length_le.trans (fgets_length 9 out)
  simp only [List.length_append] at hroom
  obtain rfl : base = [] := hbase.resolve_right (by omega)
  rw [List.append_nil] at hbuffer hprefix
  obtain ⟨more, hout⟩ := hprefix.trans (fgets_prefix_stream 9 out)
  cases hsign with
  | nothing =>
    obtain rfl : n = marks := by simpa using hnumber
    rcases blanks with _ | ⟨c, _ | ⟨c', blanks⟩⟩
    · simp only [List.nil_append] at hbuffer hout
      rw [← hout] at hbuffer ⊢
      exact spells_of_digits hdigits height (by simpa using hroom) hbuffer hstops
    · have hspace := hblanks c List.mem_cons_self
      have hnewline : c ≠ 10 := by
        rintro rfl
        rw [← hout] at hprefix
        have hshort := hprefix.length_le
        simp [fgets] at hshort
        simp [hshort] at height
      simp only [List.length_cons, List.length_nil] at hroom
      have hparts : out = c :: (digits ++ more) := by simp [← hout]
      rw [hparts]
      exact .behind (.inl ⟨hspace, hnewline⟩) (by omega) hdigits
    · simp only [List.length_cons] at hroom
      omega
  | plus =>
    obtain rfl : n = marks := by simpa using hnumber
    simp only [List.length_cons, List.length_nil] at hroom
    obtain rfl : blanks = [] := List.length_eq_zero_iff.mp (by omega)
    have hparts : out = 43 :: (digits ++ more) := by simp [← hout]
    rw [hparts]
    exact .behind (.inr (.inl rfl)) (by omega) hdigits
  | minus =>
    have hmarks : marks = 315692481 := rfl
    have hn : n + marks = 2 ^ longBits := by simpa using hnumber
    simp only [List.length_cons, List.length_nil] at hroom
    obtain rfl : blanks = [] := List.length_eq_zero_iff.mp (by omega)
    have hlength : digits.length = 8 := by omega
    have hsmall := hdigits.lt
    rw [hlength] at hsmall
    have hbits : longBits = 32 := by
      by_contra hne
      have hpow : 2 ^ 33 ≤ 2 ^ longBits := Nat.pow_le_pow_right (by omega) (by omega)
      omega
    subst hbits
    obtain rfl : n = 2 ^ 32 - marks := by omega
    have hparts : out = 45 :: (digits ++ more) := by simp [← hout]
    rw [hparts]
    exact .negative rfl hlength hdigits

/-- An output that spells the marks yields them. -/
theorem usbNumber_of_spells {longBits : ℕ} (hlong : 32 ≤ longBits) {out : List UInt8}
    (h : Spells longBits out) : usbNumber longBits out = marks := by
  have hplain : unsignedLong longBits false marks = marks :=
    (unsignedLong_eq_marks_iff hlong).mpr (.inl ⟨rfl, rfl⟩)
  cases h with
  | @digits digits rest hlength hnumeral hstops =>
    obtain ⟨rest', hbuffer, hiff⟩ :=
      usbBuffer_eight (hnumeral.not_mem (by decide)) hlength rest
    rw [usbNumber, hbuffer]
    exact (strtoul_sign longBits .nothing (by omega) hnumeral (hiff.mpr hstops)).trans hplain
  | @behind c digits rest hc hlength hnumeral =>
    have hline : 10 ∉ c :: digits := by
      rw [List.mem_cons, not_or]
      refine ⟨?_, hnumeral.not_mem (by decide)⟩
      rcases hc with ⟨_, hne⟩ | rfl | rfl
      · exact Ne.symm hne
      · decide
      · decide
    obtain ⟨rest', hbuffer, hstops⟩ := usbBuffer_nine hline (by simp [hlength]) rest
    rw [usbNumber, ← List.cons_append, hbuffer]
    rcases hc with ⟨hspace, _⟩ | rfl | rfl
    · rw [List.cons_append, strtoul_blank longBits hspace]
      exact (strtoul_sign longBits .nothing (by omega) hnumeral hstops).trans hplain
    · exact (strtoul_sign longBits .plus (by omega) hnumeral hstops).trans hplain
    · have hzero : Numeral (48 :: digits) marks := ⟨0, marks, by decide, hnumeral, by simp⟩
      exact (strtoul_sign longBits .nothing (by simp [hlength]) hzero hstops).trans hplain
  | @negative digits rest hbits hlength hnumeral =>
    subst hbits
    have hline : 10 ∉ 45 :: digits := by
      rw [List.mem_cons, not_or]
      exact ⟨by decide, hnumeral.not_mem (by decide)⟩
    obtain ⟨rest', hbuffer, hstops⟩ := usbBuffer_nine hline (by simp [hlength]) rest
    rw [usbNumber, ← List.cons_append, hbuffer]
    refine (strtoul_sign 32 .minus (by omega) hnumeral hstops).trans ?_
    exact (unsignedLong_eq_marks_iff hlong).mpr (.inr ⟨rfl, rfl⟩)

/-- The number of an output is that of the modem precisely if the output spells it. -/
theorem usbNumber_eq_marks_iff {longBits : ℕ} (hlong : 32 ≤ longBits) (out : List UInt8) :
    usbNumber longBits out = marks ↔ Spells longBits out :=
  ⟨spells_of_usbNumber hlong, usbNumber_of_spells hlong⟩

/-! ## Construction -/

/-- The arguments take `module_new` as far as `popen`. -/
def Lists (args : List PyObject) : Prop :=
  ∃ a, parseNewLte args = some a ∧ a.device ≠ [] ∧ a.baud ≠ 0

/-- The arguments, the output and the machine with which `new_lte` succeeds. -/
structure Connectable (longBits : ℕ) (out : List UInt8) (a : SerialArgs) (env : ConnectEnv) :
    Prop where
  device : a.device ≠ []
  baud : a.baud ≠ 0
  parity : a.parity = 78 ∨ a.parity = 69 ∨ a.parity = 79
  modem : Spells longBits out
  line : env.opens = true ∧ env.setsSpeed = true ∧ env.setsAttr = true

/-- The module ends open precisely if everything is there. -/
theorem creation_eq_held_iff {longBits : ℕ} (hlong : 32 ≤ longBits) (fp : Option (List UInt8))
    (a : SerialArgs) (env : ConnectEnv) :
    creation a ⟨fp.map (usbNumber longBits), env⟩ = .held ↔
      ∃ out, fp = some out ∧ Connectable longBits out a env := by
  have hmodem : fp.map (usbNumber longBits) = some marks ↔
      ∃ out, fp = some out ∧ Spells longBits out := by
    simp only [Option.map_eq_some_iff, usbNumber_eq_marks_iff hlong]
  have hcreation : creation a ⟨fp.map (usbNumber longBits), env⟩ = .held ↔
      ¬(a.device = [] ∨ a.baud = 0) ∧ fp.map (usbNumber longBits) = some marks ∧
        (a.parity = 78 ∨ a.parity = 69 ∨ a.parity = 79) ∧
        (env.opens && env.setsSpeed && env.setsAttr) = true := by
    unfold creation
    split_ifs <;> simp_all
  rw [hcreation, hmodem]
  simp only [not_or, Bool.and_eq_true]
  constructor
  · rintro ⟨⟨hdevice, hbaud⟩, ⟨out, hout, hspells⟩, hparity, ⟨hopens, hspeed⟩, hattr⟩
    exact ⟨out, hout, hdevice, hbaud, hparity, hspells, hopens, hspeed, hattr⟩
  · rintro ⟨out, hout, hdevice, hbaud, hparity, hspells, hopens, hspeed, hattr⟩
    exact ⟨⟨hdevice, hbaud⟩, ⟨out, hout, hspells⟩, hparity, ⟨hopens, hspeed⟩, hattr⟩

/-- Whatever the pipeline prints, `new_lte` returns `True` precisely if its arguments parse to a
device, a speed and a known parity, the output spells the marks, and the line can be opened and
set, and raises otherwise. It hands NULL to `fgets` precisely if it gets to a `popen` that
fails. -/
theorem newLteFrom_true_iff {longBits : ℕ} (hlong : 32 ≤ longBits) (args : List PyObject)
    (fp : Option (List UInt8)) (env : ConnectEnv) (s : Proc (Mem π)) :
    (fp = none ∧ Lists args → (newLteFrom longBits args fp env).run s = .error .nullPointer) ∧
    (¬(fp = none ∧ Lists args) → ∃ r s', (newLteFrom longBits args fp env).run s = .ok (r, s') ∧
      (r = pyTrue ∨ r = NULL ∧ s'.err ≠ none) ∧
      (r = pyTrue ↔ ∃ a out, parseNewLte args = some a ∧ fp = some out ∧
        Connectable longBits out a env)) := by
  constructor
  · rintro ⟨rfl, a, hargs, hdevice, hbaud⟩
    exact newLte_noStream hargs ⟨⟨hdevice, hbaud⟩, rfl⟩ s
  · intro hstream
    cases hargs : parseNewLte args with
    | none =>
      refine ⟨_, _, newLte_unparsed hargs _ s, .inr ⟨rfl, Option.some_ne_none _⟩, ?_⟩
      simp [pyTrue, NULL]
    | some a =>
      have hno : ¬NoStream a ⟨fp.map (usbNumber longBits), env⟩ := by
        rintro ⟨⟨hdevice, hbaud⟩, hfp⟩
        exact hstream ⟨Option.map_eq_none_iff.mp hfp, a, hargs, hdevice, hbaud⟩
      obtain ⟨r, s', hrun, hdone⟩ := newLte_created hargs hno s
      have hheld := creation_eq_held_iff hlong fp a env
      refine ⟨r, s', hrun, ?_⟩
      by_cases hc : ∃ out, fp = some out ∧ Connectable longBits out a env
      · have hr := hdone.returns (hheld.mpr hc)
        obtain ⟨out, hout, hc⟩ := hc
        exact ⟨.inl hr, fun _ => ⟨a, out, rfl, hout, hc⟩, fun _ => hr⟩
      · obtain ⟨hr, herr⟩ := hdone.raises fun h => hc (hheld.mp h)
        refine ⟨.inr ⟨hr, herr⟩, iff_of_false ?_ ?_⟩
        · rw [hr]
          simp [pyTrue, NULL]
        · rintro ⟨a', out, ha', hout, hconn⟩
          cases ha'
          exact hc ⟨out, hout, hconn⟩

/-- A listing that names the modem, and arguments that ask for its line. -/
theorem newLteFrom_true_iff_modem :
    ∃ s', (newLteFrom 32 [.atom (.str (some (lit "/dev/ttyUSB2")))]
        (some (lit "12d115c1\n")) ⟨true, true, true⟩).run ⟨none, Mem.initial ()⟩ =
      .ok (pyTrue, s') := by
  have hlists : ¬(some (lit "12d115c1\n") = none ∧
      Lists [.atom (.str (some (lit "/dev/ttyUSB2")))]) := by simp
  obtain ⟨r, s', hrun, _, hiff⟩ :=
    (newLteFrom_true_iff (le_refl 32) _ _ ⟨true, true, true⟩ ⟨none, Mem.initial ()⟩).2 hlists
  have hnumeral : Numeral (lit "12d115c1") marks := numeral_read (by decide +kernel)
  have hspells : Spells 32 (lit "12d115c1\n") := by
    have hparts : lit "12d115c1\n" = lit "12d115c1" ++ [10] := by decide +kernel
    rw [hparts]
    exact .digits (by decide +kernel) hnumeral fun c hc => by cases hc; decide
  obtain rfl : r = pyTrue :=
    hiff.mpr ⟨_, _, rfl, rfl, by decide, by decide, by decide, hspells, rfl, rfl, rfl⟩
  exact ⟨s', hrun⟩

end PyModules.Lte
