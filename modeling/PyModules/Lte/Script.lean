import PyModules.Lte.CoraSerial

/-!
# A scripted line

For statements about given sequences of reads: a line whose reads are listed in
advance. It accepts every command completely.
-/

namespace PyModules.Lte

/-- The outcomes of the coming reads: a block, or `none` for a read that times out.
An exhausted script times out forever. -/
structure Script where
  reads : List (Option (List UInt8))
  deriving DecidableEq, Repr

/-- A read of at most `n` bytes from the block at the head of the script. -/
def Script.read (n : ℕ) : Script → Option (List UInt8) × Script
  | ⟨some b :: reads⟩ => (some (b.take n), ⟨reads⟩)
  | ⟨none :: reads⟩ => (none, ⟨reads⟩)
  | ⟨[]⟩ => (none, ⟨[]⟩)

/-- The head of the script decides whether `select` reports bytes to read. -/
def Script.select : Script → ℤ × Script
  | ⟨some b :: reads⟩ => (1, ⟨some b :: reads⟩)
  | ⟨none :: reads⟩ => (0, ⟨reads⟩)
  | ⟨[]⟩ => (0, ⟨[]⟩)

instance : Tty Script where
  write req t := (req.length, t)
  select := Script.select
  read := Script.read
  read_length n t b h := by
    obtain ⟨_ | ⟨_ | block, reads⟩⟩ := t
    · cases h
    · cases h
    · cases h
      exact List.length_take_le n block

/-- A machine with a connected context. -/
def connectedMem : Mem Script :=
  ⟨some 0, Heap.empty.alloc ⟨some 0, none⟩, Heap.empty.alloc (), ⟨[]⟩, []⟩

/-- A process with a connected context and these reads to come. -/
def reading (reads : List (Option (List UInt8))) : Proc (Mem Script) :=
  ⟨none, { connectedMem with tty := ⟨reads⟩ }⟩

end PyModules.Lte
