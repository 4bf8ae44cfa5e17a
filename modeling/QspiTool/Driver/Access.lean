import QspiTool.Driver.Registers
import QspiTool.Interaction.Program

/-!
# What the driver does to the world

The accesses of `qspi.c`: 32-bit loads and stores of registers through a virtual address,
accesses to the caller's buffers, and the system calls of `QSPI_Init` and `QSPI_DeInit`.
Each source-level register access is one operation; the busy-wait
`while (0 == (*reg & mask)) {}` is the one wait.
-/

namespace QspiTool

open Words Interaction

/-- One access. -/
inductive Access
  /-- A 32-bit load of a register. -/
  | load (a : Nat)
  /-- A 32-bit store to a register. -/
  | store (a : Nat) (v : Word)
  /-- An 8-bit store to a register, as `memcpy` may make it. -/
  | store8 (a : Nat) (b : Byte)
  /-- A byte of a buffer. -/
  | read8 (a : Nat)
  /-- A word of a buffer. -/
  | read32 (a : Nat)
  | write8 (a : Nat) (b : Byte)
  | write32 (a : Nat) (v : Word)
  /-- `open("/dev/mem", O_RDWR | O_SYNC)`; negative on failure. -/
  | openMem
  | close (fd : Int)
  /-- `mmap(0, size, …, fd, offset)`. -/
  | mmap (size : Nat) (fd : Int) (offset : Nat)
  | munmap (a : Nat) (size : Nat)
  /-- `sysconf(_SC_PAGE_SIZE)`. -/
  | pageSize
  deriving DecidableEq

/-- What an access answers. -/
abbrev Access.Res : Access → Type
  | load _ => Word
  | store _ _ => Unit
  | store8 _ _ => Unit
  | read8 _ => Byte
  | read32 _ => Word
  | write8 _ _ => Unit
  | write32 _ _ => Unit
  | openMem => Int
  | close _ => Unit
  | mmap _ _ _ => Nat
  | munmap _ _ => Unit
  | pageSize => Nat

/-- `while (0 == (*reg & mask)) {}`, with the register and the number of the one bit of the
mask. -/
structure BitWait where
  reg : Nat
  flag : Nat
  deriving DecidableEq

/-- The signature of the driver. -/
abbrev bus : Signature where
  Op := Access
  Res := Access.Res
  Wait := BitWait
  probe w := .load w.reg
  ready w v := decide (v &&& bit w.flag ≠ 0#32)

/-- A fragment of the driver. -/
abbrev Driver := Prog bus

def load (a : Nat) : Driver Word := Prog.op (S := bus) (.load a)

def store (a : Nat) (v : Word) : Driver Unit := Prog.op (S := bus) (.store a v)

def store8 (a : Nat) (b : Byte) : Driver Unit := Prog.op (S := bus) (.store8 a b)

def read8 (a : Nat) : Driver Byte := Prog.op (S := bus) (.read8 a)

def read32 (a : Nat) : Driver Word := Prog.op (S := bus) (.read32 a)

def write8 (a : Nat) (b : Byte) : Driver Unit := Prog.op (S := bus) (.write8 a b)

def write32 (a : Nat) (v : Word) : Driver Unit := Prog.op (S := bus) (.write32 a v)

def openMem : Driver Int := Prog.op (S := bus) .openMem

def close (fd : Int) : Driver Unit := Prog.op (S := bus) (.close fd)

def mmap (size : Nat) (fd : Int) (offset : Nat) : Driver Nat :=
  Prog.op (S := bus) (.mmap size fd offset)

def munmap (a : Nat) (size : Nat) : Driver Unit := Prog.op (S := bus) (.munmap a size)

def sysconfPageSize : Driver Nat := Prog.op (S := bus) .pageSize

/-- Spin until bit `flag` of the register at `a` is set. -/
def waitBit (a : Nat) (flag : Nat) : Driver Unit := Prog.await (S := bus) ⟨a, flag⟩

/-- `*a |= m`: one load, one store. -/
def orReg (a : Nat) (m : Word) : Driver Unit := do
  let v ← load a
  store a (v ||| m)

/-- `assert(c)`. -/
def check (c : Prop) [Decidable c] : Driver Unit := Prog.check c

end QspiTool
