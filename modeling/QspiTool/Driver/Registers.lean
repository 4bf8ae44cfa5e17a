import QspiTool.Words

/-!
# The register layout of the FlexSPI controller

`flexspi.h`: the byte offsets of `FlexSPI_Type`, the masks the driver applies to its
registers, and the transfer descriptor.  The array registers are offset functions, so an
index past the end of an array names the register that lies behind it in the structure, as
it does in the source.

Virtual addresses are natural numbers: pointer arithmetic of the driver stays far below the
size of the address space.
-/

namespace QspiTool

open Words

/-! ## `FlexSPI_Type` -/

namespace Reg

abbrev mcr0 : Nat := 0x00
abbrev mcr1 : Nat := 0x04
abbrev mcr2 : Nat := 0x08
abbrev ahbcr : Nat := 0x0C
abbrev inten : Nat := 0x10
abbrev intr : Nat := 0x14
abbrev lutkey : Nat := 0x18
abbrev lutcr : Nat := 0x1C
/-- `AHBRXBUFCR0[i]`; the array has 8 entries. -/
abbrev ahbrxbufcr0 (i : Nat) : Nat := 0x20 + 4 * i
abbrev flshcr0 (port : Nat) : Nat := 0x60 + 4 * port
abbrev flshcr1 (port : Nat) : Nat := 0x70 + 4 * port
abbrev flshcr2 (port : Nat) : Nat := 0x80 + 4 * port
abbrev flshcr4 : Nat := 0x94
abbrev ipcr0 : Nat := 0xA0
abbrev ipcr1 : Nat := 0xA4
abbrev ipcmd : Nat := 0xB0
abbrev dlpr : Nat := 0xB4
abbrev iprxfcr : Nat := 0xB8
abbrev iptxfcr : Nat := 0xBC
/-- `DLLCR[i]`; the array has 2 entries. -/
abbrev dllcr (i : Nat) : Nat := 0xC0 + 4 * i
abbrev sts0 : Nat := 0xE0
abbrev sts1 : Nat := 0xE4
abbrev sts2 : Nat := 0xE8
/-- `RFDR[i]`; the array has 32 entries. -/
abbrev rfdr (i : Nat) : Nat := 0x100 + 4 * i
/-- `TFDR[i]`; the array has 32 entries. -/
abbrev tfdr (i : Nat) : Nat := 0x180 + 4 * i
/-- `LUT[i]`; the array has 128 entries. -/
abbrev lut (i : Nat) : Nat := 0x200 + 4 * i

/-- `sizeof(FlexSPI_Type)`. -/
abbrev size : Nat := 0x400

end Reg

/-! ## Groups of registers -/

/-- The offsets of `STS0` to `IPTXFSTS`. -/
def Reg.IsStatus (off : Nat) : Prop := 0xE0 ≤ off ∧ off < 0xF8

instance (off : Nat) : Decidable (Reg.IsStatus off) := inferInstanceAs (Decidable (_ ∧ _))

/-- The offsets of `RFDR[0..31]`. -/
def Reg.IsRfdr (off : Nat) : Prop := 0x100 ≤ off ∧ off < 0x180

instance (off : Nat) : Decidable (Reg.IsRfdr off) := inferInstanceAs (Decidable (_ ∧ _))

/-- The offsets of `LUT[0..127]`. -/
def Reg.IsLut (off : Nat) : Prop := 0x200 ≤ off ∧ off < 0x400

instance (off : Nat) : Decidable (Reg.IsLut off) := inferInstanceAs (Decidable (_ ∧ _))

/-- The offsets of the command and FIFO control registers, `FLSHCR2` to `IPTXFCR`. -/
def Reg.IsControl (off : Nat) : Prop := 0x80 ≤ off ∧ off < 0xC0

instance (off : Nat) : Decidable (Reg.IsControl off) := inferInstanceAs (Decidable (_ ∧ _))

/-- The offsets a store to which changes the register kept there. -/
def Reg.IsCell (off : Nat) : Prop :=
  off ≠ Reg.intr ∧ ¬ Reg.IsStatus off ∧ ¬ Reg.IsLut off

instance (off : Nat) : Decidable (Reg.IsCell off) := inferInstanceAs (Decidable (_ ∧ _))

/-- The registers that configure the controller: set up before any transfer and kept by all of
them. -/
def Reg.configuration : List Nat :=
  [mcr0, mcr1, mcr2, ahbcr, inten, lutkey, lutcr, flshcr4, dlpr] ++
    (List.range 8).map ahbrxbufcr0 ++ (List.range 4).map flshcr0 ++ (List.range 4).map flshcr1 ++
    (List.range 2).map dllcr

/-- The registers whose bit 0 acts when it is stored: the flushes of the FIFOs and the trigger of
the command. -/
def Reg.strobes : List Nat := [iptxfcr, iprxfcr, ipcmd]

/-- A word at `off` and one at `x` have a byte in common. -/
def Reg.Overlaps (off x : Nat) : Prop := off < x + 4 ∧ x < off + 4

instance (off x : Nat) : Decidable (Reg.Overlaps off x) := inferInstanceAs (Decidable (_ ∧ _))

/-- The FIFO windows lie behind the registers that control them. -/
lemma Reg.rfdr_ne {off : Nat} (h : off < 0x100) (i : Nat) : Reg.rfdr i ≠ off := by
  simp only [Reg.rfdr]
  omega

lemma Reg.tfdr_ne {off : Nat} (h : off < 0x100) (i : Nat) : Reg.tfdr i ≠ off := by
  simp only [Reg.tfdr]
  omega

/-! ## Flags and fields -/

/-- `INTR` bit 0: the IP command is done. -/
abbrev cmdDone : Nat := 0

/-- `INTR` bit 3, the bit `QSPI_Busy` takes for an error. -/
abbrev cmdError : Nat := 3

/-- `INTR` bit 6, polled by `write_blocking`. -/
abbrev txEmpty : Nat := 6

/-- `INTR` bit 7, polled by `read_blocking`. -/
abbrev rxWatermarkFlag : Nat := 7

/-- `FLEXSPI_IPTXFCR_WTR_MASK` and `FLEXSPI_IPRXFCR_RTR_MASK`. -/
def watermarkMask : Word := 0x1FC#32

/-- `FLEXSPI_IPTXFCR_WTR_SHIFT` and `FLEXSPI_IPRXFCR_RTR_SHIFT`. -/
def watermarkShift : Nat := 2

def lutkeyValue : Word := 0x5AF05AF0#32

def lockerLock : Word := 1#32

def lockerUnlock : Word := 2#32

/-- A FIFO watermark in units of 64 bits, as the 7-bit field plus one encodes it. -/
structure Watermark where
  val : Nat
  pos : 0 < val
  le : val ≤ 128
  deriving DecidableEq

lemma field_lt (v : Word) : ((v &&& watermarkMask) >>> watermarkShift).toNat < 128 := by
  simp only [watermarkMask, watermarkShift, BitVec.toNat_ushiftRight, BitVec.toNat_and]
  rw [Nat.shiftRight_eq_div_pow]
  have h : v.toNat &&& (0x1FC#32).toNat ≤ (0x1FC#32).toNat := Nat.and_le_right
  have h' : (0x1FC#32).toNat = 508 := rfl
  omega

/-- `((reg & MASK) >> SHIFT) + 1`. -/
def watermarkOf (v : Word) : Watermark where
  val := ((v &&& watermarkMask) >>> watermarkShift).toNat + 1
  pos := Nat.succ_pos _
  le := field_lt v

/-- The watermark does not depend on the flush bit. -/
lemma watermarkOf_congr {v w : Word} (h : SameBut 0 v w) : watermarkOf w = watermarkOf v := by
  have hmask : w &&& watermarkMask = v &&& watermarkMask := by
    apply BitVec.eq_of_getLsbD_eq
    intro n _
    rw [BitVec.getLsbD_and, BitVec.getLsbD_and]
    obtain rfl | hn := Decidable.em (n = 0)
    · have hflush : watermarkMask.getLsbD 0 = false := by decide
      rw [hflush, Bool.and_false, Bool.and_false]
    · rw [h n hn]
  simp only [watermarkOf, hmask]

/-- Setting the flush bit leaves the watermark alone. -/
@[simp] lemma watermarkOf_or_one (v : Word) : watermarkOf (v ||| 1#32) = watermarkOf v :=
  watermarkOf_congr (sameBut_or_bit 0 v)

/-! ## Transfers -/

/-- `flexspi_port_t`. -/
inductive FlexspiPort
  | portA1
  | portA2
  | portB1
  | portB2
  deriving DecidableEq, Repr

/-- The index of the port's registers. -/
def FlexspiPort.index : FlexspiPort → Nat
  | portA1 => 0
  | portA2 => 1
  | portB1 => 2
  | portB2 => 3

/-- `flexspi_command_type_t`. -/
inductive FlexspiCommandType
  | command
  | config
  | read
  | write
  deriving DecidableEq, Repr

/-- `flexspi_transfer_t`. -/
structure FlexspiTransfer where
  deviceAddress : Word
  port : FlexspiPort
  cmdType : FlexspiCommandType
  seqIndex : BitVec 8
  seqNumber : BitVec 8
  data : Nat
  dataSize : BitVec 16

end QspiTool
