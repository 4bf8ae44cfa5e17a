import QspiTool.Driver.LutEncoding

/-!
# The table of the FPGA

`fpga_interface.h` lists the commands of the FPGA in one table, from which it derives the opcode of
each and its index in the LUT; `fpga_interface.c` fills the LUT of these commands.  All of its
sequences are null but that of `RD_SAMPLE`.

A sequence is a program of instructions, two to a word, that ends at the first `STOP`.
-/

namespace QspiTool

open Words

/-! ## `FPGA_TABLE` -/

/-- The names of `FPGA_TABLE`. -/
inductive FpgaName
  | wrSpi1 | wrSpi2 | wrDcuOut | wrGenericCmd
  | wrUart1 | wrUart2 | wrUart3 | wrUart4
  | wrMcaspCfg | wrPpsSel | wrMstClk
  | rdSample | rdSpi1 | rdSpi2
  | rdUart1 | rdUart2 | rdUart3 | rdUart4
  | rdSyncIn | rdMstClk
  deriving DecidableEq

/-- `FPGA_TABLE`: names and opcodes. -/
def fpgaTable : List (FpgaName × Word) :=
  [(.wrSpi1, 0x01#32), (.wrSpi2, 0x02#32), (.wrDcuOut, 0x03#32), (.wrGenericCmd, 0x04#32),
    (.wrUart1, 0x05#32), (.wrUart2, 0x06#32), (.wrUart3, 0x07#32), (.wrUart4, 0x08#32),
    (.wrMcaspCfg, 0x09#32), (.wrPpsSel, 0x0A#32), (.wrMstClk, 0x0C#32),
    (.rdSample, 0x80#32), (.rdSpi1, 0x81#32), (.rdSpi2, 0x82#32),
    (.rdUart1, 0x85#32), (.rdUart2, 0x86#32), (.rdUart3, 0x87#32), (.rdUart4, 0x88#32),
    (.rdSyncIn, 0x8B#32), (.rdMstClk, 0x8C#32)]

/-- `FPGA_OPCODE_…`. -/
def fpgaOpcode (name : FpgaName) : Word := (fpgaTable.lookup name).getD 0#32

/-- `FPGA_LUT_IDX_…`: the place in the table. -/
def fpgaLutIdx (name : FpgaName) : Nat := fpgaTable.findIdx fun entry => decide (entry.1 = name)

/-- `FPGA_OPCODE_IDX_COUNT`. -/
def fpgaOpcodeIdxCount : Nat := fpgaTable.length

/-! ## `fpga_lut` -/

abbrev lutStop : Word := 0x00#32
abbrev lutCmd : Word := 0x01#32
abbrev lutAddr : Word := 0x02#32
abbrev lutRead : Word := 0x09#32
abbrev lutDummy : Word := 0x0C#32

/-- `kFlexSPI_4PAD`. -/
abbrev flexspi4Pad : Word := 2#32

/-- `LUT_IDX`. -/
def lutIdx (seq num : Nat) : Nat := 4 * seq + num

/-- `LUT_NULL`: four initialisers. -/
def lutNull (seq : Nat) : List (Nat × Word) :=
  [(lutIdx seq 0, 0#32), (lutIdx seq 1, 0#32), (lutIdx seq 2, 0#32), (lutIdx seq 3, 0#32)]

/-- The names whose sequences `fpga_lut` leaves null, in the order of its initialisers. -/
def nullWrites : List FpgaName :=
  [.wrSpi1, .wrSpi2, .wrDcuOut, .wrGenericCmd, .wrUart1, .wrUart2, .wrUart3, .wrUart4,
    .wrMcaspCfg, .wrPpsSel, .wrMstClk]

/-- The same behind `RD_SAMPLE`. -/
def nullReads : List FpgaName :=
  [.rdSpi1, .rdSpi2, .rdUart1, .rdUart2, .rdUart3, .rdUart4, .rdSyncIn, .rdMstClk]

/-- The initialisers of the sequence of `RD_SAMPLE`. -/
def rdSampleInit : List (Nat × Word) :=
  [(lutIdx (fpgaLutIdx .rdSample) 0,
      flexspiLutSeq lutCmd flexspi4Pad (fpgaOpcode .rdSample) lutAddr flexspi4Pad lutDummy),
    (lutIdx (fpgaLutIdx .rdSample) 1, 0#32), (lutIdx (fpgaLutIdx .rdSample) 2, 0#32),
    (lutIdx (fpgaLutIdx .rdSample) 3, 0#32)]

/-- The initialisers of `fpga_lut`. -/
def fpgaLutInit : List (Nat × Word) :=
  (nullWrites.flatMap fun name => lutNull (fpgaLutIdx name)) ++ rdSampleInit ++
    nullReads.flatMap fun name => lutNull (fpgaLutIdx name)

/-- An array of `n` words with designated initialisers. -/
def initialised (n : Nat) (inits : List (Nat × Word)) : List Word :=
  inits.foldl (fun ws init => ws.set init.1 init.2) (List.replicate n 0#32)

/-- `fpga_lut`. -/
def fpgaLut : List Word := initialised (4 * fpgaOpcodeIdxCount) fpgaLutInit

/-! ## Sequences as programs -/

/-- One instruction of a sequence. -/
structure Instruction where
  opcode : Word
  pads : Word
  operand : Word
  deriving DecidableEq

/-- The two instructions of a word. -/
def instructionsOf (v : Word) : List Instruction :=
  [⟨(LutArgs.decode v).cmd0, (LutArgs.decode v).pad0, (LutArgs.decode v).op0⟩,
    ⟨(LutArgs.decode v).cmd1, (LutArgs.decode v).pad1, (LutArgs.decode v).op1⟩]

/-- The instructions of a sequence up to the first `STOP`. -/
def sequenceProgram (words : List Word) : List Instruction :=
  (words.flatMap instructionsOf).takeWhile fun i => decide (i.opcode ≠ lutStop)

/-- Words `4 n` to `4 n + 3` of a table. -/
def tableWords (table : List Word) (n : Nat) : List Word :=
  (List.range 4).map fun i => table.getD (4 * n + i) 0#32

/-- The instructions that `fpga_lut` has for each of its indices. -/
def fpgaProgram (n : Nat) : List Instruction :=
  if n = fpgaLutIdx .rdSample then
    [⟨lutCmd, flexspi4Pad, fpgaOpcode .rdSample⟩, ⟨lutAddr, flexspi4Pad, lutDummy⟩]
  else []

lemma fpgaLut_length : fpgaLut.length = 80 := by decide

/-- **What `fpga_lut` says.**  Only the sequence of `RD_SAMPLE` has instructions. -/
lemma fpgaLut_program : ∀ n < fpgaOpcodeIdxCount,
    sequenceProgram (tableWords fpgaLut n) = fpgaProgram n := by
  decide

end QspiTool
