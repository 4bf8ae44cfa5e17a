import QspiTool.Fields
import QspiTool.Words

/-!
# The two encoders of LUT instructions

A word of the LUT holds two instructions, each of an opcode, a number of pads and an operand.
`flexspi.h` has a mask and a shift for each of the six fields and packs them with
`FLEXSPI_LUT_SEQ`, which calls the opcodes `cmd` and the operands `op`; `qspi.c` has `INSTR`
and `LUT0`, which shift without masks and call the opcodes `op` and the operands `opr`.
-/

namespace QspiTool

open Words

/-! ## The fields of `flexspi.h` -/

/-- `FLEXSPI_LUT_OPERAND0_MASK` and `FLEXSPI_LUT_OPERAND0_SHIFT`. -/
def lutOperand0 : Field 32 := ⟨0xFF#32, 0, 8, by decide, by decide⟩

/-- `FLEXSPI_LUT_NUM_PADS0_MASK` and `FLEXSPI_LUT_NUM_PADS0_SHIFT`. -/
def lutNumPads0 : Field 32 := ⟨0x300#32, 8, 2, by decide, by decide⟩

/-- `FLEXSPI_LUT_OPCODE0_MASK` and `FLEXSPI_LUT_OPCODE0_SHIFT`. -/
def lutOpcode0 : Field 32 := ⟨0xFC00#32, 10, 6, by decide, by decide⟩

/-- `FLEXSPI_LUT_OPERAND1_MASK` and `FLEXSPI_LUT_OPERAND1_SHIFT`. -/
def lutOperand1 : Field 32 := ⟨0xFF0000#32, 16, 8, by decide, by decide⟩

/-- `FLEXSPI_LUT_NUM_PADS1_MASK` and `FLEXSPI_LUT_NUM_PADS1_SHIFT`. -/
def lutNumPads1 : Field 32 := ⟨0x3000000#32, 24, 2, by decide, by decide⟩

/-- `FLEXSPI_LUT_OPCODE1_MASK` and `FLEXSPI_LUT_OPCODE1_SHIFT`. -/
def lutOpcode1 : Field 32 := ⟨0xFC000000#32, 26, 6, by decide, by decide⟩

/-- The fields in the order of `FLEXSPI_LUT_SEQ`. -/
def lutFields : List (Field 32) :=
  [lutOperand0, lutNumPads0, lutOpcode0, lutOperand1, lutNumPads1, lutOpcode1]

lemma lutFields_disjoint : lutFields.Pairwise Field.Disjoint := by decide

lemma lutFields_cover : ∀ n < 32, ∃ f ∈ lutFields, f.Has n := by decide

/-! ## The encoders -/

/-- `FLEXSPI_LUT_SEQ`. -/
def flexspiLutSeq (cmd0 pad0 op0 cmd1 pad1 op1 : Word) : Word :=
  lutOperand0.place op0 ||| lutNumPads0.place pad0 ||| lutOpcode0.place cmd0 |||
    lutOperand1.place op1 ||| lutNumPads1.place pad1 ||| lutOpcode1.place cmd1

/-- `INSTR`. -/
def instr (op pads opr : Word) : Word := op <<< 10 ||| pads <<< 8 ||| opr

/-- `LUT0`. -/
def lut0 (op0 pads0 opr0 op1 pads1 opr1 : Word) : Word :=
  instr op1 pads1 opr1 <<< 16 ||| instr op0 pads0 opr0

lemma instr_shift (op pads opr : Word) :
    instr op pads opr <<< 16 = op <<< 26 ||| pads <<< 24 ||| opr <<< 16 := by
  have hop : op <<< 10 <<< 16 = op <<< 26 := (BitVec.shiftLeft_add op 10 16).symm
  have hpads : pads <<< 8 <<< 16 = pads <<< 24 := (BitVec.shiftLeft_add pads 8 16).symm
  rw [instr, BitVec.shiftLeft_or_distrib, BitVec.shiftLeft_or_distrib, hop, hpads]

/-- The arguments of `FLEXSPI_LUT_SEQ`. -/
structure LutArgs where
  cmd0 : Word
  pad0 : Word
  op0 : Word
  cmd1 : Word
  pad1 : Word
  op1 : Word
  deriving DecidableEq

namespace LutArgs

variable (a : LutArgs)

/-- Each argument fits its field. -/
structure InRange : Prop where
  cmd0 : a.cmd0.toNat < 64
  pad0 : a.pad0.toNat < 4
  op0 : a.op0.toNat < 256
  cmd1 : a.cmd1.toNat < 64
  pad1 : a.pad1.toNat < 4
  op1 : a.op1.toNat < 256

/-- The word `FLEXSPI_LUT_SEQ` makes of the arguments. -/
def encode : Word := flexspiLutSeq a.cmd0 a.pad0 a.op0 a.cmd1 a.pad1 a.op1

/-- What each field has of its argument. -/
def reduced : LutArgs where
  cmd0 := a.cmd0 % 64#32
  pad0 := a.pad0 % 4#32
  op0 := a.op0 % 256#32
  cmd1 := a.cmd1 % 64#32
  pad1 := a.pad1 % 4#32
  op1 := a.op1 % 256#32

/-- The fields of a LUT word, each by its mask and shift. -/
def decode (v : Word) : LutArgs where
  cmd0 := lutOpcode0.read v
  pad0 := lutNumPads0.read v
  op0 := lutOperand0.read v
  cmd1 := lutOpcode1.read v
  pad1 := lutNumPads1.read v
  op1 := lutOperand1.read v

/-- The arguments beside their fields. -/
def placed : List (Field 32 × Word) :=
  [(lutOperand0, a.op0), (lutNumPads0, a.pad0), (lutOpcode0, a.cmd0),
    (lutOperand1, a.op1), (lutNumPads1, a.pad1), (lutOpcode1, a.cmd1)]

lemma encode_eq_pack : a.encode = pack a.placed := by
  simp only [encode, flexspiLutSeq, placed, pack_cons, pack_nil, BitVec.or_zero, BitVec.or_assoc]

lemma decode_inRange (v : Word) : (decode v).InRange where
  cmd0 := lutOpcode0.toNat_read_lt v
  pad0 := lutNumPads0.toNat_read_lt v
  op0 := lutOperand0.toNat_read_lt v
  cmd1 := lutOpcode1.toNat_read_lt v
  pad1 := lutNumPads1.toNat_read_lt v
  op1 := lutOperand1.toNat_read_lt v

/-- **The fields do not disturb each other.** -/
theorem decode_encode : decode a.encode = a.reduced := by
  have hread : ∀ {f : Field 32} {x : Word}, (f, x) ∈ a.placed →
      (f.read a.encode).toNat = x.toNat % 2 ^ f.width := by
    intro f x h
    rw [encode_eq_pack]
    exact read_pack lutFields_disjoint h
  have hfield : ∀ {f : Field 32} {x m : Word}, (f, x) ∈ a.placed → m.toNat = 2 ^ f.width →
      f.read a.encode = x % m := by
    intro f x m h hm
    apply BitVec.eq_of_toNat_eq
    rw [hread h, BitVec.toNat_umod, hm]
  simp only [decode, reduced, mk.injEq]
  refine ⟨hfield ?_ rfl, hfield ?_ rfl, hfield ?_ rfl, hfield ?_ rfl, hfield ?_ rfl,
    hfield ?_ rfl⟩
  all_goals simp [placed]

variable {a}

lemma InRange.reduced (h : a.InRange) : a.reduced = a := by
  have hmod : ∀ {x : Word} (m : Word), x.toNat < m.toNat → x % m = x := by
    intro x m hlt
    apply BitVec.eq_of_toNat_eq
    rw [BitVec.toNat_umod, Nat.mod_eq_of_lt hlt]
  simp only [LutArgs.reduced, hmod 64#32 h.cmd0, hmod 4#32 h.pad0, hmod 256#32 h.op0,
    hmod 64#32 h.cmd1, hmod 4#32 h.pad1, hmod 256#32 h.op1]

/-- **A LUT word is the encoding of its fields.** -/
theorem encode_decode (v : Word) : (decode v).encode = v := by
  rw [encode_eq_pack]
  exact pack_read lutFields_cover v

/-- **The encoders agree** on arguments that fit. -/
theorem InRange.lut0_eq (h : a.InRange) :
    lut0 a.cmd0 a.pad0 a.op0 a.cmd1 a.pad1 a.op1 = a.encode := by
  have hplace : ∀ {x : Word} (f : Field 32), x.toNat < 2 ^ f.width → f.place x = x <<< f.shift :=
    fun f hx => f.place_of_lt _ hx
  simp only [encode, flexspiLutSeq, hplace lutOperand0 h.op0, hplace lutNumPads0 h.pad0,
    hplace lutOpcode0 h.cmd0, hplace lutOperand1 h.op1, hplace lutNumPads1 h.pad1,
    hplace lutOpcode1 h.cmd1]
  rw [lut0, instr_shift, instr]
  have hzero : a.op0 <<< lutOperand0.shift = a.op0 := BitVec.shiftLeft_zero _
  rw [hzero]
  change _ = a.op0 ||| a.pad0 <<< 8 ||| a.cmd0 <<< 10 ||| a.op1 <<< 16 ||| a.pad1 <<< 24 |||
    a.cmd1 <<< 26
  generalize a.pad0 <<< 8 = p0
  generalize a.cmd0 <<< 10 = c0
  generalize a.op1 <<< 16 = o1
  generalize a.pad1 <<< 24 = p1
  generalize a.cmd1 <<< 26 = c1
  ac_rfl

end LutArgs

end QspiTool
