import Mathlib.Logic.Function.Defs
import QspiTool.Device.Lut
import QspiTool.Driver.LutEncoding

/-!
# The LUT: its words and its contents

The instructions a LUT word can hold are the argument tuples that fit the fields, and
`FLEXSPI_LUT_SEQ` is a bijection from them onto the 32-bit words, with the fields of the word as
its inverse.  A larger argument is reduced to its field.  On arguments that fit, `LUT0` makes the
same word.

A run that begins with `QSPI_SetupLut` leaves the LUT locked after every call, with the tables of
its `QSPI_SetupLut` calls laid over the bytes from before the run.  A transfer keeps every byte
throughout, also when its watermark is so large that `write_blocking` stores behind `TFDR`, into the
LUT.
-/

namespace QspiTool

open Words Interaction Machine

/-! ## Words -/

/-- Two instructions as a LUT word can hold them. -/
abbrev InstructionPair := {a : LutArgs // a.InRange}

namespace InstructionPair

/-- The LUT word of the two instructions. -/
def word (p : InstructionPair) : Word := p.val.encode

/-- The two instructions of a LUT word. -/
def ofWord (v : Word) : InstructionPair := ⟨LutArgs.decode v, LutArgs.decode_inRange v⟩

lemma word_ofWord (v : Word) : (ofWord v).word = v := LutArgs.encode_decode v

lemma ofWord_word (p : InstructionPair) : ofWord p.word = p := by
  apply Subtype.ext
  exact p.val.decode_encode.trans p.property.reduced

/-- A LUT word holds exactly one pair of instructions. -/
lemma word_bijective : Function.Bijective word := by
  constructor
  · intro p q h
    rw [← ofWord_word p, h, ofWord_word q]
  · intro v
    exact ⟨ofWord v, word_ofWord v⟩

end InstructionPair

/-- **The encoding of LUT instructions.**  By the masks and shifts of the fields a word of
`FLEXSPI_LUT_SEQ` decodes to its arguments, each reduced to its field; on arguments that fit it is a
bijection onto the words, decoding and encoding a word again gives the word, and `LUT0` agrees. -/
theorem flexspiLutSeq_encodes :
    (∀ cmd0 pad0 op0 cmd1 pad1 op1 : Word,
      LutArgs.decode (flexspiLutSeq cmd0 pad0 op0 cmd1 pad1 op1) =
        ⟨cmd0 % 64#32, pad0 % 4#32, op0 % 256#32, cmd1 % 64#32, pad1 % 4#32, op1 % 256#32⟩) ∧
    Function.Bijective (fun p : InstructionPair =>
      flexspiLutSeq p.val.cmd0 p.val.pad0 p.val.op0 p.val.cmd1 p.val.pad1 p.val.op1) ∧
    (∀ v : Word, (LutArgs.decode v).InRange ∧ (LutArgs.decode v).encode = v) ∧
    ∀ p : InstructionPair,
      lut0 p.val.cmd0 p.val.pad0 p.val.op0 p.val.cmd1 p.val.pad1 p.val.op1 =
        flexspiLutSeq p.val.cmd0 p.val.pad0 p.val.op0 p.val.cmd1 p.val.pad1 p.val.op1 := by
  refine ⟨?_, InstructionPair.word_bijective, ?_, ?_⟩
  · intro cmd0 pad0 op0 cmd1 pad1 op1
    exact LutArgs.decode_encode ⟨cmd0, pad0, op0, cmd1, pad1, op1⟩
  · intro v
    exact ⟨LutArgs.decode_inRange v, LutArgs.encode_decode v⟩
  · intro p
    exact p.property.lut0_eq

/-- The first word of `test_lut`. -/
example : flexspiLutSeq 0x01#32 0x02#32 0x8F#32 0x09#32 0x02#32 0x0C#32 = 0x260C068F#32 := by
  decide

/-! ## Contents -/

/-- **The LUT holds what `QSPI_SetupLut` put there.** -/
theorem lut_contents {permits : Permits} {ctx : QspiContext} {s : Bus}
    {ms : List (Made Bus DeviceAction)} {b : Stage Bus DeviceAction}
    (h : History (commands permits ctx s) ms b) (hsetUp : SetUp ms) :
    b.state.dev.core.lutLocked = true ∧
    (∀ i < 512, lutByte b.state.dev.core i = laid ms (lutByte s.dev.core) i) ∧
    ∀ (call : Call) (c : Config bus Bus DeviceAction (QspiContext × Option Int)),
      call ≠ .init ∧ call ≠ .deInit → (∀ table len, call ≠ .setupLut table len) →
      (flexspi permits ctx.flexspi).Reach ⟨call.run b.ctx, b.state, b.trace⟩ c →
      ∀ i < 512, lutByte c.state.dev.core i = lutByte b.state.dev.core i := by
  have hstate := lutState_of_history h
  obtain ⟨hlocked, hbytes⟩ := hstate.holds hsetUp
  refine ⟨hlocked, hbytes, fun call c hcall hother hreach i hi => ?_⟩
  exact ((hstate.within hcall hother hreach).2 hsetUp).2 i hi

/-- The largest TX watermark, all other registers zero. -/
def wideWindow : Bus where
  dev := { Controller.reset with core := { Controller.reset.core with
    reg := Function.update (fun _ => 0#32) Reg.iptxfcr watermarkMask } }
  mem a := BitVec.ofNat 8 a

/-- A write of 132 bytes stores its last word at the offset of `LUT[0]`. -/
theorem lut_contents_wide_write :
    ∃ ms b, History (commands anyAction readyContext wideWindow) ms b ∧
      ms.map Made.call = [.setupLut 0x40 5, .transfer (.write 0#8) 0#32 0x80 132#64] ∧
      b.state.dev.core.lutLocked = true ∧
      ∀ i < 512, lutByte b.state.dev.core i = laid ms (lutByte wideWindow.dev.core) i := by
  obtain ⟨ms, b, hhistory, htest⟩ := Setting.exists_history
    (w := commands anyAction readyContext wideWindow)
    [(.setupLut 0x40 5, List.replicate 14 .prog),
      (.transfer (.write 0#8) 0#32 0x80 132#64,
        timed [(17, .raise (bit txEmpty)), (75, .raise (bit cmdDone))] 6)]
    (fun ms _ => decide (ms.map Made.call =
      [.setupLut 0x40 5, .transfer (.write 0#8) 0#32 0x80 132#64]))
    rfl (by simp [commands]) (by decide +kernel)
  have hcalls := of_decide_eq_true htest
  have hsetUp : SetUp ms := by
    obtain ⟨m, ms', rfl⟩ := List.exists_cons_of_ne_nil (l := ms) (by rintro rfl; cases hcalls)
    exact ⟨m, rfl, 0x40, 5, (List.cons.inj hcalls).1⟩
  obtain ⟨hlocked, hbytes, -⟩ := lut_contents hhistory hsetUp
  exact ⟨ms, b, hhistory, hcalls, hlocked, hbytes⟩

end QspiTool
