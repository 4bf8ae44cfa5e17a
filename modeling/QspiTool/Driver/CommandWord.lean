import QspiTool.Driver.Transfer
import QspiTool.Fields

/-!
# The fields of `IPCR1`

`transfer_blocking` puts the data size, the sequence index and the sequence number of a transfer
into one word with shifts and no masks.  Each value fits its field, the sequence number because it
is at the upper end of the word, so none disturbs another.
-/

namespace QspiTool

open Words

/-- A field of `IPCR1`: the bits that a value of `width` bits takes when it is shifted. -/
def ipcr1Field (mask : Word) (shift width : Nat)
    (h : shift + width ≤ 32 ∧ ∀ n : Fin 32,
      mask.getLsbD n = decide (shift ≤ n.val ∧ n.val < shift + width)) : Field 32 :=
  ⟨mask, shift, width, h.1, h.2⟩

/-- The bytes of data the command moves. -/
def ipcr1DataSize : Field 32 := ipcr1Field 0xFFFF#32 0 16 (by decide)

/-- The first sequence of the command. -/
def ipcr1SeqIndex : Field 32 := ipcr1Field 0xFF0000#32 16 8 (by decide)

/-- How many sequences follow the first. -/
def ipcr1SeqNumber : Field 32 := ipcr1Field 0xFF000000#32 24 8 (by decide)

def ipcr1Fields : List (Field 32) := [ipcr1DataSize, ipcr1SeqIndex, ipcr1SeqNumber]

lemma ipcr1Fields_disjoint : ipcr1Fields.Pairwise Field.Disjoint := by decide

variable {xfer : FlexspiTransfer}

lemma configValue_eq_pack (h : xfer.cmdType ≠ .command) :
    configValue xfer = pack [(ipcr1DataSize, xfer.dataSize.setWidth 32),
      (ipcr1SeqIndex, xfer.seqIndex.setWidth 32),
      (ipcr1SeqNumber, xfer.seqNumber.setWidth 32 - 1#32)] := by
  have hdata : ipcr1DataSize.place (xfer.dataSize.setWidth 32) = xfer.dataSize.setWidth 32 := by
    rw [Field.place_of_lt _ _ (by
      rw [BitVec.toNat_setWidth]
      exact Nat.lt_of_le_of_lt (Nat.mod_le _ _) xfer.dataSize.isLt)]
    exact BitVec.shiftLeft_zero _
  have hindex : ipcr1SeqIndex.place (xfer.seqIndex.setWidth 32) =
      xfer.seqIndex.setWidth 32 <<< 16 := by
    apply Field.place_of_lt
    rw [BitVec.toNat_setWidth]
    exact Nat.lt_of_le_of_lt (Nat.mod_le _ _) xfer.seqIndex.isLt
  have hnumber : ipcr1SeqNumber.place (xfer.seqNumber.setWidth 32 - 1#32) =
      (xfer.seqNumber.setWidth 32 - 1#32) <<< 24 := Field.place_of_top _ _ rfl
  simp only [pack_cons, pack_nil, BitVec.or_zero, hdata, hindex, hnumber]
  unfold configValue
  cases hkind : xfer.cmdType with
  | command => exact absurd hkind h
  | _ => rfl

lemma read_ipcr1DataSize (h : xfer.cmdType ≠ .command) :
    (ipcr1DataSize.read (configValue xfer)).toNat = xfer.dataSize.toNat := by
  have hlt := xfer.dataSize.isLt
  rw [configValue_eq_pack h, read_pack ipcr1Fields_disjoint (.head _), BitVec.toNat_setWidth]
  change _ % 2 ^ 32 % 2 ^ 16 = _
  omega

lemma read_ipcr1SeqIndex (h : xfer.cmdType ≠ .command) :
    (ipcr1SeqIndex.read (configValue xfer)).toNat = xfer.seqIndex.toNat := by
  have hlt := xfer.seqIndex.isLt
  rw [configValue_eq_pack h, read_pack ipcr1Fields_disjoint (.tail _ (.head _)),
    BitVec.toNat_setWidth]
  change _ % 2 ^ 32 % 2 ^ 8 = _
  omega

/-- A sequence number of zero would wrap around. -/
lemma read_ipcr1SeqNumber (h : xfer.cmdType ≠ .command) (hnumber : 1 ≤ xfer.seqNumber.toNat) :
    (ipcr1SeqNumber.read (configValue xfer)).toNat = xfer.seqNumber.toNat - 1 := by
  have hlt := xfer.seqNumber.isLt
  have hwide : (xfer.seqNumber.setWidth 32).toNat = xfer.seqNumber.toNat := by
    rw [BitVec.toNat_setWidth]
    omega
  have hsub : (xfer.seqNumber.setWidth 32 - 1#32).toNat = xfer.seqNumber.toNat - 1 := by
    rw [BitVec.toNat_sub_of_le (by rw [BitVec.le_def, hwide]; exact hnumber), hwide]
    rfl
  rw [configValue_eq_pack h, read_pack ipcr1Fields_disjoint (.tail _ (.tail _ (.head _))), hsub]
  change _ % 2 ^ 8 = _
  omega

end QspiTool
