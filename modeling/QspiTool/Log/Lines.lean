import QspiTool.Log.Effects

/-!
# Nothing but a message is cut off

`slog.c` prints the parts of a line and the path of a file into buffers of fixed size.  Each part
has a longest text, and the buffers are larger: the tag, the date, the thread and what they make
together (`slogDateText_text`, `slogCreateTag_text`, `length_infoText_lt`), and the path
(`slogFileName_fits`).
-/

namespace QspiTool

open CText

/-! ## Numbers -/

lemma length_decimal_byte {w : Nat} (hw : w ≤ 3) (b : BitVec 8) :
    (decimal w b.toNat).length ≤ 3 :=
  length_decimal_le (by decide) hw (Nat.lt_trans b.isLt (by decide))

lemma length_decimal_half {w : Nat} (hw : w ≤ 5) (h : BitVec 16) :
    (decimal w h.toNat).length ≤ 5 :=
  length_decimal_le (by decide) hw (Nat.lt_trans h.isLt (by decide))

/-! ## The parts of a line -/

lemma length_dateText_lt (cfg : SlogConfig) (date : SlogDate) :
    (dateText cfg date).length < 40 := by
  have hhour := length_decimal_byte (w := 2) (by decide) date.nHour
  have hmin := length_decimal_byte (w := 2) (by decide) date.nMin
  have hsec := length_decimal_byte (w := 2) (by decide) date.nSec
  have husec := length_decimal_half (w := 3) (by decide) date.nUsec
  have hyear := length_decimal_half (w := 4) (by decide) date.nYear
  have hmonth := length_decimal_byte (w := 2) (by decide) date.nMonth
  have hday := length_decimal_byte (w := 2) (by decide) date.nDay
  unfold dateText
  cases cfg.eDateControl <;> simp <;> omega

lemma slogDateText_text (cfg : SlogConfig) (date : SlogDate) :
    (slogDateText cfg date).text = dateText cfg date := by
  have hlength := length_dateText_lt cfg date
  unfold slogDateText dateText at *
  cases hdate : cfg.eDateControl <;> simp only [hdate] at hlength ⊢
  · rfl
  · exact CStr.snprintf_text (Nat.lt_trans hlength (by decide))
  · exact CStr.snprintf_text (Nat.lt_trans hlength (by decide))

lemma length_slogGetIndent_le (cfg : SlogConfig) (eFlag : BitVec 32) :
    (slogGetIndent cfg eFlag).length ≤ 7 := by
  unfold slogGetIndent
  split_ifs <;> decide

lemma length_slogGetColor_le (eFlag : BitVec 32) : (slogGetColor eFlag).length ≤ 5 := by
  unfold slogGetColor
  split_ifs <;> decide

lemma length_slogGetTag_le {eFlag : BitVec 32} {tag : Text} (h : slogGetTag eFlag = some tag) :
    tag.length ≤ 5 := by
  unfold slogGetTag at h
  split_ifs at h <;> obtain rfl := Option.some.inj h <;> decide

lemma length_tagText_lt (cfg : SlogConfig) (eFlag : BitVec 32) :
    (tagText cfg eFlag).length < 32 := by
  have hindent := length_slogGetIndent_le cfg eFlag
  have hcolor := length_slogGetColor_le eFlag
  have hreset : slogColorReset.length = 4 := by decide
  unfold tagText
  cases htag : slogGetTag eFlag with
  | none =>
    dsimp only
    omega
  | some tag =>
    have hlength := length_slogGetTag_le htag
    dsimp only
    split_ifs <;> simp <;> omega

lemma slogCreateTag_text (cfg : SlogConfig) (eFlag : BitVec 32) :
    (slogCreateTag cfg eFlag (slogGetColor eFlag)).text = tagText cfg eFlag := by
  have hlength := length_tagText_lt cfg eFlag
  unfold slogCreateTag tagText at *
  cases htag : slogGetTag eFlag with
  | none =>
    simp only [htag] at hlength ⊢
    exact CStr.snprintf_text hlength
  | some tag =>
    simp only [htag] at hlength ⊢
    split_ifs at hlength ⊢
    · exact CStr.snprintf_text hlength
    · exact CStr.snprintf_text hlength

lemma length_tidText_lt (cfg : SlogConfig) (tid : BitVec 64) :
    (tidText cfg tid).length < 32 := by
  have hdigits : (decimal 0 tid.toNat).length ≤ 20 :=
    length_decimal_le (by decide) (by decide) (Nat.lt_trans tid.isLt (by decide))
  unfold tidText
  split_ifs
  · simp
    omega
  · decide

/-- What stands before the message fits into its buffer. -/
lemma length_infoText_lt (cfg : SlogConfig) (ctx : SlogContext) (tid : BitVec 64) :
    (infoText cfg ctx tid).length < slogInfoMax := by
  have htid := length_tidText_lt cfg tid
  have hdate := length_dateText_lt cfg ctx.date
  have htag := length_tagText_lt cfg ctx.eFlag
  have hcolor : (if cfg.eColorFormat = .full then slogGetColor ctx.eFlag else []).length ≤ 5 := by
    split_ifs
    · exact length_slogGetColor_le ctx.eFlag
    · decide
  have hroom : slogInfoMax = 512 := rfl
  simp only [infoText, List.length_append]
  omega

/-! ## The path of a file -/

/-- The longest path: 2047 characters of directory, 255 of name, 19 of separators and date. -/
abbrev longestPath : Nat := 2321

lemma length_slogFileName_le (cfg : SlogConfig) (date : SlogDate) :
    (slogFileName cfg date).length ≤ longestPath := by
  have hpath : cfg.sFilePath.text.length < 2048 := cfg.sFilePath.fits
  have hname : cfg.sFileName.text.length < 256 := cfg.sFileName.fits
  have hyear := length_decimal_half (w := 4) (by decide) date.nYear
  have hmonth := length_decimal_byte (w := 2) (by decide) date.nMonth
  have hday := length_decimal_byte (w := 2) (by decide) date.nDay
  have hlongest : longestPath = 2321 := rfl
  simp [slogFileName]
  omega

/-- A path is never cut off. -/
lemma slogFileName_fits (cfg : SlogConfig) (date : SlogDate) :
    (CStr.snprintf slogFilePathMax (slogFileName cfg date)).text = slogFileName cfg date :=
  CStr.snprintf_text (Nat.lt_of_le_of_lt (length_slogFileName_le cfg date) (by decide))

/-- The date of a path can be read back. -/
lemma slogFileName_inj {cfg : SlogConfig} {date date' : SlogDate} :
    slogFileName cfg date = slogFileName cfg date' ↔
      date.nYear = date'.nYear ∧ date.nMonth = date'.nMonth ∧ date.nDay = date'.nDay := by
  constructor
  · intro h
    have hdate := List.append_cancel_left h
    simp only [List.append_assoc] at hdate
    obtain ⟨hyear, hrest⟩ := decimal_append_inj (by decide) hdate
    obtain ⟨hmonth, hrest⟩ := decimal_append_inj (by decide) hrest
    obtain ⟨hday, -⟩ := decimal_append_inj (by decide) hrest
    exact ⟨BitVec.eq_of_toNat_eq hyear, BitVec.eq_of_toNat_eq hmonth, BitVec.eq_of_toNat_eq hday⟩
  · rintro ⟨hyear, hmonth, hday⟩
    rw [slogFileName, slogFileName, hyear, hmonth, hday]

end QspiTool
