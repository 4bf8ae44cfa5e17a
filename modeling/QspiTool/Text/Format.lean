import Mathlib.Algebra.GroupWithZero.Nat
import Mathlib.Data.List.Basic
import Mathlib.Tactic.Lemma

/-!
# C strings and their formats

A `Text` is the characters of a C string before the terminating zero.  `CStr n` is a string that
a buffer of `n` bytes holds: the terminator has to fit too, so an overfull buffer cannot be built,
and `snprintf` is the one way to fill it, which cuts off what does not fit.

`decimal w` is `%0wd`.  It loses nothing (`decimal_injective`), and since it prints only digits
fields that are kept apart by another character can be read back (`decimal_append_inj`), as can
lines with a terminator behind each (`terminated_inj`).
-/

namespace CText

/-- The characters of a C string. -/
abbrev Text := List Char

/-! ## Bounded strings -/

/-- A string in a buffer of `n` bytes. -/
structure CStr (n : Nat) where
  text : Text
  fits : text.length < n
  deriving DecidableEq

namespace CStr

variable {n : Nat}

/-- The empty string. -/
def empty (n : Nat) [NeZero n] : CStr n := ⟨[], Nat.pos_of_neZero n⟩

/-- `snprintf(buffer, n, "%s", text)`. -/
def snprintf (n : Nat) [NeZero n] (text : Text) : CStr n :=
  ⟨text.take (n - 1), by
    have hn := Nat.pos_of_neZero n
    simp only [List.length_take]
    omega⟩

lemma snprintf_text [NeZero n] {text : Text} (h : text.length < n) :
    (snprintf n text).text = text :=
  List.take_of_length_le (by omega)

@[simp] lemma empty_text [NeZero n] : (empty n).text = [] := rfl

end CStr

/-! ## Fields -/

/-- A text is cut at its first `c`. -/
lemma cut_inj {c : Char} {x y r s : Text} (hx : c ∉ x) (hy : c ∉ y)
    (h : x ++ c :: r = y ++ c :: s) : x = y ∧ r = s := by
  have hcut : ∀ {z u : Text}, c ∉ z → (z ++ c :: u).takeWhile (· ≠ c) = z := by
    intro z u hz
    rw [List.takeWhile_append_of_pos, List.takeWhile_cons_of_neg (by simp), List.append_nil]
    rintro a ha
    exact decide_eq_true (ne_of_mem_of_not_mem ha hz)
  have hxy : x = y := by rw [← hcut (u := r) hx, h, hcut hy]
  rw [hxy] at h
  exact ⟨hxy, (List.cons.inj (List.append_cancel_left h)).2⟩

/-! ## Decimal numbers -/

/-- `%0wd` for a number that is not negative. -/
def decimal (w n : Nat) : Text := (Nat.toDigits 10 n).leftpad w '0'

/-- `%0wX`. -/
def hex (w n : Nat) : Text := ((Nat.toDigits 16 n).map Char.toUpper).leftpad w '0'

/-- `%d`. -/
def signed (n : Int) : Text :=
  if n < 0 then '-' :: decimal 0 n.natAbs else decimal 0 n.natAbs

lemma ofDigitChars_decimal (w n : Nat) : Nat.ofDigitChars 10 (decimal w n) 0 = n := by
  rw [decimal, List.leftpad, Nat.ofDigitChars_append, Nat.ofDigitChars_replicate_zero,
    Nat.mul_zero, Nat.ofDigitChars_ten_toDigits]

/-- A padded number can be read back. -/
lemma decimal_injective (w : Nat) : Function.Injective (decimal w) := by
  intro n m h
  rw [← ofDigitChars_decimal w n, h, ofDigitChars_decimal]

lemma isDigit_of_mem_decimal {w n : Nat} {c : Char} (h : c ∈ decimal w n) : c.isDigit := by
  rcases List.mem_append.mp h with hpad | hdigit
  · rw [List.eq_of_mem_replicate hpad]
    rfl
  · exact Nat.isDigit_of_mem_toDigits (by decide) (by decide) hdigit

/-- A number of at most `k` digits, in a field of at most `k`. -/
lemma length_decimal_le {w n k : Nat} (hk : 0 < k) (hw : w ≤ k) (hn : n < 10 ^ k) :
    (decimal w n).length ≤ k := by
  have hdigits := (Nat.length_toDigits_le_iff (by decide) hk).mpr hn
  rw [decimal, List.leftpad, List.length_append, List.length_replicate]
  omega

/-- Numbers kept apart by a character that is no digit can be read back. -/
lemma decimal_append_inj {w n m : Nat} {c : Char} (hc : c.isDigit = false) {r s : Text}
    (h : decimal w n ++ c :: r = decimal w m ++ c :: s) : n = m ∧ r = s := by
  have hapart : ∀ k, c ∉ decimal w k := by
    intro k hmem
    rw [isDigit_of_mem_decimal hmem] at hc
    cases hc
  obtain ⟨hdigits, hrest⟩ := cut_inj (hapart n) (hapart m) h
  exact ⟨decimal_injective w hdigits, hrest⟩

/-! ## Lines -/

/-- Lines without `c`, a `c` behind each. -/
def terminated (c : Char) (lines : List Text) : Text := (lines.map (· ++ [c])).flatten

lemma terminated_cons (c : Char) (line : Text) (lines : List Text) :
    terminated c (line :: lines) = line ++ c :: terminated c lines := by
  simp [terminated]

/-- Lines can be read back from what they make together. -/
lemma terminated_inj {c : Char} {lines lines' : List Text} (hc : ∀ line ∈ lines, c ∉ line)
    (hc' : ∀ line ∈ lines', c ∉ line) (h : terminated c lines = terminated c lines') :
    lines = lines' := by
  induction lines generalizing lines' with
  | nil =>
    cases lines' with
    | nil => rfl
    | cons line' lines' => simp [terminated] at h
  | cons line lines ih =>
    cases lines' with
    | nil => simp [terminated] at h
    | cons line' lines' =>
      rw [terminated_cons, terminated_cons] at h
      rw [List.forall_mem_cons] at hc hc'
      obtain ⟨rfl, hrest⟩ := cut_inj hc.1 hc'.1 h
      rw [ih hc.2 hc'.2 hrest]

end CText
