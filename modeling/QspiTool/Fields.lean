import Mathlib.Algebra.Group.Nat.Defs
import Mathlib.Tactic.Lemma

/-!
# Bit fields of a word

A `Field` of a `w`-bit word is given the way a register header gives it, by a mask and a shift;
`place` brings a value into the field and `read` takes it out.  A value that is too large loses
its high bits and nothing else happens, because the mask is applied after the shift.

`pack` puts several fields side by side.  When they are pairwise disjoint each is read back
(`read_pack`), and when they cover the word they say all about it (`pack_read`).
-/

namespace Words

/-- A field of a `w`-bit word: the `width` bits from bit `shift` on. -/
structure Field (w : Nat) where
  mask : BitVec w
  shift : Nat
  width : Nat
  fits : shift + width ≤ w
  covers : ∀ n : Fin w, mask.getLsbD n = decide (shift ≤ n.val ∧ n.val < shift + width)

namespace Field

variable {w : Nat} (f g : Field w) (x v : BitVec w)

/-- Bit `n` of the word belongs to the field. -/
def Has (n : Nat) : Prop := f.shift ≤ n ∧ n < f.shift + f.width

instance (n : Nat) : Decidable (f.Has n) := inferInstanceAs (Decidable (_ ∧ _))

/-- No bit belongs to both. -/
def Disjoint : Prop := f.shift + f.width ≤ g.shift ∨ g.shift + g.width ≤ f.shift

instance : Decidable (f.Disjoint g) := inferInstanceAs (Decidable (_ ∨ _))

/-- `(x << SHIFT) & MASK`. -/
def place : BitVec w := (x <<< f.shift) &&& f.mask

/-- `(v & MASK) >> SHIFT`. -/
def read : BitVec w := (v &&& f.mask) >>> f.shift

lemma getLsbD_mask (n : Nat) : f.mask.getLsbD n = decide (f.Has n) := by
  have hfits := f.fits
  by_cases hn : n < w
  · exact f.covers ⟨n, hn⟩
  · rw [BitVec.getLsbD_of_ge _ _ (Nat.not_lt.mp hn)]
    apply (decide_eq_false ?_).symm
    unfold Has
    omega

lemma getLsbD_place (n : Nat) :
    (f.place x).getLsbD n = (decide (f.Has n) && x.getLsbD (n - f.shift)) := by
  have hfits := f.fits
  rw [place, BitVec.getLsbD_and, getLsbD_mask, BitVec.getLsbD_shiftLeft]
  by_cases hn : f.Has n
  · obtain ⟨hle, hlt⟩ := hn
    have hw : n < w := by omega
    have hnot : ¬ n < f.shift := Nat.not_lt.mpr hle
    simp [Has, hle, hlt, hw, hnot]
  · simp [hn]

lemma getLsbD_read (n : Nat) :
    (f.read v).getLsbD n = (decide (n < f.width) && v.getLsbD (f.shift + n)) := by
  rw [read, BitVec.getLsbD_ushiftRight, BitVec.getLsbD_and, getLsbD_mask, Bool.and_comm]
  congr 1
  apply decide_eq_decide.mpr
  unfold Has
  omega

lemma read_or (u : BitVec w) : f.read (u ||| v) = f.read u ||| f.read v := by
  apply BitVec.eq_of_getLsbD_eq
  intro n _
  simp only [BitVec.getLsbD_or, getLsbD_read, Bool.and_or_distrib_left]

@[simp] lemma read_zero : f.read 0#w = 0#w := by
  simp [read]

/-- What comes out of a field is what was brought in, up to its width. -/
lemma toNat_read_place : (f.read (f.place x)).toNat = x.toNat % 2 ^ f.width := by
  have hfits := f.fits
  apply Nat.eq_of_testBit_eq
  intro n
  rw [Nat.testBit_mod_two_pow, ← BitVec.getLsbD, ← BitVec.getLsbD, getLsbD_read, getLsbD_place]
  by_cases hn : n < f.width
  · have hhas : f.Has (f.shift + n) := ⟨Nat.le_add_right _ _, Nat.add_lt_add_left hn _⟩
    simp [hn, hhas]
  · simp [hn]

lemma toNat_read_lt : (f.read v).toNat < 2 ^ f.width := by
  apply Nat.lt_pow_two_of_testBit
  intro n hn
  rw [← BitVec.getLsbD, getLsbD_read, decide_eq_false (Nat.not_lt.mpr hn), Bool.false_and]

/-- A field as a number. -/
lemma toNat_read : (f.read v).toNat = v.toNat / 2 ^ f.shift % 2 ^ f.width := by
  apply Nat.eq_of_testBit_eq
  intro n
  rw [Nat.testBit_mod_two_pow, Nat.testBit_div_two_pow, ← BitVec.getLsbD, ← BitVec.getLsbD,
    getLsbD_read, Nat.add_comm]

/-- A value that is not too large needs no mask. -/
lemma place_of_lt (hx : x.toNat < 2 ^ f.width) : f.place x = x <<< f.shift := by
  have hfits := f.fits
  apply BitVec.eq_of_getLsbD_eq
  intro n hn
  rw [getLsbD_place, BitVec.getLsbD_shiftLeft]
  by_cases hlow : n < f.shift
  · have hnot : ¬ f.Has n := fun h => absurd h.1 (Nat.not_le.mpr hlow)
    simp [hnot, hlow]
  · by_cases hhigh : n < f.shift + f.width
    · have hhas : f.Has n := ⟨Nat.not_lt.mp hlow, hhigh⟩
      simp [hhas, hn, hlow]
    · have hzero : x.getLsbD (n - f.shift) = false := by
        apply Nat.testBit_lt_two_pow
        exact Nat.lt_of_lt_of_le hx (Nat.pow_le_pow_right (by decide) (by omega))
      simp [hzero]

/-- In the highest field nothing needs a mask. -/
lemma place_of_top (htop : f.shift + f.width = w) : f.place x = x <<< f.shift := by
  apply BitVec.eq_of_getLsbD_eq
  intro n hn
  rw [getLsbD_place, BitVec.getLsbD_shiftLeft]
  by_cases hlow : n < f.shift
  · have hnot : ¬ f.Has n := fun h => absurd h.1 (Nat.not_le.mpr hlow)
    simp [hnot, hlow]
  · have hhas : f.Has n := ⟨Nat.not_lt.mp hlow, by omega⟩
    simp [hhas, hn, hlow]

variable {f g}

lemma read_place_of_disjoint (h : f.Disjoint g) : f.read (g.place x) = 0#w := by
  apply BitVec.eq_of_getLsbD_eq
  intro n _
  rw [getLsbD_read, getLsbD_place]
  by_cases hn : n < f.width
  · have hnot : ¬ g.Has (f.shift + n) := by
      unfold Disjoint at h
      unfold Has
      omega
    simp [hnot]
  · simp [hn]

lemma Disjoint.symm (h : f.Disjoint g) : g.Disjoint f := Or.symm h

end Field

/-! ## Fields side by side -/

variable {w : Nat}

/-- The word whose fields hold the given values. -/
def pack : List (Field w × BitVec w) → BitVec w
  | [] => 0#w
  | p :: l => p.1.place p.2 ||| pack l

@[simp] lemma pack_nil : pack ([] : List (Field w × BitVec w)) = 0#w := rfl

@[simp] lemma pack_cons (p : Field w × BitVec w) (l : List (Field w × BitVec w)) :
    pack (p :: l) = p.1.place p.2 ||| pack l := rfl

/-- What is packed beside a field does not show in it. -/
lemma read_pack_of_disjoint {f : Field w} {l : List (Field w × BitVec w)}
    (h : ∀ p ∈ l, f.Disjoint p.1) : f.read (pack l) = 0#w := by
  induction l with
  | nil => exact f.read_zero
  | cons p l ih =>
    obtain ⟨hp, hl⟩ := List.forall_mem_cons.mp h
    rw [pack_cons, Field.read_or, Field.read_place_of_disjoint _ hp, ih hl, BitVec.or_zero]

/-- **Each field is read back.** -/
theorem read_pack {l : List (Field w × BitVec w)}
    (hdisjoint : (l.map Prod.fst).Pairwise Field.Disjoint) {f : Field w} {x : BitVec w}
    (h : (f, x) ∈ l) : (f.read (pack l)).toNat = x.toNat % 2 ^ f.width := by
  induction l with
  | nil => cases h
  | cons p l ih =>
    obtain ⟨hp, hl⟩ := List.pairwise_cons.mp hdisjoint
    have hbeside : ∀ q ∈ l, p.1.Disjoint q.1 := fun q hq => hp q.1 (List.mem_map_of_mem hq)
    rw [pack_cons, Field.read_or]
    rcases List.mem_cons.mp h with rfl | h
    · rw [read_pack_of_disjoint hbeside, BitVec.or_zero, Field.toNat_read_place]
    · rw [Field.read_place_of_disjoint _ (hbeside _ h).symm, BitVec.zero_or, ih hl h]

lemma getLsbD_pack_read (fs : List (Field w)) (v : BitVec w) (n : Nat) :
    (pack (fs.map fun f => (f, f.read v))).getLsbD n =
      (decide (∃ f ∈ fs, f.Has n) && v.getLsbD n) := by
  induction fs with
  | nil => simp
  | cons f fs ih =>
    rw [List.map_cons, pack_cons, BitVec.getLsbD_or, ih, Field.getLsbD_place, Field.getLsbD_read]
    by_cases hn : f.Has n
    · have hlt : n - f.shift < f.width := by
        obtain ⟨hle, hlt⟩ := hn
        omega
      have hsum : f.shift + (n - f.shift) = n := Nat.add_sub_cancel' hn.1
      simp [hn, hlt, hsum]
    · simp [hn]

/-- **The fields say all about the word**, when they cover it. -/
theorem pack_read {fs : List (Field w)} (hcover : ∀ n < w, ∃ f ∈ fs, f.Has n) (v : BitVec w) :
    pack (fs.map fun f => (f, f.read v)) = v := by
  apply BitVec.eq_of_getLsbD_eq
  intro n hn
  rw [getLsbD_pack_read, decide_eq_true (hcover n hn), Bool.true_and]

end Words
