import Mathlib.Algebra.Group.Nat.Defs
import Mathlib.Tactic.Lemma

/-!
# 32-bit words, their flag bits and their bytes

The registers of a memory-mapped controller are 32-bit words: masks test and set single
bits, and a data word is four bytes, little-endian.  `bit n` is the mask `1 << n`; the
lemmas here turn mask expressions into statements about `getLsbD`, and the byte view of a
word into statements about a byte-addressed memory.
-/

namespace Words

/-- A register value. -/
abbrev Word := BitVec 32

abbrev Byte := BitVec 8

/-- The mask `1 << n`. -/
def bit (n : Nat) : Word := BitVec.twoPow 32 n

@[simp] lemma getLsbD_bit (m n : Nat) : (bit m).getLsbD n = (decide (m < 32) && decide (m = n)) :=
  BitVec.getLsbD_twoPow m n

/-- The C test `value & (1 << n)` reads bit `n`. -/
lemma and_bit_ne_zero (v : Word) {n : Nat} (hn : n < 32) :
    v &&& bit n ≠ 0#32 ↔ v.getLsbD n = true := by
  have hne : bit n ≠ 0#32 := by
    intro h
    have hbit := congrArg (fun w : Word => w.getLsbD n) h
    rw [getLsbD_bit] at hbit
    simp [hn] at hbit
  rw [bit, BitVec.and_twoPow, ← bit]
  split <;> simp_all

/-- Writing ones clears exactly the flags written. -/
lemma getLsbD_and_not (v m : Word) {n : Nat} (hn : n < 32) :
    (v &&& ~~~m).getLsbD n = (v.getLsbD n && !m.getLsbD n) := by
  simp [hn]

/-- The words differ at most in bit `n`. -/
def SameBut (n : Nat) (v w : Word) : Prop := ∀ i, i ≠ n → w.getLsbD i = v.getLsbD i

lemma SameBut.refl (n : Nat) (v : Word) : SameBut n v v := fun _ _ => rfl

lemma SameBut.trans {n : Nat} {u v w : Word} (h : SameBut n u v) (h' : SameBut n v w) :
    SameBut n u w :=
  fun i hi => (h' i hi).trans (h i hi)

lemma sameBut_or_bit (n : Nat) (v : Word) : SameBut n v (v ||| bit n) := by
  intro i hi
  simp [hi.symm]

/-- Byte `i` of a word, the lowest first. -/
def byteAt (v : Word) (i : Nat) : Byte := (v >>> (8 * i)).setWidth 8

/-- The word whose bytes are `b 0`, `b 1`, `b 2`, `b 3`, the lowest first. -/
def ofBytes (b : Nat → Byte) : Word := b 3 ++ (b 2 ++ (b 1 ++ b 0))

lemma byteAt_getLsbD (v : Word) (i : Nat) {n : Nat} (hn : n < 8) :
    (byteAt v i).getLsbD n = v.getLsbD (8 * i + n) := by
  simp [byteAt, hn]

lemma byteAt_ofBytes (b : Nat → Byte) {i : Nat} (hi : i < 4) : byteAt (ofBytes b) i = b i := by
  apply BitVec.eq_of_getLsbD_eq
  intro n hn
  rw [byteAt_getLsbD _ _ hn]
  simp only [ofBytes, BitVec.getLsbD_append]
  obtain rfl | rfl | rfl | rfl : i = 0 ∨ i = 1 ∨ i = 2 ∨ i = 3 := by omega
  · rw [if_pos (by omega), if_pos (by omega), if_pos (by omega)]
    congr 1
    omega
  · rw [if_pos (by omega), if_pos (by omega), if_neg (by omega)]
    congr 1
    omega
  · rw [if_pos (by omega), if_neg (by omega)]
    congr 1
    omega
  · rw [if_neg (by omega)]
    congr 1
    omega

/-- Two words with the same bytes are equal. -/
lemma eq_of_byteAt {v w : Word} (h : ∀ i < 4, byteAt v i = byteAt w i) : v = w := by
  apply BitVec.eq_of_getLsbD_eq
  intro n hn
  have hbyte := h (n / 8) (by omega)
  have hbit := congrArg (fun b => b.getLsbD (n % 8)) hbyte
  simp only [byteAt_getLsbD _ _ (Nat.mod_lt n (by decide : 0 < 8))] at hbit
  rwa [Nat.div_add_mod] at hbit

/-- A byte shifted into place, as the byte-gathering loops do it. -/
def placed (b : Byte) (j : Nat) : Word := b.setWidth 32 <<< (8 * j)

lemma byteAt_or (v w : Word) (i : Nat) : byteAt (v ||| w) i = byteAt v i ||| byteAt w i := by
  apply BitVec.eq_of_getLsbD_eq
  intro n hn
  simp [byteAt_getLsbD _ _ hn]

lemma byteAt_placed (b : Byte) {i j : Nat} (hi : i < 4) :
    byteAt (placed b j) i = if i = j then b else 0#8 := by
  apply BitVec.eq_of_getLsbD_eq
  intro n hn
  rw [byteAt_getLsbD _ _ hn]
  simp only [placed, BitVec.getLsbD_shiftLeft, BitVec.getLsbD_setWidth]
  obtain hlt | rfl | hgt := Nat.lt_trichotomy i j
  · rw [if_neg (by omega)]
    have : 8 * i + n < 8 * j := by omega
    simp [this]
  · rw [if_pos rfl, show 8 * i + n - 8 * i = n by omega]
    have h32 : 8 * i + n < 32 := by omega
    have hn32 : n < 32 := by omega
    simp [h32, hn32]
  · rw [if_neg (by omega)]
    have : 8 ≤ 8 * i + n - 8 * j := by omega
    simp [BitVec.getLsbD_of_ge b _ this]

/-- Replace byte `i` of a word. -/
def setByte (v : Word) (i : Nat) (b : Byte) : Word :=
  ofBytes fun j => if j = i then b else byteAt v j

/-- The bytes of a list of words, in order. -/
def bytesOf (ws : List Word) : List Byte :=
  ws.flatMap fun v => [byteAt v 0, byteAt v 1, byteAt v 2, byteAt v 3]

@[simp] lemma bytesOf_nil : bytesOf [] = [] := rfl

@[simp] lemma bytesOf_cons (v : Word) (ws : List Word) :
    bytesOf (v :: ws) = byteAt v 0 :: byteAt v 1 :: byteAt v 2 :: byteAt v 3 :: bytesOf ws := rfl

lemma getElem?_bytesOf (ws : List Word) (k : Nat) :
    (bytesOf ws)[k]? = ws[k / 4]?.map fun v => byteAt v (k % 4) := by
  induction ws generalizing k with
  | nil => simp
  | cons v ws ih =>
    match k with
    | 0 | 1 | 2 | 3 => rfl
    | k + 4 =>
      have hdiv : (k + 4) / 4 = k / 4 + 1 := by omega
      have hmod : (k + 4) % 4 = k % 4 := by omega
      simp only [bytesOf_cons, List.getElem?_cons_succ, hdiv, hmod]
      exact ih k

/-- The `n` bytes of a memory from `a` on. -/
def bytesAt (mem : Nat → Byte) (a n : Nat) : List Byte :=
  (List.range n).map fun k => mem (a + k)

lemma take_bytesOf_eq_iff (ws : List Word) (mem : Nat → Byte) (a n : Nat) :
    (bytesOf ws).take n = bytesAt mem a n ↔
      ∀ k < n, (ws[k / 4]?.map fun v => byteAt v (k % 4)) = some (mem (a + k)) := by
  constructor
  · intro h k hk
    have hget := congrArg (fun l => l[k]?) h
    simpa [List.getElem?_take, hk, getElem?_bytesOf, bytesAt] using hget
  · intro h
    apply List.ext_getElem?
    intro k
    by_cases hk : k < n
    · rw [List.getElem?_take, if_pos hk, getElem?_bytesOf, h k hk]
      simp [bytesAt, hk]
    · rw [List.getElem?_take, if_neg hk]
      simp [bytesAt, hk]

/-! ## Bytes and words of a memory -/

@[simp] lemma bytesOf_append (vs ws : List Word) : bytesOf (vs ++ ws) = bytesOf vs ++ bytesOf ws :=
  List.flatMap_append

lemma length_bytesOf (ws : List Word) : (bytesOf ws).length = 4 * ws.length := by
  induction ws with
  | nil => rfl
  | cons v ws ih =>
    simp only [bytesOf_cons, List.length_cons, ih]
    omega

lemma length_bytesAt (mem : Nat → Byte) (a n : Nat) : (bytesAt mem a n).length = n := by
  simp [bytesAt]

lemma bytesAt_add (mem : Nat → Byte) (a m n : Nat) :
    bytesAt mem a (m + n) = bytesAt mem a m ++ bytesAt mem (a + m) n := by
  simp [bytesAt, List.range_add, Nat.add_assoc]

/-- The word of memory at `a`. -/
def wordAt (mem : Nat → Byte) (a : Nat) : Word := ofBytes fun i => mem (a + i)

/-- The `n` words of memory from `a` on. -/
def wordsAt (mem : Nat → Byte) : (a n : Nat) → List Word
  | _, 0 => []
  | a, n + 1 => wordAt mem a :: wordsAt mem (a + 4) n

lemma length_wordsAt (mem : Nat → Byte) (a n : Nat) : (wordsAt mem a n).length = n := by
  induction n generalizing a with
  | zero => rfl
  | succ n ih => rw [wordsAt, List.length_cons, ih]

lemma wordsAt_add (mem : Nat → Byte) (a m n : Nat) :
    wordsAt mem a (m + n) = wordsAt mem a m ++ wordsAt mem (a + 4 * m) n := by
  induction m generalizing a with
  | zero => simp [wordsAt]
  | succ m ih =>
    have hshift : m + 1 + n = m + n + 1 := by omega
    have haddr : a + 4 + 4 * m = a + 4 * (m + 1) := by omega
    rw [hshift, wordsAt, wordsAt, ih, haddr, List.cons_append]

lemma bytesOf_wordAt (mem : Nat → Byte) (a : Nat) : bytesOf [wordAt mem a] = bytesAt mem a 4 := by
  simp only [bytesOf_cons, bytesOf_nil, wordAt, byteAt_ofBytes _ (by decide : (0 : Nat) < 4),
    byteAt_ofBytes _ (by decide : 1 < 4), byteAt_ofBytes _ (by decide : 2 < 4),
    byteAt_ofBytes _ (by decide : 3 < 4)]
  rfl

lemma bytesOf_wordsAt (mem : Nat → Byte) (a n : Nat) :
    bytesOf (wordsAt mem a n) = bytesAt mem a (4 * n) := by
  induction n generalizing a with
  | zero => rfl
  | succ n ih =>
    have hlen : 4 * (n + 1) = 4 + 4 * n := by omega
    rw [wordsAt, ← List.singleton_append, bytesOf_append, bytesOf_wordAt, ih, hlen, bytesAt_add]

/-- The word of the `n` bytes at `a`, filled up with zeros. -/
def partWord (mem : Nat → Byte) (a n : Nat) : Word :=
  ofBytes fun i => if i < n then mem (a + i) else 0#8

lemma bytesOf_partWord (mem : Nat → Byte) (a : Nat) {n : Nat} (hn : n < 4) :
    bytesOf [partWord mem a n] = bytesAt mem a n ++ List.replicate (4 - n) 0#8 := by
  simp only [bytesOf_cons, bytesOf_nil, partWord, byteAt_ofBytes _ (by decide : (0 : Nat) < 4),
    byteAt_ofBytes _ (by decide : 1 < 4), byteAt_ofBytes _ (by decide : 2 < 4),
    byteAt_ofBytes _ (by decide : 3 < 4)]
  obtain rfl | rfl | rfl | rfl : n = 0 ∨ n = 1 ∨ n = 2 ∨ n = 3 := by omega
  · rfl
  · rfl
  · rfl
  · rfl

/-- The words that carry the `n` bytes at `a`; the last one is filled up with zeros. -/
def packed (mem : Nat → Byte) (a n : Nat) : List Word :=
  wordsAt mem a (n / 4) ++ if n % 4 = 0 then [] else [partWord mem (a + 4 * (n / 4)) (n % 4)]

lemma length_packed (mem : Nat → Byte) (a n : Nat) : (packed mem a n).length = (n + 3) / 4 := by
  rw [packed, List.length_append, length_wordsAt]
  split
  · rw [List.length_nil]
    omega
  · rw [List.length_singleton]
    omega

/-- Whole words first. -/
lemma packed_words_add (mem : Nat → Byte) (a m n : Nat) :
    packed mem a (4 * m + n) = wordsAt mem a m ++ packed mem (a + 4 * m) n := by
  have hdiv : (4 * m + n) / 4 = m + n / 4 := by omega
  have hmod : (4 * m + n) % 4 = n % 4 := by omega
  have haddr : a + 4 * (m + n / 4) = a + 4 * m + 4 * (n / 4) := by omega
  rw [packed, packed, hdiv, hmod, wordsAt_add, haddr, List.append_assoc]

lemma packed_words (mem : Nat → Byte) (a m : Nat) : packed mem a (4 * m) = wordsAt mem a m := by
  have hdiv : 4 * m / 4 = m := by omega
  have hmod : 4 * m % 4 = 0 := by omega
  rw [packed, hdiv, if_pos hmod, List.append_nil]

lemma bytesOf_packed (mem : Nat → Byte) (a n : Nat) :
    bytesOf (packed mem a n) =
      bytesAt mem a n ++ List.replicate (4 * ((n + 3) / 4) - n) 0#8 := by
  have hsplit : bytesAt mem a n =
      bytesAt mem a (4 * (n / 4)) ++ bytesAt mem (a + 4 * (n / 4)) (n % 4) := by
    rw [← bytesAt_add, Nat.div_add_mod]
  rw [packed, bytesOf_append, bytesOf_wordsAt, hsplit, List.append_assoc]
  congr 1
  split <;> rename_i hrest
  · have hpad : 4 * ((n + 3) / 4) - n = 0 := by omega
    rw [hrest, hpad]
    rfl
  · have hpad : 4 * ((n + 3) / 4) - n = 4 - n % 4 := by omega
    rw [bytesOf_partWord _ _ (Nat.mod_lt n (by decide)), hpad]

/-- The bytes of the buffer are in the words. -/
lemma byteAt_packed (mem : Nat → Byte) (a : Nat) {n i : Nat} (h : i < n) :
    (packed mem a n)[i / 4]?.map (fun v => byteAt v (i % 4)) = some (mem (a + i)) := by
  rw [← getElem?_bytesOf, bytesOf_packed, List.getElem?_append_left (by rwa [length_bytesAt])]
  simp [bytesAt, h]

/-- Store some bytes from `a` on. -/
def storeBytes (mem : Nat → Byte) (a : Nat) (bs : List Byte) : Nat → Byte :=
  fun x => if a ≤ x then bs[x - a]?.getD (mem x) else mem x

@[simp] lemma storeBytes_nil (mem : Nat → Byte) (a : Nat) : storeBytes mem a [] = mem := by
  funext x
  simp [storeBytes]

lemma storeBytes_append (mem : Nat → Byte) (a : Nat) (bs cs : List Byte) :
    storeBytes (storeBytes mem a bs) (a + bs.length) cs = storeBytes mem a (bs ++ cs) := by
  funext x
  simp only [storeBytes]
  by_cases hfirst : a + bs.length ≤ x
  · have hle : a ≤ x := by omega
    have hindex : x - (a + bs.length) = x - a - bs.length := by omega
    have hout : bs[x - a]? = none := List.getElem?_eq_none (by omega)
    rw [if_pos hfirst, if_pos hle, if_pos hle, hout, List.getElem?_append_right (by omega), hindex,
      Option.getD_none]
  · rw [if_neg hfirst]
    by_cases hle : a ≤ x
    · rw [if_pos hle, if_pos hle, List.getElem?_append_left (by omega)]
    · rw [if_neg hle, if_neg hle]

/-- The bytes of some words, then the first bytes of some more. -/
lemma storeBytes_bytesOf_append (mem : Nat → Byte) (a : Nat) (vs ws : List Word) (n : Nat) :
    storeBytes (storeBytes mem a (bytesOf vs)) (a + 4 * vs.length) ((bytesOf ws).take n) =
      storeBytes mem a ((bytesOf (vs ++ ws)).take (4 * vs.length + n)) := by
  rw [bytesOf_append, ← length_bytesOf, List.take_length_add_append, storeBytes_append]

/-- Outside the bytes stored, memory is as before. -/
lemma storeBytes_of_not_mem (mem : Nat → Byte) {a : Nat} {bs : List Byte} {x : Nat}
    (h : x < a ∨ a + bs.length ≤ x) : storeBytes mem a bs x = mem x := by
  unfold storeBytes
  split
  · rw [List.getElem?_eq_none (by omega), Option.getD_none]
  · rfl

/-- The bytes stored are there. -/
lemma getElem?_of_storeBytes (mem : Nat → Byte) (a : Nat) {bs : List Byte} {i : Nat}
    (h : i < bs.length) : bs[i]? = some (storeBytes mem a bs (a + i)) := by
  have hindex : a + i - a = i := by omega
  rw [storeBytes, if_pos (Nat.le_add_right a i), hindex, List.getElem?_eq_getElem h,
    Option.getD_some]

end Words
