import QspiTool.Driver.Footprint
import QspiTool.Interaction.Logic

/-!
# The rounds of the data phase, on any machine

`write_blocking` and `read_blocking` on an arbitrary machine that keeps the callers' buffers: what
they store and load, round by round, whatever the device answers.

A run is read through its `marks`, the accesses to the FIFO windows, to `INTR` and to the watermark
registers.  The marks of a transfer are one `Round` after the other: the store of `clear_flags`, the
words at consecutive indices, the acknowledge.
-/

namespace QspiTool

open Words Interaction Machine

variable {σ A : Type}

/-! ## Buffers -/

/-- How a machine keeps the callers' buffers: little-endian, and out of the device's reach. -/
structure Buffers (M : Machine bus σ A) where
  bytes : σ → Nat → Byte
  read8 (a : Nat) (s : σ) : (M.exec (.read8 a) s).1 = bytes s a
  read32 (a : Nat) (s : σ) : (M.exec (.read32 a) s).1 = wordAt (bytes s) a
  write8 (a : Nat) (b : Byte) (s : σ) :
    bytes (M.exec (.write8 a b) s).2 = storeBytes (bytes s) a [b]
  write32 (a : Nat) (v : Word) (s : σ) :
    bytes (M.exec (.write32 a v) s).2 = storeBytes (bytes s) a (bytesOf [v])
  other (o : Access) (s : σ) : (∀ a b, o ≠ .write8 a b) → (∀ a v, o ≠ .write32 a v) →
    bytes (M.exec o s).2 = bytes s
  act (a : A) (s s' : σ) : M.act a s = some s' → bytes s' = bytes s

/-! ## Marks -/

/-- An access that tells how the data move. -/
inductive Mark
  /-- A load of `IPTXFCR`. -/
  | txLevel (v : Word)
  /-- A load of `IPRXFCR`. -/
  | rxLevel (v : Word)
  /-- A store to `IPTXFCR`. -/
  | txSet (v : Word)
  /-- A store to `IPRXFCR`. -/
  | rxSet (v : Word)
  /-- A store to `TFDR[i]`. -/
  | fill (i : Nat) (v : Word)
  /-- A load of `RFDR[i]`. -/
  | fetch (i : Nat) (v : Word)
  /-- A store to `INTR`. -/
  | ack (v : Word)
  deriving DecidableEq

/-- The index of the word at `a` in an array at `base`. -/
def wordIndex (base a : Nat) : Option Nat :=
  if a = base + 4 * ((a - base) / 4) then some ((a - base) / 4) else none

@[simp] lemma wordIndex_add (base i : Nat) : wordIndex base (base + 4 * i) = some i := by
  have hindex : (base + 4 * i - base) / 4 = i := by omega
  rw [wordIndex, hindex, if_pos rfl]

lemma eq_of_wordIndex {base a i : Nat} (h : wordIndex base a = some i) : a = base + 4 * i := by
  unfold wordIndex at h
  split at h <;> rename_i ha
  · rwa [Option.some.inj h] at ha
  · cases h

lemma wordIndex_of_lt {base a : Nat} (h : a < base) : wordIndex base a = none :=
  if_neg (by omega)

/-- The mark of an event. -/
def mark? (fspi : Nat) : Event bus A → Option Mark
  | .call (.load a) v =>
      if a = fspi + Reg.iptxfcr then some (.txLevel v)
      else if a = fspi + Reg.iprxfcr then some (.rxLevel v)
      else (wordIndex (fspi + Reg.rfdr 0) a).map fun i => .fetch i v
  | .call (.store a v) _ =>
      if a = fspi + Reg.intr then some (.ack v)
      else if a = fspi + Reg.iptxfcr then some (.txSet v)
      else if a = fspi + Reg.iprxfcr then some (.rxSet v)
      else (wordIndex (fspi + Reg.tfdr 0) a).map fun i => .fill i v
  | _ => none

/-- The marks of a run, oldest first. -/
def marks (fspi : Nat) (t : Trace bus A) : List Mark := t.filterMap (mark? fspi)

lemma marks_snoc (fspi : Nat) (t : Trace bus A) (e : Event bus A) :
    marks fspi (t ++ [e]) = marks fspi t ++ (mark? fspi e).toList := by
  rw [marks, List.filterMap_append, marks]
  rfl

section

variable {fspi : Nat} (v : Word)

/-- Registers at different offsets are at different addresses. -/
lemma offset_ne {off off' : Nat} (h : off ≠ off') : fspi + off ≠ fspi + off' :=
  fun heq => h (Nat.add_left_cancel heq)

lemma mark?_load_low {off : Nat} (h : off < 0x100) (htx : off ≠ Reg.iptxfcr)
    (hrx : off ≠ Reg.iprxfcr) : mark? (A := A) fspi (.call (.load (fspi + off)) v) = none := by
  rw [mark?, if_neg (offset_ne htx), if_neg (offset_ne hrx),
    wordIndex_of_lt (by simp only [Reg.rfdr]; omega)]
  rfl

lemma mark?_load_iprxfcr :
    mark? (A := A) fspi (.call (.load (fspi + Reg.iprxfcr)) v) = some (.rxLevel v) := by
  rw [mark?, if_neg (offset_ne (by decide)), if_pos rfl]

lemma mark?_load_rfdr (i : Nat) :
    mark? (A := A) fspi (.call (.load (fspi + Reg.rfdr i)) v) = some (.fetch i v) := by
  have haddr : fspi + Reg.rfdr i = fspi + Reg.rfdr 0 + 4 * i := by
    simp only [Reg.rfdr]
    omega
  rw [mark?, if_neg (offset_ne (Reg.rfdr_ne (by decide) i)),
    if_neg (offset_ne (Reg.rfdr_ne (by decide) i)), haddr, wordIndex_add]
  rfl

lemma mark?_store_iprxfcr :
    mark? (A := A) fspi (.call (.store (fspi + Reg.iprxfcr) v) ()) = some (.rxSet v) := by
  rw [mark?, if_neg (offset_ne (by decide)), if_neg (offset_ne (by decide)), if_pos rfl]

lemma mark?_store_status {off : Nat} (h : Reg.IsStatus off) :
    mark? (A := A) fspi (.call (.store (fspi + off) v) ()) = none := by
  obtain ⟨hle, hlt⟩ := h
  have hne : ∀ {off' : Nat}, off' < 0xE0 → off ≠ off' := fun h heq =>
    Nat.not_le_of_lt h (heq ▸ hle)
  rw [mark?, if_neg (offset_ne (hne (by decide))), if_neg (offset_ne (hne (by decide))),
    if_neg (offset_ne (hne (by decide))), wordIndex_of_lt (by simp only [Reg.tfdr]; omega)]
  rfl

lemma mark?_store_tfdr (i : Nat) :
    mark? (A := A) fspi (.call (.store (fspi + Reg.tfdr i) v) ()) = some (.fill i v) := by
  have haddr : fspi + Reg.tfdr i = fspi + Reg.tfdr 0 + 4 * i := by
    simp only [Reg.tfdr]
    omega
  rw [mark?, if_neg (offset_ne (Reg.tfdr_ne (by decide) i)),
    if_neg (offset_ne (Reg.tfdr_ne (by decide) i)), if_neg (offset_ne (Reg.tfdr_ne (by decide) i)),
    haddr, wordIndex_add]
  rfl

end

/-! ## Rounds -/

/-- Marks at consecutive indices. -/
def numbered (f : Nat → Word → Mark) : Nat → List Word → List Mark
  | _, [] => []
  | i, v :: vs => f i v :: numbered f (i + 1) vs

lemma numbered_append (f : Nat → Word → Mark) (i : Nat) (vs ws : List Word) :
    numbered f i (vs ++ ws) = numbered f i vs ++ numbered f (i + vs.length) ws := by
  induction vs generalizing i with
  | nil => rfl
  | cons v vs ih =>
    have hshift : i + 1 + vs.length = i + (vs.length + 1) := by omega
    rw [List.cons_append, numbered, ih, hshift, numbered, List.length_cons, List.cons_append]

/-- One round of a data loop: what `clear_flags` stores to `INTR`, the words moved, and what the
acknowledge stores to `INTR`. -/
structure Round where
  cleared : Word
  words : List Word
  pushed : Word

/-- The marks of a round; `f` is the access that moves a word. -/
def Round.marks (f : Nat → Word → Mark) (r : Round) : List Mark :=
  .ack r.cleared :: (numbered f 0 r.words ++ [.ack r.pushed])

/-- The words of some rounds, in order. -/
def stream (rounds : List Round) : List Word := rounds.flatMap Round.words

/-- `size` bytes in rounds of `n` words, each acknowledged with the flag: full rounds, and a last
one for the rest if there is one. -/
structure Chunked (n flag size : Nat) (rounds : List Round) : Prop where
  count : rounds.length = (size + (4 * n - 1)) / (4 * n)
  sizes : rounds.map (fun r => r.words.length) = List.replicate (size / (4 * n)) n ++
    if size % (4 * n) = 0 then [] else [(size % (4 * n) + 3) / 4]
  pushed : ∀ r ∈ rounds, r.pushed.getLsbD flag = true

lemma chunked_zero (n flag : Nat) (hn : 0 < n) : Chunked n flag 0 [] where
  count := by
    rw [List.length_nil, Nat.div_eq_of_lt (by omega)]
  sizes := by simp
  pushed := fun _ hr => absurd hr List.not_mem_nil

/-- The last round of a size that is no multiple of a full round. -/
lemma chunked_rest {n flag size : Nat} (hsize : size ≠ 0) (hlt : size < 4 * n) {r : Round}
    (hwords : r.words.length = (size + 3) / 4) (hpushed : r.pushed.getLsbD flag = true) :
    Chunked n flag size [r] where
  count := by
    have hdiv : (size + (4 * n - 1)) / (4 * n) = 1 :=
      Nat.div_eq_of_lt_le (by omega) (by omega)
    rw [hdiv, List.length_singleton]
  sizes := by
    simp [Nat.div_eq_of_lt hlt, Nat.mod_eq_of_lt hlt, hsize, hwords]
  pushed := by
    intro r' hr'
    rwa [List.mem_singleton.mp hr']

/-- A full round in front. -/
lemma Chunked.cons {n flag size : Nat} (hn : 0 < n) (hfull : 4 * n ≤ size) {rounds : List Round}
    (h : Chunked n flag (size - 4 * n) rounds) {r : Round} (hwords : r.words.length = n)
    (hpushed : r.pushed.getLsbD flag = true) : Chunked n flag size (r :: rounds) where
  count := by
    have hshift : size + (4 * n - 1) = size - 4 * n + (4 * n - 1) + 4 * n := by omega
    rw [List.length_cons, h.count, hshift, Nat.add_div_right _ (by omega)]
  sizes := by
    have hdiv : size / (4 * n) = (size - 4 * n) / (4 * n) + 1 :=
      Nat.div_eq_sub_div (by omega) hfull
    have hmod : size % (4 * n) = (size - 4 * n) % (4 * n) := Nat.mod_eq_sub_mod hfull
    rw [List.map_cons, h.sizes, hwords, hdiv, hmod, List.replicate_succ, List.cons_append]
  pushed := by
    intro r' hr'
    rcases List.mem_cons.mp hr' with rfl | hr'
    · exact hpushed
    · exact h.pushed r' hr'

/-- Rounds, taken apart: none, a last one, or a full one in front of the others. -/
lemma Chunked.induct {n flag : Nat} (hn : 0 < n) {C : Nat → List Round → Prop} (zero : C 0 [])
    (rest : ∀ size r, size ≠ 0 → size < 4 * n → r.words.length = (size + 3) / 4 →
      r.pushed.getLsbD flag = true → C size [r])
    (full : ∀ size r rounds, 4 * n ≤ size → r.words.length = n → r.pushed.getLsbD flag = true →
      C (size - 4 * n) rounds → C size (r :: rounds))
    {size : Nat} {rounds : List Round} (h : Chunked n flag size rounds) : C size rounds := by
  induction rounds generalizing size with
  | nil =>
    obtain rfl | hsize := Nat.eq_zero_or_pos size
    · exact zero
    · have hpos : 0 < (size + (4 * n - 1)) / (4 * n) := Nat.div_pos (by omega) (by omega)
      exact absurd h.count (Nat.ne_of_lt hpos)
  | cons r rounds ih =>
    have hpushed := h.pushed r List.mem_cons_self
    have hsizes := h.sizes
    rw [List.map_cons] at hsizes
    by_cases hfull : 4 * n ≤ size
    · have hdiv : size / (4 * n) = (size - 4 * n) / (4 * n) + 1 :=
        Nat.div_eq_sub_div (by omega) hfull
      rw [hdiv, Nat.mod_eq_sub_mod hfull, List.replicate_succ, List.cons_append] at hsizes
      obtain ⟨hwords, hrest⟩ := List.cons.inj hsizes
      refine full size r rounds hfull hwords hpushed (ih ⟨?_, hrest, fun r' hr' => ?_⟩)
      · have hcount := h.count
        have hshift : size + (4 * n - 1) = size - 4 * n + (4 * n - 1) + 4 * n := by omega
        rw [List.length_cons, hshift, Nat.add_div_right _ (by omega)] at hcount
        exact Nat.succ.inj hcount
      · exact h.pushed r' (List.mem_cons_of_mem r hr')
    · have hlt : size < 4 * n := Nat.lt_of_not_le hfull
      rw [Nat.div_eq_of_lt hlt, Nat.mod_eq_of_lt hlt, List.replicate_zero,
        List.nil_append] at hsizes
      split at hsizes <;> rename_i hsize
      · cases hsizes
      · obtain ⟨hwords, hnil⟩ := List.cons.inj hsizes
        obtain rfl := List.map_eq_nil_iff.mp hnil
        exact rest size r hsize hlt hwords hpushed

/-- All the rounds of a transfer move its bytes, in whole words. -/
lemma Chunked.length_stream {n flag size : Nat} {rounds : List Round}
    (h : Chunked n flag size rounds) : (stream rounds).length = (size + 3) / 4 := by
  have hsize := Nat.div_add_mod size (4 * n)
  rw [Nat.mul_assoc, Nat.mul_comm n] at hsize
  rw [stream, List.length_flatMap, h.sizes, List.sum_append, List.sum_replicate_nat]
  split <;> rename_i hrest
  · rw [List.sum_nil]
    omega
  · rw [List.sum_singleton]
    omega

/-! ## Rules -/

/-- The access keeps to the bytes from `lo` up to `hi` of the buffers, and is no failed
assertion. -/
def Confined (lo hi : Nat) : Head bus → Prop
  | .call (.read8 a) => lo ≤ a ∧ a < hi
  | .call (.write8 a _) => lo ≤ a ∧ a < hi
  | .call (.read32 a) => lo ≤ a ∧ a + 4 ≤ hi
  | .call (.write32 a _) => lo ≤ a ∧ a + 4 ≤ hi
  | .abort => False
  | _ => True

/-- The guarantee of the data loops. -/
abbrev confined (lo hi : Nat) : Head bus → Assertion bus σ A := fun d _ _ => Confined lo hi d

/-- The buffers hold `mem`, and the marks so far are `l`. -/
def Logged {M : Machine bus σ A} (D : Buffers M) (fspi : Nat) (mem : Nat → Byte) (l : List Mark) :
    Assertion bus σ A :=
  fun s t => D.bytes s = mem ∧ marks fspi t = l

variable {M : Machine bus σ A} {D : Buffers M} {fspi lo hi : Nat} {mem : Nat → Byte}
  {l : List Mark}

/-- Wherever a data loop is, it keeps to its bytes and to its wait. -/
lemma confined_of_reach {α : Type} {p : Driver α} {P : Assertion bus σ A}
    {Q : α → Assertion bus σ A} {w : BitWait} (h : M.Triple (confined lo hi) P p Q)
    (hw : p.Every (WaitsOnlyFor w)) {s : σ} {t : Trace bus A} (hs : P s t)
    {c : Config bus σ A α} (hreach : M.Reach ⟨p, s, t⟩ c) :
    Confined lo hi c.prog.head ∧ WaitsOnlyFor w c.prog.head := by
  by_cases hdone : c.prog.head = .done
  · rw [hdone]
    refine ⟨trivial, ?_⟩
    rintro v ⟨⟩
  · exact ⟨h.guarantee hs hreach hdone, every_reach hw hreach hdone⟩

lemma stable_logged : M.Stable (Logged D fspi mem l) := by
  intro a s s' t hs hact
  refine ⟨(D.act a s s' hact).trans hs.1, ?_⟩
  rw [marks_snoc, hs.2]
  exact List.append_nil l

/-- An access that leaves the buffers alone. -/
lemma op_logged {o : Access} {k : o.Res → Option Mark}
    (hmark : ∀ r, mark? (A := A) fspi (.call o r) = k r)
    (h8 : ∀ a b, o ≠ .write8 a b) (h32 : ∀ a v, o ≠ .write32 a v)
    (hG : Confined lo hi (.call o)) :
    M.Triple (confined lo hi) (Logged D fspi mem l) (Prog.op (S := bus) o)
      fun r => Logged D fspi mem (l ++ (k r).toList) := by
  apply Triple.op stable_logged (fun _ => stable_logged) (fun _ _ _ => hG)
  intro s t hs
  refine ⟨(D.other o s h8 h32).trans hs.1, ?_⟩
  rw [marks_snoc, hmark, hs.2]

lemma load_logged {off : Nat} {k : Word → Option Mark}
    (hmark : ∀ v, mark? (A := A) fspi (.call (.load (fspi + off)) v) = k v) :
    M.Triple (confined lo hi) (Logged D fspi mem l) (load (fspi + off))
      fun v => Logged D fspi mem (l ++ (k v).toList) :=
  op_logged (o := .load (fspi + off)) hmark (fun _ _ h => Access.noConfusion h)
    (fun _ _ h => Access.noConfusion h) trivial

lemma store_logged {off : Nat} {v : Word} {k : Option Mark}
    (hmark : mark? (A := A) fspi (.call (.store (fspi + off) v) ()) = k) :
    M.Triple (confined lo hi) (Logged D fspi mem l) (store (fspi + off) v)
      fun _ => Logged D fspi mem (l ++ k.toList) :=
  op_logged (o := .store (fspi + off) v) (fun _ => hmark) (fun _ _ h => Access.noConfusion h)
    (fun _ _ h => Access.noConfusion h) trivial

/-- A load without a mark. -/
lemma load_unmarked {off : Nat} (h : off < 0x100) (htx : off ≠ Reg.iptxfcr)
    (hrx : off ≠ Reg.iprxfcr) :
    M.Triple (confined lo hi) (Logged D fspi mem l) (load (fspi + off))
      fun _ => Logged D fspi mem l := by
  refine (load_logged fun v => mark?_load_low v h htx hrx).post fun v s t hs => ?_
  rwa [Option.toList_none, List.append_nil] at hs

/-- A store without a mark. -/
lemma store_unmarked {off : Nat} (h : Reg.IsStatus off) (v : Word) :
    M.Triple (confined lo hi) (Logged D fspi mem l) (store (fspi + off) v)
      fun _ => Logged D fspi mem l := by
  refine (store_logged (mark?_store_status v h)).post fun _ s t hs => ?_
  rwa [Option.toList_none, List.append_nil] at hs

/-- A store to `INTR`. -/
lemma store_ack (v : Word) :
    M.Triple (confined lo hi) (Logged D fspi mem l) (store (fspi + Reg.intr) v)
      fun _ => Logged D fspi mem (l ++ [.ack v]) :=
  store_logged (k := some (.ack v)) (if_pos rfl)

lemma read32_logged {a : Nat} (hlo : lo ≤ a) (hhi : a + 4 ≤ hi) :
    M.Triple (confined lo hi) (Logged D fspi mem l) (read32 a) fun v s t =>
      Logged D fspi mem l s t ∧ v = wordAt mem a := by
  apply Triple.op (S := bus) (o := .read32 a) stable_logged
    (fun _ => stable_and_const stable_logged _) (fun _ _ _ => ⟨hlo, hhi⟩)
  rintro s t ⟨hmem, hmarks⟩
  refine ⟨⟨?_, ?_⟩, (D.read32 a s).trans (by rw [hmem])⟩
  · exact (D.other _ s (fun _ _ h => Access.noConfusion h) fun _ _ h =>
      Access.noConfusion h).trans hmem
  · rw [marks_snoc, hmarks]
    exact List.append_nil l

lemma read8_logged {a : Nat} (hlo : lo ≤ a) (hhi : a < hi) :
    M.Triple (confined lo hi) (Logged D fspi mem l) (read8 a) fun b s t =>
      Logged D fspi mem l s t ∧ b = mem a := by
  apply Triple.op (S := bus) (o := .read8 a) stable_logged
    (fun _ => stable_and_const stable_logged _) (fun _ _ _ => ⟨hlo, hhi⟩)
  rintro s t ⟨hmem, hmarks⟩
  refine ⟨⟨?_, ?_⟩, (D.read8 a s).trans (by rw [hmem])⟩
  · exact (D.other _ s (fun _ _ h => Access.noConfusion h) fun _ _ h =>
      Access.noConfusion h).trans hmem
  · rw [marks_snoc, hmarks]
    exact List.append_nil l

lemma write32_logged {a : Nat} (hlo : lo ≤ a) (hhi : a + 4 ≤ hi) (v : Word) :
    M.Triple (confined lo hi) (Logged D fspi mem l) (write32 a v)
      fun _ => Logged D fspi (storeBytes mem a (bytesOf [v])) l := by
  apply Triple.op (S := bus) (o := .write32 a v) (Q := fun _ => _) stable_logged
    (fun _ => stable_logged) (fun _ _ _ => ⟨hlo, hhi⟩)
  rintro s t ⟨hmem, hmarks⟩
  refine ⟨(D.write32 a v s).trans (by rw [hmem]), ?_⟩
  rw [marks_snoc, hmarks]
  exact List.append_nil l

lemma write8_logged {a : Nat} (hlo : lo ≤ a) (hhi : a < hi) (b : Byte) :
    M.Triple (confined lo hi) (Logged D fspi mem l) (write8 a b)
      fun _ => Logged D fspi (storeBytes mem a [b]) l := by
  apply Triple.op (S := bus) (o := .write8 a b) (Q := fun _ => _) stable_logged
    (fun _ => stable_logged) (fun _ _ _ => ⟨hlo, hhi⟩)
  rintro s t ⟨hmem, hmarks⟩
  refine ⟨(D.write8 a b s).trans (by rw [hmem]), ?_⟩
  rw [marks_snoc, hmarks]
  exact List.append_nil l

lemma waitBit_logged (a flag : Nat) :
    M.Triple (confined lo hi) (Logged D fspi mem l) (waitBit a flag)
      fun _ => Logged D fspi mem l := by
  have hkeep : ∀ (s : σ) (t : Trace bus A) (v : Word), Logged D fspi mem l s t →
      Logged D fspi mem l (M.exec (.load a) s).2 (t ++ [.spin ⟨a, flag⟩ v]) := by
    rintro s t v ⟨hmem, hmarks⟩
    refine ⟨?_, ?_⟩
    · exact (D.other _ s (fun _ _ h => Access.noConfusion h) fun _ _ h =>
        Access.noConfusion h).trans hmem
    · rw [marks_snoc, hmarks]
      exact List.append_nil l
  exact Triple.await (S := bus) (w := ⟨a, flag⟩) (Q := fun _ => Logged D fspi mem l) stable_logged
    stable_logged (fun _ _ _ => trivial) (fun s t hs _ => hkeep s t _ hs)
    fun s t hs _ => hkeep s t _ hs

/-- `clear_flags` is one store to `INTR`. -/
lemma clearFlags_logged :
    M.Triple (confined lo hi) (Logged D fspi mem l) (clearFlags fspi)
      fun _ s t => ∃ v, Logged D fspi mem (l ++ [.ack v]) s t := by
  refine Triple.bind (load_unmarked (by decide) (by decide) (by decide)) fun v => ?_
  refine Triple.bind (store_ack v) fun _ => ?_
  refine Triple.bind (load_unmarked (by decide) (by decide) (by decide)) fun sts0 => ?_
  refine Triple.bind (store_unmarked (by decide) sts0) fun _ => ?_
  refine Triple.bind (load_unmarked (by decide) (by decide) (by decide)) fun sts1 => ?_
  exact (store_unmarked (by decide) sts1).post fun _ s t hs => ⟨v, hs⟩

/-- The acknowledge of a round. -/
lemma orReg_ack {flag : Nat} (hflag : flag < 32) :
    M.Triple (confined lo hi) (Logged D fspi mem l) (orReg (fspi + Reg.intr) (bit flag))
      fun _ s t => ∃ v, Logged D fspi mem (l ++ [.ack v]) s t ∧ v.getLsbD flag = true := by
  refine Triple.bind (load_unmarked (by decide) (by decide) (by decide)) fun v => ?_
  refine (store_ack (v ||| bit flag)).post fun _ s t hs => ⟨_, hs, ?_⟩
  simp [hflag]

/-! ## `write_blocking` -/

lemma writeWords_logged (n i buffer : Nat) (hlo : lo ≤ buffer) (hhi : buffer + 4 * n ≤ hi) :
    M.Triple (confined lo hi) (Logged D fspi mem l) (writeWords fspi n i buffer) fun b s t =>
      Logged D fspi mem (l ++ numbered .fill i (wordsAt mem buffer n)) s t ∧
        b = buffer + 4 * n := by
  induction n generalizing i buffer l with
  | zero =>
    refine Triple.ret (stable_and_const stable_logged _) fun s t hs => ⟨?_, rfl⟩
    rwa [wordsAt, numbered, List.append_nil]
  | succ n ih =>
    refine Triple.bind (read32_logged hlo (by omega)) fun v => ?_
    apply Triple.of_pure
    rintro rfl
    refine Triple.bind (store_logged (mark?_store_tfdr _ i)) fun _ => ?_
    refine (ih (i + 1) (buffer + 4) (by omega) (by omega)).post fun b s t hs => ?_
    obtain ⟨hlogged, hb⟩ := hs
    rw [Option.toList_some, List.append_assoc] at hlogged
    exact ⟨hlogged, by omega⟩

/-- What `gatherBytes` makes of `n` bytes. -/
def gathered (mem : Nat → Byte) : (n j : Nat) → (tempVal : Word) → (buffer : Nat) → Word
  | 0, _, tempVal, _ => tempVal
  | n + 1, j, tempVal, buffer =>
      gathered mem n (j + 1) (tempVal ||| placed (mem buffer) j) (buffer + 1)

/-- Byte by byte, into the places from `j` on. -/
lemma byteAt_gathered (mem : Nat → Byte) (n j : Nat) (v : Word) (buffer : Nat) {k : Nat}
    (hk : k < 4) : byteAt (gathered mem n j v buffer) k =
      byteAt v k ||| if j ≤ k ∧ k < j + n then mem (buffer + (k - j)) else 0#8 := by
  induction n generalizing j v buffer with
  | zero =>
    have hout : ¬ (j ≤ k ∧ k < j + 0) := by omega
    rw [gathered, if_neg hout, BitVec.or_zero]
  | succ n ih =>
    rw [gathered, ih, byteAt_or, byteAt_placed _ hk, BitVec.or_assoc]
    congr 1
    by_cases hkj : k = j
    · subst hkj
      have hout : ¬ (k + 1 ≤ k ∧ k < k + 1 + n) := by omega
      have hin : k ≤ k ∧ k < k + (n + 1) := by omega
      rw [if_pos rfl, if_neg hout, if_pos hin, Nat.sub_self, Nat.add_zero, BitVec.or_zero]
    · have hiff : (j + 1 ≤ k ∧ k < j + 1 + n) ↔ (j ≤ k ∧ k < j + (n + 1)) := by omega
      rw [if_neg hkj, BitVec.zero_or]
      simp only [hiff]
      split
      · congr 1
        omega
      · rfl

lemma gathered_eq (mem : Nat → Byte) (a n : Nat) : gathered mem n 0 0#32 a = partWord mem a n := by
  apply eq_of_byteAt
  intro k hk
  have hzero : byteAt 0#32 k = 0#8 := by simp [byteAt]
  rw [byteAt_gathered _ _ _ _ _ hk, partWord, byteAt_ofBytes _ hk, hzero, BitVec.zero_or]
  simp

lemma gatherBytes_logged (n j : Nat) (v : Word) (buffer : Nat) (hlo : lo ≤ buffer)
    (hhi : buffer + n ≤ hi) :
    M.Triple (confined lo hi) (Logged D fspi mem l) (gatherBytes n j v buffer) fun r s t =>
      Logged D fspi mem l s t ∧ r.1 = gathered mem n j v buffer := by
  induction n generalizing j v buffer with
  | zero => exact Triple.ret (stable_and_const stable_logged _) fun s t hs => ⟨hs, rfl⟩
  | succ n ih =>
    refine Triple.bind (read8_logged hlo (by omega)) fun b => ?_
    apply Triple.of_pure
    rintro rfl
    exact ih (j + 1) _ (buffer + 1) (by omega) (by omega)

/-- The words of the rest of a round. -/
def tailWords (mem : Nat → Byte) (a n : Nat) : List Word :=
  if n = 0 then [] else [partWord mem a n]

lemma packed_eq (mem : Nat → Byte) (a n : Nat) :
    packed mem a n = wordsAt mem a (n / 4) ++ tailWords mem (a + 4 * (n / 4)) (n % 4) := rfl

lemma writeTail_logged (size i buffer : Nat) (hlo : lo ≤ buffer) (hhi : buffer + size ≤ hi) :
    M.Triple (confined lo hi) (Logged D fspi mem l) (writeTail fspi size i buffer)
      fun _ => Logged D fspi mem (l ++ numbered .fill i (tailWords mem buffer size)) := by
  by_cases hsize : size = 0
  · subst hsize
    refine Triple.ret stable_logged fun s t hs => ?_
    rwa [tailWords, if_pos rfl, numbered, List.append_nil]
  · rw [writeTail, if_pos hsize, tailWords, if_neg hsize]
    refine Triple.bind (gatherBytes_logged size 0 0#32 buffer hlo hhi) fun r => ?_
    apply Triple.of_pure
    intro hr
    refine Triple.bind (store_logged (mark?_store_tfdr r.1 i)) fun _ => ?_
    refine Triple.ret stable_logged fun s t hs => ?_
    rwa [hr, gathered_eq] at hs

/-- The bytes of the next round of `write_blocking`. -/
abbrev writeStep (watermark : Watermark) (size : Nat) : Nat := size - writeRest watermark size

lemma writeStep_full {watermark : Watermark} {size : Nat} (h : 8 * watermark.val ≤ size) :
    writeStep watermark size = 4 * (2 * watermark.val) := by
  rw [writeStep, writeRest, if_pos h]
  omega

lemma writeStep_rest {watermark : Watermark} {size : Nat} (h : ¬ 8 * watermark.val ≤ size) :
    writeStep watermark size = size := by
  rw [writeStep, writeRest, if_neg h, Nat.sub_zero]

/-- A round moves the words of its bytes. -/
lemma writeChunk_logged (watermark : Watermark) (buffer size : Nat) (hlo : lo ≤ buffer)
    (hhi : buffer + size ≤ hi) :
    M.Triple (confined lo hi) (Logged D fspi mem l) (writeChunk fspi watermark buffer size)
      fun b s t =>
        Logged D fspi mem
          (l ++ numbered .fill 0 (packed mem buffer (writeStep watermark size))) s t ∧
        (8 * watermark.val ≤ size → b = buffer + writeStep watermark size) := by
  unfold writeChunk
  split <;> rename_i hfull
  · rw [writeStep_full hfull, packed_words]
    refine (writeWords_logged (2 * watermark.val) 0 buffer hlo (by omega)).post fun b s t hs => ?_
    exact ⟨hs.1, fun _ => hs.2⟩
  · rw [writeStep_rest hfull]
    refine Triple.bind (writeWords_logged (size / 4) 0 buffer hlo (by omega)) fun b => ?_
    apply Triple.of_pure
    rintro rfl
    refine (writeTail_logged (size - 4 * (size / 4)) (size / 4) (buffer + 4 * (size / 4)) (by omega)
      (by omega)).post fun b s t hs => ⟨?_, fun h => absurd h hfull⟩
    have hmod : size - 4 * (size / 4) = size % 4 := by omega
    rw [packed_eq, numbered_append, length_wordsAt, Nat.zero_add, ← List.append_assoc, ← hmod]
    exact hs

/-- A round has been made, and acknowledged with the flag; `f` is the access that moves a word. -/
def Rounded (D : Buffers M) (fspi : Nat) (mem : Nat → Byte) (l : List Mark)
    (f : Nat → Word → Mark) (flag : Nat) (P : List Word → Prop) : Assertion bus σ A := fun s t =>
  ∃ r : Round, Logged D fspi mem (l ++ r.marks f) s t ∧ P r.words ∧ r.pushed.getLsbD flag = true

lemma stable_rounded {f : Nat → Word → Mark} {flag : Nat} {P : List Word → Prop} :
    M.Stable (Rounded D fspi mem l f flag P) :=
  stable_exists fun _ => stable_and_const stable_logged _

lemma writeRound_logged (watermark : Watermark) (buffer size : Nat) (hlo : lo ≤ buffer)
    (hhi : buffer + size ≤ hi) :
    M.Triple (confined lo hi) (Logged D fspi mem l) (writeRound fspi watermark buffer size)
      fun b s t =>
        Rounded D fspi mem l .fill txEmpty
          (fun ws => ws = packed mem buffer (writeStep watermark size)) s t ∧
        (8 * watermark.val ≤ size → b = buffer + writeStep watermark size) := by
  refine Triple.bind (waitBit_logged _ _) fun _ => ?_
  refine Triple.bind clearFlags_logged fun _ => ?_
  apply Triple.exists_pre
  intro cleared
  refine Triple.bind (writeChunk_logged watermark buffer size hlo hhi) fun b => ?_
  apply Triple.of_pure
  intro hb
  refine Triple.bind (orReg_ack (by decide)) fun _ => ?_
  apply Triple.exists_pre
  intro pushed
  refine Triple.ret (stable_and_const stable_rounded _) fun s t hs => ⟨?_, hb⟩
  obtain ⟨hlogged, hpushed⟩ := hs
  refine ⟨⟨cleared, packed mem buffer (writeStep watermark size), pushed⟩, ?_, rfl, hpushed⟩
  simpa only [Round.marks, List.append_assoc, List.cons_append, List.nil_append] using hlogged

/-- Some rounds have been made: those of `size` bytes, `n` words in a full one. -/
def AllRounded (D : Buffers M) (fspi : Nat) (mem : Nat → Byte) (l : List Mark)
    (f : Nat → Word → Mark) (n flag size : Nat) (P : List Word → Prop) : Assertion bus σ A :=
  fun s t => ∃ rounds, Logged D fspi mem (l ++ rounds.flatMap (Round.marks f)) s t ∧
    Chunked n flag size rounds ∧ P (stream rounds)

lemma stable_allRounded {f : Nat → Word → Mark} {n flag size : Nat} {P : List Word → Prop} :
    M.Stable (AllRounded D fspi mem l f n flag size P) :=
  stable_exists fun _ => stable_and_const stable_logged _

section

variable {f : Nat → Word → Mark} {n flag size : Nat} {P : List Word → Prop} {r : Round} {s : σ}
  {t : Trace bus A}

/-- The last round, if it is not a full one. -/
lemma allRounded_rest (h : Logged D fspi mem (l ++ r.marks f) s t) (hsize : size ≠ 0)
    (hlt : size < 4 * n) (hwords : r.words.length = (size + 3) / 4)
    (hpushed : r.pushed.getLsbD flag = true) (hP : P r.words) :
    AllRounded D fspi mem l f n flag size P s t := by
  refine ⟨[r], ?_, chunked_rest hsize hlt hwords hpushed, ?_⟩
  · rwa [List.flatMap_singleton]
  · rwa [stream, List.flatMap_singleton]

/-- A full round, then the rounds of the other bytes. -/
lemma AllRounded.cons {P' : List Word → Prop}
    (h : AllRounded D fspi mem (l ++ r.marks f) f n flag (size - 4 * n) P' s t) (hn : 0 < n)
    (hfull : 4 * n ≤ size) (hwords : r.words.length = n) (hpushed : r.pushed.getLsbD flag = true)
    (hP : ∀ ws, P' ws → P (r.words ++ ws)) : AllRounded D fspi mem l f n flag size P s t := by
  obtain ⟨rounds, hlogged, hchunked, hstream⟩ := h
  refine ⟨r :: rounds, ?_, hchunked.cons hn hfull hwords hpushed, hP _ hstream⟩
  rwa [List.flatMap_cons, ← List.append_assoc]

end

/-- **The loop of `write_blocking`** stores the bytes of the buffer, packed into words. -/
lemma writeLoop_logged (watermark : Watermark) (buffer size : Nat) (hlo : lo ≤ buffer)
    (hhi : buffer + size ≤ hi) :
    M.Triple (confined lo hi) (Logged D fspi mem l) (writeLoop fspi watermark buffer size)
      fun _ => AllRounded D fspi mem l .fill (2 * watermark.val) txEmpty size
        fun ws => ws = packed mem buffer size := by
  have hpos := watermark.pos
  induction size using Nat.strongRecOn generalizing buffer l with
  | ind size ih =>
    rw [writeLoop]
    split <;> rename_i hsize
    · subst hsize
      refine Triple.ret stable_allRounded fun s t hs => ⟨[], ?_, chunked_zero _ _ (by omega), rfl⟩
      rwa [List.flatMap_nil, List.append_nil]
    · refine Triple.bind (writeRound_logged watermark buffer size hlo hhi) fun b => ?_
      apply Triple.of_pure
      intro hb
      apply Triple.exists_pre
      intro r
      apply Triple.of_pure
      rintro ⟨hwords, hpushed⟩
      by_cases hfull : 8 * watermark.val ≤ size
      · have hbuffer := hb hfull
        rw [writeStep_full hfull] at hbuffer hwords
        rw [packed_words] at hwords
        have hrest : writeRest watermark size = size - 4 * (2 * watermark.val) := by
          rw [writeRest, if_pos hfull]
          omega
        refine (ih _ (writeRest_lt watermark hsize) b (by omega) (by omega)).post fun _ s t hs => ?_
        rw [hrest] at hs
        refine hs.cons (by omega) (by omega) (by rw [hwords, length_wordsAt]) hpushed ?_
        -- the words of this round and of the others are those of the buffer
        rintro ws rfl
        rw [hwords, hbuffer, ← packed_words_add]
        congr 1
        omega
      · have hrest : writeRest watermark size = 0 := if_neg hfull
        rw [writeStep_rest hfull] at hwords
        rw [hrest, writeLoop]
        refine Triple.ret stable_allRounded fun s t hs => ?_
        exact allRounded_rest hs hsize (by omega) (by rw [hwords, length_packed]) hpushed hwords

/-- `write_blocking`: the level of the watermark is loaded once, before the rounds. -/
lemma writeBlocking_logged (buffer size : Nat) (hsize : size ≤ 1024) :
    M.Triple (confined buffer (buffer + size)) (Logged D fspi mem l)
      (writeBlocking fspi buffer size) fun result s t => result = 0 ∧ ∃ level,
        AllRounded D fspi mem (l ++ [.txLevel level]) .fill (2 * (watermarkOf level).val) txEmpty
          size (fun ws => ws = packed mem buffer size) s t := by
  refine Triple.bind (Q := fun _ => Logged D fspi mem l) ?_ fun _ => ?_
  · rw [check, Prog.check, if_pos hsize]
    exact Triple.ret stable_logged fun _ _ => id
  refine Triple.bind (load_logged (k := fun v => some (.txLevel v)) fun v => if_pos rfl)
    fun level => ?_
  refine Triple.bind (writeLoop_logged (watermarkOf level) buffer size (by omega) (by omega))
    fun _ => ?_
  exact Triple.ret (stable_and (stable_const _) (stable_exists fun _ => stable_allRounded))
    fun s t hs => ⟨rfl, level, hs⟩

/-! ## `read_blocking` -/

lemma readWords_logged (n i buffer : Nat) (hlo : lo ≤ buffer) (hhi : buffer + 4 * n ≤ hi) :
    M.Triple (confined lo hi) (Logged D fspi mem l) (readWords fspi n i buffer) fun b s t =>
      (∃ ws, Logged D fspi (storeBytes mem buffer (bytesOf ws)) (l ++ numbered .fetch i ws) s t ∧
        ws.length = n) ∧ b = buffer + 4 * n := by
  induction n generalizing i buffer l mem with
  | zero =>
    refine Triple.ret (stable_and_const (stable_exists fun _ => stable_and_const stable_logged _) _)
      fun s t hs => ⟨⟨[], ?_, rfl⟩, rfl⟩
    rwa [bytesOf_nil, storeBytes_nil, numbered, List.append_nil]
  | succ n ih =>
    refine Triple.bind (load_logged (mark?_load_rfdr · i)) fun v => ?_
    refine Triple.bind (write32_logged hlo (by omega) v) fun _ => ?_
    refine (ih (i + 1) (buffer + 4) (by omega) (by omega)).post fun b s t hs => ?_
    obtain ⟨⟨ws, hlogged, hlength⟩, hb⟩ := hs
    refine ⟨⟨v :: ws, ?_, by rw [List.length_cons, hlength]⟩, by omega⟩
    have hbytes : storeBytes (storeBytes mem buffer (bytesOf [v])) (buffer + 4) (bytesOf ws) =
        storeBytes mem buffer (bytesOf (v :: ws)) := storeBytes_append mem buffer (bytesOf [v]) _
    rwa [hbytes, Option.toList_some, List.append_assoc] at hlogged

lemma scatterBytes_logged (n j : Nat) (v : Word) (buffer : Nat) (hlo : lo ≤ buffer)
    (hhi : buffer + n ≤ hi) :
    M.Triple (confined lo hi) (Logged D fspi mem l) (scatterBytes n j v buffer)
      fun _ => Logged D fspi
        (storeBytes mem buffer ((List.range' j n).map fun k => byteAt v k)) l := by
  induction n generalizing j buffer mem with
  | zero =>
    refine Triple.ret stable_logged fun s t hs => ?_
    rwa [List.range'_zero, List.map_nil, storeBytes_nil]
  | succ n ih =>
    refine Triple.bind (write8_logged hlo (by omega) (byteAt v j)) fun _ => ?_
    refine (ih (j + 1) (buffer + 1) (by omega) (by omega)).post fun _ s t hs => ?_
    have hbytes := storeBytes_append mem buffer [byteAt v j]
      ((List.range' (j + 1) n).map fun k => byteAt v k)
    rw [List.length_singleton] at hbytes
    rwa [hbytes] at hs

/-- The first bytes of a word. -/
lemma take_bytesOf_singleton (v : Word) {n : Nat} (hn : n ≤ 4) :
    (bytesOf [v]).take n = (List.range' 0 n).map fun k => byteAt v k := by
  obtain rfl | rfl | rfl | rfl | rfl : n = 0 ∨ n = 1 ∨ n = 2 ∨ n = 3 ∨ n = 4 := by omega
  · rfl
  · rfl
  · rfl
  · rfl
  · rfl

lemma readTail_logged (size i buffer : Nat) (hsize : size < 4) (hlo : lo ≤ buffer)
    (hhi : buffer + size ≤ hi) :
    M.Triple (confined lo hi) (Logged D fspi mem l) (readTail fspi size i buffer)
      fun _ s t => ∃ ws, Logged D fspi (storeBytes mem buffer ((bytesOf ws).take size))
        (l ++ numbered .fetch i ws) s t ∧ ws.length = (size + 3) / 4 := by
  by_cases hzero : size = 0
  · subst hzero
    refine Triple.ret (stable_exists fun _ => stable_and_const stable_logged _)
      fun s t hs => ⟨[], ?_, rfl⟩
    rwa [List.take_zero, storeBytes_nil, numbered, List.append_nil]
  · rw [readTail, if_pos hzero]
    refine Triple.bind (load_logged (mark?_load_rfdr · i)) fun v => ?_
    refine (scatterBytes_logged size 0 v buffer hlo hhi).post fun _ s t hs => ⟨[v], ?_, ?_⟩
    · rwa [take_bytesOf_singleton v (by omega)]
    · rw [List.length_singleton]
      omega

/-- The bytes of the next round of `read_blocking`. -/
abbrev readStep (watermark : Watermark) (size : Nat) : Nat := size - readRest watermark size

lemma readStep_full {watermark : Watermark} {size : Nat} (h : 4 * watermark.val ≤ size) :
    readStep watermark size = 4 * watermark.val := by
  rw [readStep, readRest, if_pos h]
  omega

lemma readStep_rest {watermark : Watermark} {size : Nat} (h : ¬ 4 * watermark.val ≤ size) :
    readStep watermark size = size := by
  rw [readStep, readRest, if_neg h, Nat.sub_zero]

/-- The words `ws` have been fetched, and the first `n` bytes of them are at `a`. -/
def Fetches (D : Buffers M) (fspi : Nat) (mem : Nat → Byte) (l : List Mark) (a n : Nat) :
    Assertion bus σ A := fun s t =>
  ∃ ws, Logged D fspi (storeBytes mem a ((bytesOf ws).take n)) (l ++ numbered .fetch 0 ws) s t ∧
    ws.length = (n + 3) / 4

lemma readChunk_logged (watermark : Watermark) (buffer size : Nat) (hlo : lo ≤ buffer)
    (hhi : buffer + size ≤ hi) :
    M.Triple (confined lo hi) (Logged D fspi mem l) (readChunk fspi watermark buffer size)
      fun b s t => Fetches D fspi mem l buffer (readStep watermark size) s t ∧
        (4 * watermark.val ≤ size → b = buffer + readStep watermark size) := by
  unfold readChunk
  split <;> rename_i hfull
  · rw [readStep_full hfull]
    refine (readWords_logged watermark.val 0 buffer hlo (by omega)).post fun b s t hs => ?_
    obtain ⟨⟨ws, hlogged, hlength⟩, hb⟩ := hs
    refine ⟨⟨ws, ?_, by omega⟩, fun _ => hb⟩
    have hall : (bytesOf ws).length ≤ 4 * watermark.val :=
      Nat.le_of_eq (by rw [length_bytesOf, hlength])
    rwa [List.take_of_length_le hall]
  · rw [readStep_rest hfull]
    refine Triple.bind (readWords_logged (size / 4) 0 buffer hlo (by omega)) fun b => ?_
    apply Triple.of_pure
    rintro rfl
    apply Triple.exists_pre
    intro ws
    apply Triple.of_pure
    intro hlength
    refine (readTail_logged (size - 4 * (size / 4)) (size / 4) (buffer + 4 * (size / 4)) (by omega)
      (by omega) (by omega)).post fun b s t hs => ⟨?_, fun h => absurd h hfull⟩
    obtain ⟨vs, hlogged, hlength'⟩ := hs
    refine ⟨ws ++ vs, ?_, by rw [List.length_append, hlength, hlength']; omega⟩
    have hbytes := storeBytes_bytesOf_append mem buffer ws vs (size - 4 * (size / 4))
    have hsize : 4 * (size / 4) + (size - 4 * (size / 4)) = size := by omega
    rw [hlength, hsize] at hbytes
    rwa [hbytes, List.append_assoc, ← hlength, ← Nat.zero_add ws.length,
      ← numbered_append] at hlogged

lemma readRound_logged (watermark : Watermark) (buffer size : Nat) (hlo : lo ≤ buffer)
    (hhi : buffer + size ≤ hi) :
    M.Triple (confined lo hi) (Logged D fspi mem l) (readRound fspi watermark buffer size)
      fun b s t =>
        (∃ r : Round, Logged D fspi
            (storeBytes mem buffer ((bytesOf r.words).take (readStep watermark size)))
            (l ++ r.marks .fetch) s t ∧
          r.words.length = (readStep watermark size + 3) / 4 ∧
          r.pushed.getLsbD rxWatermarkFlag = true) ∧
        (4 * watermark.val ≤ size → b = buffer + readStep watermark size) := by
  refine Triple.bind (waitBit_logged _ _) fun _ => ?_
  refine Triple.bind clearFlags_logged fun _ => ?_
  apply Triple.exists_pre
  intro cleared
  refine Triple.bind (readChunk_logged watermark buffer size hlo hhi) fun b => ?_
  apply Triple.of_pure
  intro hb
  apply Triple.exists_pre
  intro ws
  apply Triple.of_pure
  intro hlength
  refine Triple.bind (orReg_ack (by decide)) fun _ => ?_
  apply Triple.exists_pre
  intro pushed
  refine Triple.ret (stable_and_const (stable_exists fun _ => stable_and_const stable_logged _) _)
    fun s t hs => ⟨?_, hb⟩
  obtain ⟨hlogged, hpushed⟩ := hs
  refine ⟨⟨cleared, ws, pushed⟩, ?_, hlength, hpushed⟩
  simpa only [Round.marks, List.append_assoc, List.cons_append, List.nil_append] using hlogged

/-- The bytes of a round in front of those of the others. -/
lemma storeBytes_round (mem : Nat → Byte) (a : Nat) {r : Round} (rounds : List Round) {m : Nat}
    (hm : 4 * r.words.length = m) (n : Nat) :
    storeBytes (storeBytes mem a ((bytesOf r.words).take m)) (a + m)
        ((bytesOf (stream rounds)).take n) =
      storeBytes mem a ((bytesOf (stream (r :: rounds))).take (m + n)) := by
  subst hm
  have hall : (bytesOf r.words).length ≤ 4 * r.words.length := Nat.le_of_eq (length_bytesOf _)
  rw [List.take_of_length_le hall, storeBytes_bytesOf_append]
  rfl

/-- **The loop of `read_blocking`** stores the bytes of the words it loads to the buffer. -/
lemma readLoop_logged (watermark : Watermark) (buffer size : Nat) (hlo : lo ≤ buffer)
    (hhi : buffer + size ≤ hi) :
    M.Triple (confined lo hi) (Logged D fspi mem l) (readLoop fspi watermark buffer size)
      fun _ s t => ∃ rounds,
        Logged D fspi (storeBytes mem buffer ((bytesOf (stream rounds)).take size))
          (l ++ rounds.flatMap (Round.marks .fetch)) s t ∧
        Chunked watermark.val rxWatermarkFlag size rounds := by
  have hpos := watermark.pos
  induction size using Nat.strongRecOn generalizing buffer l mem with
  | ind size ih =>
    rw [readLoop]
    split <;> rename_i hsize
    · subst hsize
      refine Triple.ret (stable_exists fun _ => stable_and_const stable_logged _)
        fun s t hs => ⟨[], ?_, chunked_zero _ _ hpos⟩
      rwa [List.take_zero, storeBytes_nil, List.flatMap_nil, List.append_nil]
    · refine Triple.bind (readRound_logged watermark buffer size hlo hhi) fun b => ?_
      apply Triple.of_pure
      intro hb
      apply Triple.exists_pre
      intro r
      apply Triple.of_pure
      rintro ⟨hlength, hpushed⟩
      by_cases hfull : 4 * watermark.val ≤ size
      · -- a full round, then the rounds of the other bytes
        have hrest : readRest watermark size = size - 4 * watermark.val := if_pos hfull
        have hbuffer := hb hfull
        rw [readStep_full hfull] at hbuffer hlength
        have hwords : r.words.length = watermark.val := by omega
        refine (ih _ (readRest_lt watermark hsize) b (by omega) (by omega)).post fun _ s t hs => ?_
        obtain ⟨rounds, hlogged, hchunked⟩ := hs
        refine ⟨r :: rounds, ?_, ?_⟩
        · have hbytes := storeBytes_round mem buffer rounds (congrArg (4 * ·) hwords)
            (readRest watermark size)
          have hsize' : 4 * watermark.val + readRest watermark size = size := by omega
          rw [← hbuffer, hsize'] at hbytes
          rwa [readStep_full hfull, hbytes, List.append_assoc] at hlogged
        · rw [hrest] at hchunked
          exact hchunked.cons hpos hfull hwords hpushed
      · -- the last round
        have hrest : readRest watermark size = 0 := if_neg hfull
        rw [readStep_rest hfull] at hlength
        rw [hrest, readLoop, readStep_rest hfull]
        refine Triple.ret (stable_exists fun _ => stable_and_const stable_logged _)
          fun s t hs => ⟨[r], ?_, ?_⟩
        · rwa [stream, List.flatMap_singleton, List.flatMap_singleton]
        · exact chunked_rest hsize (by omega) hlength hpushed

/-- The flush of the RX FIFO. -/
lemma flush_logged (m : Word) :
    M.Triple (confined lo hi) (Logged D fspi mem l) (orReg (fspi + Reg.iprxfcr) m)
      fun _ s t => ∃ v, Logged D fspi mem (l ++ [.rxLevel v, .rxSet (v ||| m)]) s t := by
  refine Triple.bind (load_logged mark?_load_iprxfcr) fun v => ?_
  refine (store_logged (mark?_store_iprxfcr (v ||| m))).post fun _ s t hs => ⟨v, ?_⟩
  rwa [Option.toList_some, Option.toList_some, List.append_assoc] at hs

/-- `read_blocking`: the level of the watermark is what the first load of `IPRXFCR` answers; the
second one is that of the flush. -/
lemma readBlocking_logged (buffer size : Nat) (hsize : size ≤ 1024) :
    M.Triple (confined buffer (buffer + size)) (Logged D fspi mem l)
      (readBlocking fspi buffer size) fun result s t => result = 0 ∧ ∃ level flushed rounds,
        Logged D fspi (storeBytes mem buffer ((bytesOf (stream rounds)).take size))
          (l ++ .rxLevel level :: .rxLevel flushed :: .rxSet (flushed ||| 1#32) ::
            rounds.flatMap (Round.marks .fetch)) s t ∧
        Chunked (watermarkOf level).val rxWatermarkFlag size rounds := by
  refine Triple.bind (Q := fun _ => Logged D fspi mem l) ?_ fun _ => ?_
  · rw [check, Prog.check, if_pos hsize]
    exact Triple.ret stable_logged fun _ _ => id
  refine Triple.bind (load_logged mark?_load_iprxfcr) fun level => ?_
  refine Triple.bind (flush_logged 1#32) fun _ => ?_
  apply Triple.exists_pre
  intro flushed
  refine Triple.bind (readLoop_logged (watermarkOf level) buffer size (by omega) (by omega))
    fun _ => ?_
  refine Triple.ret ?_ fun s t hs => ⟨rfl, level, flushed, ?_⟩
  · exact stable_and (stable_const _) (stable_exists fun _ => stable_exists fun _ =>
      stable_exists fun _ => stable_and_const stable_logged _)
  · obtain ⟨rounds, hlogged, hchunked⟩ := hs
    refine ⟨rounds, ?_, hchunked⟩
    simpa only [Option.toList_some, List.append_assoc, List.cons_append, List.nil_append]
      using hlogged

end QspiTool
