import Mathlib.Logic.Function.Basic
import QspiTool.Driver.Rounds
import QspiTool.Interaction.Progress

/-!
# One FIFO between the two windows

An idealised device in which what `write_blocking` sends comes back to `read_blocking`: a single
FIFO, filled from `TFDR` and read at `RFDR`.  Only the acknowledge that ends a round moves words.
The store to `INTR` with bit 6 set appends a watermark level of the TX window, the one with bit 7
set drops a watermark level from the front; a level of `w` is `2 * w` words.  `clear_flags` and the
flushes move nothing.

The FIFO is driven by the marks of the run, so what the device does to the data is a function of the
marks (`Fifo.after`), and so is what it answers (`Fifo.Tells`).  The windows have no upper end here;
up to a watermark of 16 they are those of the device.
-/

namespace QspiTool

open Words Interaction Machine

/-! ## The FIFO -/

/-- The FIFO, its two level registers, and the TX window. -/
structure Fifo where
  tx : Word
  rx : Word
  window : Nat → Word
  /-- The words in the FIFO, oldest first. -/
  words : List Word
  /-- The TX window has been stored to since the last store to `INTR`. -/
  filled : Bool
  /-- `RFDR` has been loaded from since the last store to `INTR`. -/
  fetched : Bool

/-- The words of a watermark level: its unit is 64 bits. -/
def levelWords (v : Word) : Nat := 2 * (watermarkOf v).val

namespace Fifo

/-- What `RFDR[i]` reads; `junk` is what it reads past the words in the FIFO. -/
def front (junk : Nat → Word) (q : Fifo) (i : Nat) : Word := q.words[i]?.getD (junk i)

/-- The words that a push appends. -/
def level (q : Fifo) : List Word := (List.range (levelWords q.tx)).map q.window

/-- A store to `INTR`. -/
def ack (q : Fifo) (v : Word) : Fifo :=
  let pushed := if q.filled && v.getLsbD txEmpty then q.words ++ q.level else q.words
  { q with
    words := if q.fetched && v.getLsbD rxWatermarkFlag then pushed.drop (levelWords q.rx)
      else pushed
    filled := false
    fetched := false }

/-- What an access does to the FIFO. -/
def next (q : Fifo) : Mark → Fifo
  | .txLevel _ | .rxLevel _ => q
  | .txSet v => { q with tx := v }
  | .rxSet v => { q with rx := v }
  | .fill i v => { q with window := Function.update q.window i v, filled := true }
  | .fetch _ _ => { q with fetched := true }
  | .ack v => q.ack v

/-- What some accesses do to the FIFO. -/
def after (q : Fifo) (l : List Mark) : Fifo := l.foldl next q

/-- What a load answers. -/
def Tells (junk : Nat → Word) (q : Fifo) : Mark → Prop
  | .txLevel v => v = q.tx
  | .rxLevel v => v = q.rx
  | .fetch i v => v = q.front junk i
  | _ => True

/-- What some loads answer. -/
def TellsAll (junk : Nat → Word) : Fifo → List Mark → Prop
  | _, [] => True
  | q, m :: l => q.Tells junk m ∧ (q.next m).TellsAll junk l

variable {junk : Nat → Word} {q : Fifo}

lemma after_append (l l' : List Mark) : q.after (l ++ l') = (q.after l).after l' :=
  List.foldl_append

lemma tellsAll_append (l l' : List Mark) :
    q.TellsAll junk (l ++ l') ↔ q.TellsAll junk l ∧ (q.after l).TellsAll junk l' := by
  induction l generalizing q with
  | nil => exact (and_iff_right trivial).symm
  | cons m l ih =>
    rw [List.cons_append, TellsAll, ih, TellsAll, and_assoc]
    rfl

/-- A round: `clear_flags`, the words, the acknowledge. -/
lemma after_round (f : Nat → Word → Mark) (r : Round) :
    q.after (r.marks f) = ((q.ack r.cleared).after (numbered f 0 r.words)).ack r.pushed := by
  rw [Round.marks, after, List.foldl_cons, List.foldl_append]
  rfl

/-- Between two rounds, with the words `ws` in the FIFO and both levels at `w`. -/
structure Idle (w : Watermark) (ws : List Word) (q : Fifo) : Prop where
  tx : watermarkOf q.tx = w
  rx : watermarkOf q.rx = w
  words : q.words = ws
  filled : q.filled = false
  fetched : q.fetched = false

variable {w : Watermark} {ws : List Word}

/-- `clear_flags` moves nothing. -/
lemma Idle.ack (h : q.Idle w ws) (v : Word) : (q.ack v).Idle w ws where
  tx := h.tx
  rx := h.rx
  words := by simp [Fifo.ack, h.filled, h.fetched, h.words]
  filled := rfl
  fetched := rfl

/-! ## A round of `write_blocking` -/

/-- Words stored to the window from index `i` on. -/
lemma after_fills (vs : List Word) (i : Nat) :
    q.after (numbered .fill i vs) = { q with
      window := fun k => if i ≤ k then vs[k - i]?.getD (q.window k) else q.window k
      filled := q.filled || !vs.isEmpty } := by
  induction vs generalizing i q with
  | nil => simp [numbered, after]
  | cons v vs ih =>
    rw [numbered, after, List.foldl_cons, ← after, ih]
    simp only [next, List.isEmpty_cons, Bool.not_false, Bool.or_true, Bool.true_or, mk.injEq,
      true_and, and_true]
    funext k
    by_cases hik : i + 1 ≤ k
    · have hsub : k - i = k - (i + 1) + 1 := by omega
      rw [if_pos hik, if_pos (Nat.le_of_succ_le hik), Function.update_of_ne (by omega), hsub,
        List.getElem?_cons_succ]
    · rw [if_neg hik]
      by_cases heq : i = k
      · subst heq
        simp
      · rw [if_neg (by omega), Function.update_of_ne (by omega)]

/-- A window whose first words are `vs`. -/
lemma map_window (vs : List Word) (f : Nat → Word) {n : Nat} (h : vs.length ≤ n) :
    (List.range n).map (fun k => vs[k]?.getD (f k)) =
      vs ++ (List.range (n - vs.length)).map fun k => f (vs.length + k) := by
  obtain ⟨m, rfl⟩ := Nat.exists_eq_add_of_le h
  have hfirst : (List.range vs.length).map (fun k => vs[k]?.getD (f k)) = vs := by
    apply List.ext_getElem (by simp)
    intro k _ hk
    simp [hk]
  have hrest : ∀ k, vs[vs.length + k]?.getD (f (vs.length + k)) = f (vs.length + k) := by
    intro k
    rw [List.getElem?_eq_none (Nat.le_add_right _ _), Option.getD_none]
  rw [List.range_add, List.map_append, hfirst, List.map_map, Nat.add_sub_cancel_left]
  congr 1
  exact List.map_congr_left fun k _ => hrest k

/-- A round appends the words stored, and what has been in the rest of the window. -/
lemma Idle.after_write (h : q.Idle w ws) {r : Round} (hsome : 0 < r.words.length)
    (hle : r.words.length ≤ 2 * w.val) (hpushed : r.pushed.getLsbD txEmpty = true) :
    ∃ stale, (r.words ++ stale).length = 2 * w.val ∧
      (q.after (r.marks .fill)).Idle w (ws ++ (r.words ++ stale)) := by
  have hne := List.ne_nil_of_length_pos hsome
  have hclear := h.ack r.cleared
  have hlevel : levelWords (q.ack r.cleared).tx = 2 * w.val := by rw [levelWords, hclear.tx]
  have hwindow := map_window r.words (q.ack r.cleared).window hle
  rw [after_round, after_fills]
  refine ⟨(List.range (2 * w.val - r.words.length)).map
    fun k => (q.ack r.cleared).window (r.words.length + k), ?_, hclear.tx, hclear.rx, ?_, rfl, rfl⟩
  · rw [List.length_append, List.length_map, List.length_range]
    omega
  · rw [← hwindow]
    generalize q.ack r.cleared = p at hclear hlevel
    simp [Fifo.ack, hclear.filled, hclear.fetched, hclear.words, hpushed, hne, level, hlevel]

/-- **The rounds of `write_blocking`** append what they store.  Only behind a last round that is not
full is there more. -/
lemma Idle.after_writes {size : Nat} {rounds : List Round}
    (hrounds : Chunked (2 * w.val) txEmpty size rounds) (h : q.Idle w ws) :
    ∃ stale, (stream rounds ++ stale).length = 2 * w.val * rounds.length ∧
      (q.after (rounds.flatMap (Round.marks .fill))).Idle w (ws ++ (stream rounds ++ stale)) := by
  have hpos := w.pos
  refine (hrounds.induct (C := fun _ rounds => ∀ q ws, Idle w ws q → ∃ stale,
    (stream rounds ++ stale).length = 2 * w.val * rounds.length ∧
      (q.after (rounds.flatMap (Round.marks .fill))).Idle w (ws ++ (stream rounds ++ stale)))
    (by omega) ?_ ?_ ?_) q ws h
  · rintro q ws h
    exact ⟨[], rfl, by simpa [stream, after] using h⟩
  · rintro size r hsize hlt hwords hpushed q ws h
    obtain ⟨stale, hlength, hidle⟩ := h.after_write (by omega) (by omega) hpushed
    refine ⟨stale, ?_, ?_⟩
    · rwa [stream, List.flatMap_singleton, List.length_singleton, Nat.mul_one]
    · rwa [stream, List.flatMap_singleton, List.flatMap_singleton]
  · rintro size r rounds hfull hwords hpushed ih q ws h
    obtain ⟨stale, hlength, hidle⟩ := h.after_write (by omega) (by omega) hpushed
    have hstale : stale = [] := by
      rw [List.length_append] at hlength
      exact List.eq_nil_of_length_eq_zero (by omega)
    subst hstale
    obtain ⟨stale, hlength', hidle'⟩ := ih _ _ hidle
    refine ⟨stale, ?_, ?_⟩
    · rw [stream, List.flatMap_cons, ← stream, List.append_assoc, List.length_append, hlength',
        List.length_cons, hwords, Nat.mul_succ, Nat.add_comm]
    · rw [stream, List.flatMap_cons, ← stream, List.flatMap_cons, after_append]
      simpa only [List.append_nil, List.append_assoc] using hidle'

/-! ## A round of `read_blocking` -/

/-- Words loaded from `RFDR[i]` on. -/
lemma after_fetches (vs : List Word) (i : Nat) :
    q.after (numbered .fetch i vs) = { q with fetched := q.fetched || !vs.isEmpty } := by
  induction vs generalizing i q with
  | nil => simp [numbered, after]
  | cons v vs ih =>
    rw [numbered, after, List.foldl_cons, ← after, ih]
    simp [next]

lemma tellsAll_fetches (vs : List Word) (i : Nat) :
    q.TellsAll junk (numbered .fetch i vs) →
      ∀ k < vs.length, vs[k]? = some (q.front junk (i + k)) := by
  induction vs generalizing i q with
  | nil => rintro - k hk; cases hk
  | cons v vs ih =>
    rintro ⟨hv, hrest⟩ k hk
    cases k with
    | zero => rw [List.getElem?_cons_zero, hv, Nat.add_zero]
    | succ k =>
      have hindex : i + (k + 1) = i + 1 + k := by omega
      rw [List.getElem?_cons_succ, ih (i + 1) hrest k (Nat.lt_of_succ_lt_succ hk), hindex]
      rfl

/-- A round loads the front of the FIFO, and drops a level of it. -/
lemma Idle.after_read (h : q.Idle w ws) {r : Round} (hsome : 0 < r.words.length)
    (hpushed : r.pushed.getLsbD rxWatermarkFlag = true)
    (htells : q.TellsAll junk (r.marks .fetch)) :
    (∀ k < r.words.length, r.words[k]? = some (ws[k]?.getD (junk k))) ∧
      (q.after (r.marks .fetch)).Idle w (ws.drop (2 * w.val)) := by
  have hne := List.ne_nil_of_length_pos hsome
  have hclear := h.ack r.cleared
  have hlevel : levelWords (q.ack r.cleared).rx = 2 * w.val := by rw [levelWords, hclear.rx]
  obtain ⟨-, htells⟩ := htells
  have hfetches := ((tellsAll_append _ _).mp htells).1
  refine ⟨fun k hk => ?_, ?_⟩
  · rw [tellsAll_fetches _ _ hfetches k hk, front, Nat.zero_add]
    exact congrArg (fun l : List Word => some (l[k]?.getD (junk k))) hclear.words
  · rw [after_round, after_fetches]
    refine ⟨hclear.tx, hclear.rx, ?_, rfl, rfl⟩
    generalize q.ack r.cleared = p at hclear hlevel
    simp [Fifo.ack, hclear.filled, hclear.fetched, hclear.words, hpushed, hne, hlevel]

/-- **The rounds of `read_blocking`.**  A full round loads `w` words and drops `2 * w`, so the words
loaded are the first half of every level. -/
lemma Idle.after_reads {size : Nat} {rounds : List Round}
    (hrounds : Chunked w.val rxWatermarkFlag size rounds) (h : q.Idle w ws)
    (htells : q.TellsAll junk (rounds.flatMap (Round.marks .fetch))) :
    ∀ j < (stream rounds).length, (stream rounds)[j]? =
      some (ws[2 * w.val * (j / w.val) + j % w.val]?.getD (junk (j % w.val))) := by
  have hpos := w.pos
  refine (hrounds.induct (C := fun _ rounds => ∀ q ws, Idle w ws q →
    q.TellsAll junk (rounds.flatMap (Round.marks .fetch)) →
    ∀ j < (stream rounds).length, (stream rounds)[j]? =
      some (ws[2 * w.val * (j / w.val) + j % w.val]?.getD (junk (j % w.val)))) hpos ?_ ?_ ?_)
    q ws h htells
  · rintro q ws h htells j hj
    cases hj
  · rintro size r hsize hlt hwords hpushed q ws h htells j hj
    rw [List.flatMap_singleton] at htells
    rw [stream, List.flatMap_singleton] at hj ⊢
    have hjw : j < w.val := by omega
    rw [(h.after_read (by omega) hpushed htells).1 j hj, Nat.div_eq_of_lt hjw, Nat.mod_eq_of_lt hjw,
      Nat.mul_zero, Nat.zero_add]
  · rintro size r rounds hfull hwords hpushed ih q ws h htells j hj
    rw [List.flatMap_cons, tellsAll_append] at htells
    obtain ⟨hthis, hrest⟩ := h.after_read (by omega) hpushed htells.1
    rw [stream, List.flatMap_cons, ← stream] at hj ⊢
    by_cases hjw : j < w.val
    · rw [List.getElem?_append_left (by omega), hthis j (by omega), Nat.div_eq_of_lt hjw,
        Nat.mod_eq_of_lt hjw, Nat.mul_zero, Nat.zero_add]
    · have hdiv : j / w.val = (j - w.val) / w.val + 1 := Nat.div_eq_sub_div hpos (by omega)
      have hmod : j % w.val = (j - w.val) % w.val := Nat.mod_eq_sub_mod (by omega)
      rw [List.length_append] at hj
      rw [List.getElem?_append_right (by omega), hwords, ih _ _ hrest htells.2 _ (by omega),
        List.getElem?_drop, hdiv, hmod, Nat.mul_succ]
      congr 3
      omega

end Fifo

/-! ## The machine -/

/-- The device, with its other registers by address, and the memory that holds the callers'
buffers. -/
structure Loop where
  fifo : Fifo
  reg : Nat → Word
  mem : Nat → Byte

namespace Loop

/-- What an access answers. -/
def answer (junk : Nat → Word) (fspi : Nat) (s : Loop) : (o : Access) → o.Res
  | .load a =>
      if a = fspi + Reg.iptxfcr then s.fifo.tx
      else if a = fspi + Reg.iprxfcr then s.fifo.rx
      else ((wordIndex (fspi + Reg.rfdr 0) a).map (s.fifo.front junk)).getD (s.reg a)
  | .read8 a => s.mem a
  | .read32 a => wordAt s.mem a
  | .store _ _ | .store8 _ _ | .write8 _ _ | .write32 _ _ | .close _ | .munmap _ _ => ()
  | .openMem => -1
  | .mmap _ _ _ => 0
  | .pageSize => 4096

/-- What an access does beside the FIFO.  The flags of `INTR` are write-1-to-clear. -/
def keep (fspi : Nat) (s : Loop) : Access → Loop
  | .store a v => { s with
      reg := Function.update s.reg a (if a = fspi + Reg.intr then s.reg a &&& ~~~v else v) }
  | .write8 a b => { s with mem := storeBytes s.mem a [b] }
  | .write32 a v => { s with mem := storeBytes s.mem a (bytesOf [v]) }
  | _ => s

end Loop

/-- The idealised device at `fspi`.  Between two accesses it may change any register that is not one
of the FIFO's, so it raises flags as it likes. -/
def loopback (junk : Nat → Word) (fspi : Nat) : Machine bus Loop (Nat × Word) where
  exec o s := (s.answer junk fspi o, { s.keep fspi o with
    fifo := (mark? (A := Nat × Word) fspi (.call o (s.answer junk fspi o))).elim s.fifo
      s.fifo.next })
  act a s := some { s with reg := Function.update s.reg a.1 a.2 }

variable {junk : Nat → Word} {fspi : Nat}

/-- The device does not touch the buffers. -/
def loopbackBuffers (junk : Nat → Word) (fspi : Nat) : Buffers (loopback junk fspi) where
  bytes := Loop.mem
  read8 _ _ := rfl
  read32 _ _ := rfl
  write8 _ _ _ := rfl
  write32 _ _ _ := rfl
  other o s h8 h32 := by
    cases o with
    | write8 a b => exact absurd rfl (h8 a b)
    | write32 a v => exact absurd rfl (h32 a v)
    | _ => rfl
  act a s s' h := by
    obtain rfl := Option.some.inj h
    rfl

/-- What a load answers is what the FIFO tells. -/
lemma tells_answer (s : Loop) (o : Access) {m : Mark}
    (h : mark? (A := Nat × Word) fspi (.call o (s.answer junk fspi o)) = some m) :
    s.fifo.Tells junk m := by
  cases o with
  | load a =>
    simp only [Loop.answer, mark?] at h
    split at h
    · obtain rfl := Option.some.inj h
      rfl
    · split at h
      · obtain rfl := Option.some.inj h
        rfl
      · obtain ⟨i, hi, rfl⟩ := Option.map_eq_some_iff.mp h
        simp [Fifo.Tells, hi]
  | store a v =>
    simp only [mark?] at h
    split at h
    · obtain rfl := Option.some.inj h
      trivial
    · split at h
      · obtain rfl := Option.some.inj h
        trivial
      · split at h
        · obtain rfl := Option.some.inj h
          trivial
        · obtain ⟨i, -, rfl⟩ := Option.map_eq_some_iff.mp h
          trivial
  | _ => cases h

/-- The FIFO is what the marks of the run have made of `q₀`, and has told what they show. -/
def Driven (junk : Nat → Word) (fspi : Nat) (q₀ : Fifo) : Assertion bus Loop (Nat × Word) :=
  fun s t => q₀.TellsAll junk (marks fspi t) ∧ s.fifo = q₀.after (marks fspi t)

/-- An access keeps it. -/
lemma driven_call {q₀ : Fifo} {s : Loop} {t : Trace bus (Nat × Word)}
    (h : Driven junk fspi q₀ s t) (o : Access) :
    Driven junk fspi q₀ ((loopback junk fspi).exec o s).2
      (t ++ [.call o ((loopback junk fspi).exec o s).1]) := by
  obtain ⟨htells, hfifo⟩ := h
  simp only [Driven, loopback, marks_snoc]
  cases hmark : mark? (A := Nat × Word) fspi (.call o (s.answer junk fspi o)) with
  | none => simpa [hmark] using ⟨htells, hfifo⟩
  | some m =>
    refine ⟨(Fifo.tellsAll_append _ _).mpr ⟨htells, ?_, trivial⟩, ?_⟩
    · rw [← hfifo]
      exact tells_answer s o hmark
    · rw [Fifo.after_append, ← hfifo]
      rfl

/-- A wait, if it is one, is for a flag of `INTR`. -/
def PollsIntr (fspi : Nat) (d : Head bus) : Prop :=
  ∀ w : BitWait, d = .poll w → w.reg = fspi + Reg.intr ∧ w.flag < 32

/-- **The FIFO is driven by the run**, for every program that waits for flags of `INTR` only. -/
theorem driven_returns {α : Type} {p : Driver α} (hp : p.Every (PollsIntr fspi)) {q₀ : Fifo}
    {s s' : Loop} {t t' : Trace bus (Nat × Word)} {a : α} (h : Driven junk fspi q₀ s t)
    (hreach : (loopback junk fspi).Reach ⟨p, s, t⟩ ⟨.ret a, s', t'⟩) :
    Driven junk fspi q₀ s' t' := by
  have hstable : (loopback junk fspi).Stable (Driven junk fspi q₀) := by
    intro a s s' t h hact
    obtain rfl := Option.some.inj hact
    rw [Driven, marks_snoc]
    exact (List.append_nil (marks fspi t)).symm ▸ h
  have htriple : (loopback junk fspi).Triple (fun _ _ _ => True) (Driven junk fspi q₀) p
      fun _ => Driven junk fspi q₀ := by
    refine Triple.invariant hp hstable (fun _ _ _ _ _ => trivial)
      (fun o s t _ h => driven_call h o) fun w s t hw h => ?_
    -- a probe of `INTR` leaves the FIFO alone
    have hmark : mark? (A := Nat × Word) fspi (.call (.load (fspi + Reg.intr))
        (s.answer junk fspi (.load w.reg))) = none :=
      mark?_load_low _ (by decide) (by decide) (by decide)
    rw [← (hw w rfl).1] at hmark
    simp only [Driven, loopback, hmark, marks_snoc]
    exact (List.append_nil (marks fspi t)).symm ▸ h
  exact htriple.returns h hreach

/-- The device can raise any flag. -/
lemma loopback_answers {w : BitWait} (hw : PollsIntr fspi (.poll w)) (s : Loop)
    (t : Trace bus (Nat × Word)) : (loopback junk fspi).Answers w s t := by
  obtain ⟨hreg, hflag⟩ := hw w rfl
  have hact : (loopback junk fspi).act (w.reg, bit w.flag) s =
    some { s with reg := Function.update s.reg w.reg (bit w.flag) } := rfl
  refine ⟨_, _, Drift.single t hact, ?_⟩
  have htx : w.reg ≠ fspi + Reg.iptxfcr := hreg ▸ offset_ne (by decide)
  have hrx : w.reg ≠ fspi + Reg.iprxfcr := hreg ▸ offset_ne (by decide)
  have hindex : wordIndex (fspi + Reg.rfdr 0) w.reg = none := by
    apply wordIndex_of_lt
    rw [hreg]
    exact Nat.add_lt_add_left (by decide) fspi
  simp only [loopback, Loop.answer, if_neg htx, if_neg hrx, hindex, decide_eq_true_eq]
  rw [and_bit_ne_zero _ hflag]
  simp [hflag]

end QspiTool
