import QspiTool.Properties.WholeBuffer

/-!
# The rounds of a whole transfer

The data loops cut the buffer into rounds (`writeBlocking_logged`, `readBlocking_logged`).  Here the
rest of `transfer_blocking` is put around them: it moves no word, so the words that a transfer moves
are those of its rounds, and the watermark that cuts them is one that it has loaded itself.
-/

namespace QspiTool

open Words Interaction Machine

variable {σ A : Type} {M : Machine bus σ A} {fspi : Nat}

/-! ## The two directions -/

namespace Direction

/-- The access that moves a word. -/
def move : Direction → Nat → Word → Mark
  | taken => .fill
  | stored => .fetch

/-- The register with the watermark. -/
def control : Direction → Nat
  | taken => Reg.iptxfcr
  | stored => Reg.iprxfcr

/-- The load of the watermark. -/
def level : Direction → Word → Mark
  | taken => .txLevel
  | stored => .rxLevel

/-- The flag that announces a round. -/
def flag : Direction → Nat
  | taken => txEmpty
  | stored => rxWatermarkFlag

/-- The words of a full round. -/
def roundWords (watermark : Watermark) : Direction → Nat
  | taken => 2 * watermark.val
  | stored => watermark.val

end Direction

/-- Only a load of the control register shows a level. -/
lemma loadEvent_of_level {dir : Direction} {level : Word} {t : Trace bus A}
    (h : dir.level level ∈ marks fspi t) :
    .call (.load (fspi + dir.control)) level ∈ t := by
  obtain ⟨e, he, hmark⟩ := List.mem_filterMap.mp h
  cases e with
  | call o r =>
    cases o with
    | load a =>
      cases dir with
      | taken =>
        simp only [mark?] at hmark
        split_ifs at hmark with htx hrx
        · obtain rfl := Mark.txLevel.inj (Option.some.inj hmark)
          rwa [htx] at he
        · cases hmark
        · obtain ⟨i, -, hi⟩ := Option.map_eq_some_iff.mp hmark
          cases hi
      | stored =>
        simp only [mark?] at hmark
        split_ifs at hmark with htx hrx
        · cases hmark
        · obtain rfl := Mark.rxLevel.inj (Option.some.inj hmark)
          rwa [hrx] at he
        · obtain ⟨i, -, hi⟩ := Option.map_eq_some_iff.mp hmark
          cases hi
    | store a v =>
      simp only [mark?] at hmark
      split_ifs at hmark
      · cases dir <;> cases hmark
      · cases dir <;> cases hmark
      · cases dir <;> cases hmark
      · obtain ⟨i, -, hi⟩ := Option.map_eq_some_iff.mp hmark
        cases dir <;> cases hi
    | _ => cases hmark
  | spin w v => cases hmark
  | act a => cases hmark

/-- A word is moved between the window and the buffer. -/
def Mark.isMove : Mark → Bool
  | .fill _ _ | .fetch _ _ => true
  | _ => false

/-- Behind the marks `l` the words of `size` bytes have been moved in rounds, and no others. -/
def InRounds (dir : Direction) (size : Nat) (watermark : Watermark) (l l' : List Mark) : Prop :=
  ∃ front rounds back, l' = l ++ front ++ rounds.flatMap (Round.marks dir.move) ++ back ∧
    (∀ m ∈ front ++ back, m.isMove = false) ∧
    Chunked (dir.roundWords watermark) dir.flag size rounds

/-! ## Accesses that move nothing -/

/-- The access is not to the windows. -/
def BesideWindows (fspi : Nat) : Head bus → Prop
  | .call (.load a) => ∃ off, a = fspi + off ∧ off < 0x100
  | .call (.store a _) => ∃ off, a = fspi + off ∧ off < 0x100
  | _ => True

lemma besideWindows_flag {d : Head bus} (h : FlagHead fspi d) : BesideWindows fspi d := by
  cases h with
  | loadIntr => exact ⟨Reg.intr, rfl, by decide⟩
  | storeIntr v => exact ⟨Reg.intr, rfl, by decide⟩
  | loadStatus hoff => exact ⟨_, rfl, Nat.lt_of_lt_of_le hoff.2 (by decide)⟩
  | storeStatus v hoff => exact ⟨_, rfl, Nat.lt_of_lt_of_le hoff.2 (by decide)⟩

lemma mark?_besideWindows {o : Access} (h : BesideWindows fspi (.call o)) {r : o.Res} {m : Mark}
    (hm : mark? (A := A) fspi (.call o r) = some m) : m.isMove = false := by
  cases o with
  | load a =>
    obtain ⟨off, rfl, hoff⟩ := h
    have hindex : wordIndex (fspi + Reg.rfdr 0) (fspi + off) = none :=
      wordIndex_of_lt (by simp only [Reg.rfdr]; omega)
    simp only [mark?, hindex, Option.map_none] at hm
    split_ifs at hm <;> obtain rfl := Option.some.inj hm <;> rfl
  | store a v =>
    obtain ⟨off, rfl, hoff⟩ := h
    have hindex : wordIndex (fspi + Reg.tfdr 0) (fspi + off) = none :=
      wordIndex_of_lt (by simp only [Reg.tfdr]; omega)
    simp only [mark?, hindex, Option.map_none] at hm
    split_ifs at hm <;> obtain rfl := Option.some.inj hm <;> rfl
  | _ => cases hm

/-- What does not touch the windows keeps every fact about the marks that more of them, which move
nothing, cannot undo. -/
lemma besideWindows_triple {α : Type} {p : Driver α} {C : List Mark → Prop}
    (hC : ∀ l m, C l → m.isMove = false → C (l ++ [m])) (hp : p.Every (BesideWindows fspi)) :
    M.Triple (fun _ _ _ => True) (fun _ t => C (marks fspi t)) p
      fun _ _ t => C (marks fspi t) := by
  refine Triple.invariant hp ?_ (fun _ _ _ _ _ => trivial) ?_ ?_
  · intro a s s' t h _
    rw [marks_snoc]
    exact (List.append_nil (marks fspi t)).symm ▸ h
  · intro o s t ho h
    rw [marks_snoc]
    cases hmark : mark? fspi (.call o (M.exec o s).1 : Event bus A) with
    | none => rwa [Option.toList_none, List.append_nil]
    | some m => exact hC _ m h (mark?_besideWindows ho hmark)
  · intro w s t _ h
    rw [marks_snoc]
    exact (List.append_nil (marks fspi t)).symm ▸ h

lemma setupCommand_besideWindows (xfer : FlexspiTransfer) :
    (setupCommand fspi xfer).Every (BesideWindows fspi) := by
  have hset : ∀ {off : Nat} (m : Word), off < 0x100 →
      (orReg (fspi + off) m).Every (BesideWindows fspi) := fun m h =>
    orReg_every ⟨_, rfl, h⟩ fun _ => ⟨_, rfl, h⟩
  have hport := flshcr2_lt xfer.port
  refine (hset _ (by omega)).bind fun _ => ?_
  refine (clearFlags_every.mono fun _ => besideWindows_flag).bind fun _ => ?_
  refine ⟨⟨Reg.ipcr0, rfl, by decide⟩, fun _ => ?_⟩
  refine (hset _ (by decide)).bind fun _ => (hset _ (by decide)).bind fun _ => ?_
  exact ⟨⟨Reg.ipcr1, rfl, by decide⟩, fun _ => trivial⟩

lemma awaitCommand_besideWindows (result : Int) :
    (awaitCommand fspi result).Every (BesideWindows fspi) := by
  refine (waitBit_every trivial).bind fun _ => ?_
  split
  · exact (orReg_every ⟨Reg.intr, rfl, by decide⟩ fun v => ⟨Reg.intr, rfl, by decide⟩).bind
      fun _ => trivial
  · trivial

/-! ## The whole transfer -/

/-- Behind the marks `l` no word has been moved. -/
def NothingMoved (l l' : List Mark) : Prop :=
  ∃ front, l' = l ++ front ∧ ∀ m ∈ front, m.isMove = false

/-- The rounds of a transfer have been made behind `l`, cut by a watermark that has been loaded. -/
def RoundsMade (dir : Direction) (size : Nat) (l l' : List Mark) : Prop :=
  ∃ level, dir.level level ∈ l' ∧ InRounds dir size (watermarkOf level) l l'

variable {dir : Direction} {size : Nat} {l l' : List Mark}

lemma forall_mem_snoc {ms : List Mark} {m : Mark} (h : ∀ m ∈ ms, m.isMove = false)
    (hm : m.isMove = false) : ∀ m' ∈ ms ++ [m], m'.isMove = false := by
  intro m' hm'
  obtain hm' | hm' := List.mem_append.mp hm'
  · exact h m' hm'
  · rwa [List.mem_singleton.mp hm']

lemma nothingMoved_refl (l : List Mark) : NothingMoved l l :=
  ⟨[], (List.append_nil l).symm, fun _ hm => absurd hm List.not_mem_nil⟩

lemma NothingMoved.snoc {m : Mark} (h : NothingMoved l l') (hm : m.isMove = false) :
    NothingMoved l (l' ++ [m]) := by
  obtain ⟨front, rfl, hfront⟩ := h
  exact ⟨front ++ [m], List.append_assoc _ _ _, forall_mem_snoc hfront hm⟩

lemma RoundsMade.snoc {m : Mark} (h : RoundsMade dir size l l') (hm : m.isMove = false) :
    RoundsMade dir size l (l' ++ [m]) := by
  obtain ⟨level, hlevel, front, rounds, back, rfl, hstill, hchunked⟩ := h
  refine ⟨level, List.mem_append_left _ hlevel, front, rounds, back ++ [m], ?_, ?_, hchunked⟩
  · rw [List.append_assoc]
  · rw [← List.append_assoc]
    exact forall_mem_snoc hstill hm

/-- The rounds of the data phase, behind what has been done to set up the command; `front'` is what
the data phase does before the rounds. -/
lemma NothingMoved.roundsMade {l'' : List Mark} (h : NothingMoved l l') (dir : Direction)
    (front' : List Mark) (hfront' : ∀ m ∈ front', m.isMove = false) {level : Word}
    (hlevel : dir.level level ∈ front') {rounds : List Round}
    (hchunked : Chunked (dir.roundWords (watermarkOf level)) dir.flag size rounds)
    (hl'' : l'' = l' ++ front' ++ rounds.flatMap (Round.marks dir.move)) :
    RoundsMade dir size l l'' := by
  obtain ⟨front, rfl, hfront⟩ := h
  subst hl''
  refine ⟨level, ?_, front ++ front', rounds, [], ?_, ?_, hchunked⟩
  · exact List.mem_append_left _ (List.mem_append_right _ hlevel)
  · simp only [List.append_assoc, List.append_nil]
  · intro m hm
    rw [List.append_nil, List.mem_append] at hm
    exact hm.elim (hfront m) (hfront' m)

lemma writeBlocking_roundsMade (D : Buffers M) (buffer : Nat) (hsize : size ≤ 1024) :
    M.Triple (fun _ _ _ => True) (fun _ t => NothingMoved l (marks fspi t))
      (writeBlocking fspi buffer size)
      fun _ _ t => RoundsMade .taken size l (marks fspi t) := by
  intro s t hfront
  have hlogged : M.Triple _ (Logged D fspi (D.bytes s) (marks fspi t)) _ _ :=
    writeBlocking_logged buffer size hsize
  refine ((hlogged.allow fun _ _ _ _ => trivial).post fun _ s' t' hs => ?_) s t ⟨rfl, rfl⟩
  obtain ⟨-, level, rounds, ⟨-, hmarks⟩, hchunked, -⟩ := hs
  refine hfront.roundsMade .taken [.txLevel level] ?_ (List.mem_singleton_self _) hchunked hmarks
  intro m hm
  obtain rfl := List.mem_singleton.mp hm
  rfl

lemma readBlocking_roundsMade (D : Buffers M) (buffer : Nat) (hsize : size ≤ 1024) :
    M.Triple (fun _ _ _ => True) (fun _ t => NothingMoved l (marks fspi t))
      (readBlocking fspi buffer size)
      fun _ _ t => RoundsMade .stored size l (marks fspi t) := by
  intro s t hfront
  have hlogged : M.Triple _ (Logged D fspi (D.bytes s) (marks fspi t)) _ _ :=
    readBlocking_logged buffer size hsize
  refine ((hlogged.allow fun _ _ _ _ => trivial).post fun _ s' t' hs => ?_) s t ⟨rfl, rfl⟩
  obtain ⟨-, level, flushed, rounds, ⟨-, hmarks⟩, hchunked⟩ := hs
  refine hfront.roundsMade .stored
    [.rxLevel level, .rxLevel flushed, .rxSet (flushed ||| 1#32)] ?_ List.mem_cons_self hchunked ?_
  · intro m hm
    simp only [List.mem_cons, List.not_mem_nil, or_false] at hm
    obtain rfl | rfl | rfl := hm <;> rfl
  · rw [hmarks, List.append_assoc]
    rfl

/-- **A transfer moves its words in rounds**, on every machine that keeps the buffers. -/
theorem transferBlocking_roundsMade (D : Buffers M) {xfer : FlexspiTransfer}
    (hacc : xfer.Accepted) :
    M.Triple (fun _ _ _ => True) (fun _ t => marks fspi t = l) (transferBlocking fspi xfer)
      fun _ _ t => RoundsMade xfer.cmdType.direction xfer.dataSize.toNat l (marks fspi t) := by
  have hfront : ∀ {α : Type} {p : Driver α}, p.Every (BesideWindows fspi) →
      M.Triple (fun _ _ _ => True) (fun _ t => NothingMoved l (marks fspi t)) p
        fun _ _ t => NothingMoved l (marks fspi t) := fun hp =>
    besideWindows_triple (C := NothingMoved l) (fun _ _ => NothingMoved.snoc) hp
  refine Triple.bind ((hfront (setupCommand_besideWindows xfer)).pre fun s t hs => ?_) fun _ => ?_
  · rw [hs]
    exact nothingMoved_refl l
  refine Triple.bind (hfront (orReg_every ⟨Reg.ipcmd, rfl, by decide⟩ fun v =>
    ⟨Reg.ipcmd, rfl, by decide⟩)) fun _ => ?_
  refine Triple.bind
    (Q := fun _ _ t => RoundsMade xfer.cmdType.direction xfer.dataSize.toNat l (marks fspi t))
    ?_ fun r => ?_
  · unfold moveData
    cases hcmd : xfer.cmdType with
    | write => exact writeBlocking_roundsMade D xfer.data hacc.2
    | config => exact writeBlocking_roundsMade D xfer.data hacc.2
    | read => exact readBlocking_roundsMade D xfer.data hacc.2
    | command => exact absurd hcmd hacc.1
  · exact besideWindows_triple (fun _ _ => RoundsMade.snoc) (awaitCommand_besideWindows r)

end QspiTool
