import QspiTool.Device.Freedom

/-!
# Which words of the FIFO windows a transfer touches

`TFDR` and `RFDR` have 32 words each.  The loops index them up to a watermark read from the
device, at most 128 units of 64 bits for `write_blocking` and at most 128 words for
`read_blocking`, and the asserted bound `size <= 32 * 32` limits the size in bytes to what 256
words hold.  So an index stays below 32 only when the watermark or the size is small enough:
`windows_bounded_iff` gives the condition for each window.
-/

namespace QspiTool

open Words Interaction Machine

variable {permits : Permits} {fspi : Nat}

/-- Every word of the TX window that `write_blocking` stores to lies inside `TFDR`, when
`IPTXFCR` holds `iptxfcr`. -/
def TxWindowBounded (fspi buffer size : Nat) (iptxfcr : Word) : Prop :=
  ∀ (permits : Permits) (s : Bus) (c : Config bus Bus DeviceAction Int) (i : Nat) (v : Word),
    s.dev.core.reg Reg.iptxfcr = iptxfcr →
    (flexspi permits fspi).Reach ⟨writeBlocking fspi buffer size, s, []⟩ c →
    c.prog.head = .call (.store (fspi + Reg.tfdr i) v) → i < 32

/-- Every word of the RX window that `read_blocking` loads lies inside `RFDR`, when `IPRXFCR`
holds `iprxfcr`. -/
def RxWindowBounded (fspi buffer size : Nat) (iprxfcr : Word) : Prop :=
  ∀ (permits : Permits) (s : Bus) (c : Config bus Bus DeviceAction Int) (i : Nat),
    s.dev.core.reg Reg.iprxfcr = iprxfcr →
    (flexspi permits fspi).Reach ⟨readBlocking fspi buffer size, s, []⟩ c →
    c.prog.head = .call (.load (fspi + Reg.rfdr i)) → i < 32

/-! ## The loops stay within their reach -/

lemma index_lt_of_writeHead {bound i : Nat} {v : Word}
    (h : WriteHead fspi bound (.call (.store (fspi + Reg.tfdr i) v))) : i < bound := by
  generalize hd : Head.call (S := bus) (.store (fspi + Reg.tfdr i) v) = d at h
  cases h with
  | flag h =>
    cases h with
    | storeIntr v =>
      injection hd with hd
      injection hd with hd
      simp only [Reg.tfdr, Reg.intr] at hd
      omega
    | storeStatus v hoff =>
      injection hd with hd
      injection hd with hd
      simp only [Reg.tfdr, Reg.IsStatus] at hd hoff
      omega
    | loadIntr => cases hd
    | loadStatus hoff => cases hd
  | wait => cases hd
  | chunk h =>
    cases h with
    | read32 a => cases hd
    | read8 a => cases hd
    | fill v hi =>
      injection hd with hd
      injection hd with hd
      simp only [Reg.tfdr] at hd
      omega

lemma index_lt_of_readHead {bound i : Nat}
    (h : ReadHead fspi bound (.call (.load (fspi + Reg.rfdr i)))) : i < bound := by
  generalize hd : Head.call (S := bus) (.load (fspi + Reg.rfdr i)) = d at h
  cases h with
  | flag h =>
    cases h with
    | loadIntr =>
      injection hd with hd
      injection hd with hd
      simp only [Reg.rfdr, Reg.intr] at hd
      omega
    | loadStatus hoff =>
      injection hd with hd
      injection hd with hd
      simp only [Reg.rfdr, Reg.IsStatus] at hd hoff
      omega
    | storeIntr v => cases hd
    | storeStatus v hoff => cases hd
  | wait => cases hd
  | chunk h =>
    cases h with
    | fetch hi =>
      injection hd with hd
      injection hd with hd
      simp only [Reg.rfdr] at hd
      omega
    | write32 a v => cases hd
    | write8 a b => cases hd

/-- What `write_blocking` may do when its loop reaches `bound` words. -/
def TxWithin (fspi bound : Nat) (d : Head bus) : Prop :=
  ∀ i v, d = .call (.store (fspi + Reg.tfdr i) v) → i < bound

/-- What `read_blocking` may do when its loop reaches `bound` words. -/
def RxWithin (fspi bound : Nat) (d : Head bus) : Prop :=
  ∀ i, d = .call (.load (fspi + Reg.rfdr i)) → i < bound

lemma stable_reg (off : Nat) (v : Word) :
    (flexspi permits fspi).Stable fun s _ => s.dev.core.reg off = v :=
  stable_core fun _ c => c.reg off = v

/-- The loop runs with the watermark that `IPTXFCR` held at the start. -/
lemma writeBlocking_within (buffer size : Nat) (iptxfcr : Word) :
    (flexspi permits fspi).Triple
      (fun d _ _ => TxWithin fspi (txReach (watermarkOf iptxfcr) size) d)
      (fun s _ => s.dev.core.reg Reg.iptxfcr = iptxfcr) (writeBlocking fspi buffer size)
      fun _ _ _ => True := by
  have hpure : ∀ v : Word, (flexspi permits fspi).Stable fun _ _ => v = iptxfcr :=
    fun v => stable_const _
  refine Triple.bind (Triple.check (stable_reg _ _) fun _ _ _ _ _ _ h => nomatch h) fun _ => ?_
  refine Triple.bind (load_triple (Q := fun v _ _ => v = iptxfcr) ?_ hpure
    (fun _ _ _ _ _ h => nomatch h) ?_) fun v => ?_
  · exact stable_and_const (stable_reg _ _) _
  · rintro s t ⟨hs, -⟩
    rw [Controller.load_core _ (by decide) (by decide) (by decide), hs]
  · refine Triple.bind (Q := fun _ _ _ => True) ?_ fun _ =>
      Triple.ret stable_true fun _ _ _ => trivial
    intro s t hv
    subst hv
    refine Triple.invariant (writeLoop_every (watermarkOf v) buffer size) stable_true ?_
      (fun _ _ _ _ _ => trivial) (fun _ _ _ _ _ => trivial) s t trivial
    rintro d s t hd - i v rfl
    exact index_lt_of_writeHead hd

/-- The loop runs with the watermark that `IPRXFCR` held at the start. -/
lemma readBlocking_within (buffer size : Nat) (iprxfcr : Word) :
    (flexspi permits fspi).Triple
      (fun d _ _ => RxWithin fspi (rxReach (watermarkOf iprxfcr) size) d)
      (fun s _ => s.dev.core.reg Reg.iprxfcr = iprxfcr) (readBlocking fspi buffer size)
      fun _ _ _ => True := by
  have hpure : ∀ v : Word, (flexspi permits fspi).Stable fun _ _ => v = iprxfcr :=
    fun v => stable_const _
  have hcontrol : ∀ i, fspi + Reg.iprxfcr ≠ fspi + Reg.rfdr i := fun i heq =>
    Reg.rfdr_ne (by decide) i (Nat.add_left_cancel heq).symm
  have hload : RxWithin fspi (rxReach (watermarkOf iprxfcr) size)
      (.call (.load (fspi + Reg.iprxfcr))) := by
    intro i h
    injection h with h
    injection h with h
    exact absurd h (hcontrol i)
  refine Triple.bind (Triple.check (stable_reg _ _) fun _ _ _ _ _ h => nomatch h) fun _ => ?_
  refine Triple.bind (load_triple (Q := fun v _ _ => v = iprxfcr) ?_ hpure
    (fun _ _ _ => hload) ?_) fun v => ?_
  · exact stable_and_const (stable_reg _ _) _
  · rintro s t ⟨hs, -⟩
    rw [Controller.load_core _ (by decide) (by decide) (by decide), hs]
  · refine Triple.bind (Q := fun _ _ _ => v = iprxfcr) ?_ fun _ => ?_
    · exact orReg_core_triple (by decide) (by decide) (by decide) (hpure v) (hpure v)
        (fun _ _ _ => hload) (fun _ _ _ h => h) fun _ _ _ h _ => ⟨fun _ h => (nomatch h), h⟩
    refine Triple.bind (Q := fun _ _ _ => True) ?_ fun _ =>
      Triple.ret stable_true fun _ _ _ => trivial
    intro s t hv
    subst hv
    refine Triple.invariant (readLoop_every (watermarkOf v) buffer size) stable_true ?_
      (fun _ _ _ _ _ => trivial) (fun _ _ _ _ _ => trivial) s t trivial
    rintro d s t hd - i rfl
    exact index_lt_of_readHead hd

/-! ## The loops reach the word behind the window -/

lemma writeWords_add (m n i buffer : Nat) :
    writeWords fspi (m + n) i buffer =
      writeWords fspi m i buffer >>= writeWords fspi n (i + m) := by
  induction m generalizing i buffer with
  | zero => rw [Nat.zero_add]; rfl
  | succ m ih =>
    rw [Nat.succ_add, writeWords, writeWords, LawfulMonad.bind_assoc]
    refine congrArg _ (funext fun v => ?_)
    rw [LawfulMonad.bind_assoc]
    refine congrArg _ (funext fun _ => ?_)
    rw [ih, show i + 1 + m = i + (m + 1) by omega]

lemma readWords_add (m n i buffer : Nat) :
    readWords fspi (m + n) i buffer = readWords fspi m i buffer >>= readWords fspi n (i + m) := by
  induction m generalizing i buffer with
  | zero => rw [Nat.zero_add]; rfl
  | succ m ih =>
    rw [Nat.succ_add, readWords, readWords, LawfulMonad.bind_assoc]
    refine congrArg _ (funext fun v => ?_)
    rw [LawfulMonad.bind_assoc]
    refine congrArg _ (funext fun _ => ?_)
    rw [ih, show i + 1 + m = i + (m + 1) by omega]

/-- The driver is about to store to the word behind `TFDR`. -/
def PastTx (fspi : Nat) (d : Head bus) : Prop :=
  ∃ v, d = .call (.store (fspi + Reg.tfdr 32) v)

/-- The driver is about to load the word behind `RFDR`. -/
def PastRx (fspi : Nat) (d : Head bus) : Prop := d = .call (.load (fspi + Reg.rfdr 32))

lemma writeWords_past {n : Nat} (hn : 33 ≤ n) (buffer : Nat) :
    (flexspi anyAction fspi).CanReach (PastTx fspi) (writeWords fspi n 0 buffer) := by
  obtain ⟨m, rfl⟩ := Nat.exists_eq_add_of_le' hn
  rw [show m + 33 = 32 + (m + 1) by omega, writeWords_add]
  refine .bind_right (exists_return_fill 32 (writeWords_every 32 0 buffer (by omega)) (by decide))
    fun b => ?_
  have hread : (read32 b).Every (FillHead fspi 1) := ⟨.read32 b, fun _ => trivial⟩
  exact .bind_right (exists_return_fill 1 hread (by decide)) fun v => .here ⟨v, rfl⟩

lemma readWords_past {n : Nat} (hn : 33 ≤ n) (buffer : Nat) :
    (flexspi anyAction fspi).CanReach (PastRx fspi) (readWords fspi n 0 buffer) := by
  obtain ⟨m, rfl⟩ := Nat.exists_eq_add_of_le' hn
  rw [show m + 33 = 32 + (m + 1) by omega, readWords_add]
  exact .bind_right (exists_return_fetch 32 (readWords_every 32 0 buffer (by omega)) (by decide))
    fun b => .here rfl

/-- A round that moves more than 128 bytes leaves the TX window. -/
lemma writeChunk_past (watermark : Watermark) (buffer : Nat) {size : Nat}
    (hw : 16 < watermark.val) (hsize : 128 < size) :
    (flexspi anyAction fspi).CanReach (PastTx fspi) (writeChunk fspi watermark buffer size) := by
  have hdone : ¬ PastTx fspi .done := fun ⟨_, h⟩ => nomatch h
  unfold writeChunk
  split
  · exact writeWords_past (by omega) buffer
  · by_cases hwords : 33 ≤ size / 4
    · exact (writeWords_past hwords buffer).bind_left hdone _
    · -- exactly 32 words and a tail, which goes to the word behind them
      have h32 : size / 4 = 32 := by omega
      rw [h32]
      refine .bind_right (exists_return_fill 32 (writeWords_every 32 0 buffer (by omega))
        (by decide)) fun b => ?_
      rw [writeTail, if_pos (by omega)]
      exact .bind_right (exists_return_fill 1 (gatherBytes_every _ _ _ b) (by decide))
        fun r => .here ⟨r.1, rfl⟩

/-- A round that moves more than 128 bytes leaves the RX window. -/
lemma readChunk_past (watermark : Watermark) (buffer : Nat) {size : Nat}
    (hw : 32 < watermark.val) (hsize : 128 < size) :
    (flexspi anyAction fspi).CanReach (PastRx fspi) (readChunk fspi watermark buffer size) := by
  have hdone : ¬ PastRx fspi .done := nofun
  unfold readChunk
  split
  · exact readWords_past (by omega) buffer
  · by_cases hwords : 33 ≤ size / 4
    · exact (readWords_past hwords buffer).bind_left hdone _
    · have h32 : size / 4 = 32 := by omega
      rw [h32]
      refine .bind_right (exists_return_fetch 32 (readWords_every 32 0 buffer (by omega))
        (by decide)) fun b => ?_
      rw [readTail, if_pos (by omega)]
      exact .here rfl

/-- The wait and the flag clear at the start of a round. -/
lemma exists_return_enter (flag : Nat) (hflag : flag = txEmpty ∨ flag = rxWatermarkFlag) (s : Bus)
    (t : BusTrace) :
    ∃ a s' t', (flexspi anyAction fspi).Reach
      ⟨waitBit (fspi + Reg.intr) flag >>= fun _ => clearFlags fspi, s, t⟩ ⟨.ret a, s', t'⟩ := by
  refine exists_return ((waitBit_every ?_).bind fun _ => clearFlags_every.mono fun _ => .flag) s t
  obtain rfl | rfl := hflag
  · exact .write .wait
  · exact .read .wait

lemma writeLoop_past (watermark : Watermark) (buffer : Nat) {size : Nat}
    (hw : 16 < watermark.val) (hsize : 128 < size) :
    (flexspi anyAction fspi).CanReach (PastTx fspi) (writeLoop fspi watermark buffer size) := by
  have hdone : ¬ PastTx fspi .done := fun ⟨_, h⟩ => nomatch h
  have henter : writeRound fspi watermark buffer size =
      (waitBit (fspi + Reg.intr) txEmpty >>= fun _ => clearFlags fspi) >>= fun _ =>
        writeChunk fspi watermark buffer size >>= fun b =>
          orReg (fspi + Reg.intr) (bit txEmpty) >>= fun _ => pure b := rfl
  rw [writeLoop, dif_neg (by omega), henter]
  refine CanReach.bind_left hdone ?_ _
  exact .bind_right (exists_return_enter txEmpty (.inl rfl)) fun _ =>
    (writeChunk_past watermark buffer hw hsize).bind_left hdone _

lemma readLoop_past (watermark : Watermark) (buffer : Nat) {size : Nat}
    (hw : 32 < watermark.val) (hsize : 128 < size) :
    (flexspi anyAction fspi).CanReach (PastRx fspi) (readLoop fspi watermark buffer size) := by
  have hdone : ¬ PastRx fspi .done := nofun
  have henter : readRound fspi watermark buffer size =
      (waitBit (fspi + Reg.intr) rxWatermarkFlag >>= fun _ => clearFlags fspi) >>= fun _ =>
        readChunk fspi watermark buffer size >>= fun b =>
          orReg (fspi + Reg.intr) (bit rxWatermarkFlag) >>= fun _ => pure b := rfl
  rw [readLoop, dif_neg (by omega), henter]
  refine CanReach.bind_left hdone ?_ _
  exact .bind_right (exists_return_enter rxWatermarkFlag (.inr rfl)) fun _ =>
    (readChunk_past watermark buffer hw hsize).bind_left hdone _

/-- With the watermark register at `iptxfcr`, some run of `write_blocking` leaves the window. -/
lemma exists_writeBlocking_past (fspi buffer : Nat) {size : Nat} (hsize : size ≤ 1024)
    (hpast : 128 < size) (s : Bus) (hw : 16 < (watermarkOf (s.dev.core.reg Reg.iptxfcr)).val) :
    ∃ c, (flexspi anyAction fspi).Reach ⟨writeBlocking fspi buffer size, s, []⟩ c ∧
      PastTx fspi c.prog.head := by
  have hdone : ¬ PastTx fspi .done := fun ⟨_, h⟩ => nomatch h
  rw [writeBlocking, check, Prog.check, if_pos hsize, Prog.ret_bind]
  have hload := reach_load anyAction fspi Reg.iptxfcr
    (fun v => writeLoop fspi (watermarkOf v) buffer size >>= fun _ => pure (0 : Int)) s []
  rw [Controller.load_core _ (by decide) (by decide) (by decide)] at hload
  obtain ⟨c, hreach, hc⟩ := ((writeLoop_past _ buffer hw hpast).bind_left hdone
    fun _ => pure (0 : Int)) s _
  exact ⟨c, hload.trans hreach, hc⟩

/-- With the watermark register at `iprxfcr`, some run of `read_blocking` leaves the window. -/
lemma exists_readBlocking_past (fspi buffer : Nat) {size : Nat} (hsize : size ≤ 1024)
    (hpast : 128 < size) (s : Bus) (hw : 32 < (watermarkOf (s.dev.core.reg Reg.iprxfcr)).val) :
    ∃ c, (flexspi anyAction fspi).Reach ⟨readBlocking fspi buffer size, s, []⟩ c ∧
      PastRx fspi c.prog.head := by
  have hdone : ¬ PastRx fspi .done := nofun
  rw [readBlocking, check, Prog.check, if_pos hsize, Prog.ret_bind]
  have hload := reach_load anyAction fspi Reg.iprxfcr
    (fun v => orReg (fspi + Reg.iprxfcr) 1#32 >>= fun _ =>
      readLoop fspi (watermarkOf v) buffer size >>= fun _ => pure (0 : Int)) s []
  rw [Controller.load_core _ (by decide) (by decide) (by decide)] at hload
  have hflush : (orReg (fspi + Reg.iprxfcr) 1#32).Every (TransferHead fspi) :=
    orReg_every (.loadControl (by decide)) fun v => .storeControl v (by decide)
  obtain ⟨c, hreach, hc⟩ := CanReach.bind_right (exists_return hflush)
    (fun _ => (readLoop_past _ buffer hw hpast).bind_left hdone fun _ => pure (0 : Int)) s _
  exact ⟨c, hload.trans hreach, hc⟩

/-! ## The condition -/

/-- A controller with the given watermark registers. -/
def Bus.withWatermarks (iptxfcr iprxfcr : Word) : Bus where
  dev := { Controller.reset with
    core := (Controller.reset.core.setReg Reg.iptxfcr iptxfcr).setReg Reg.iprxfcr iprxfcr }
  mem := fun _ => 0#8

/-- **When the FIFO windows are enough.**  The indices into `TFDR` stay below 32, the length of
the array, exactly when the TX watermark is at most 16 or the size is at most 128; those into
`RFDR` exactly when the RX watermark is at most 32 or the size is at most 128. -/
theorem windows_bounded_iff (fspi buffer size : Nat) (hsize : size ≤ 1024)
    (iptxfcr iprxfcr : Word) :
    (TxWindowBounded fspi buffer size iptxfcr ↔
        (watermarkOf iptxfcr).val ≤ 16 ∨ size ≤ 128) ∧
      (RxWindowBounded fspi buffer size iprxfcr ↔
        (watermarkOf iprxfcr).val ≤ 32 ∨ size ≤ 128) := by
  refine ⟨⟨fun hbound => ?_, fun hcond permits s c i v hs hreach hhead => ?_⟩,
    ⟨fun hbound => ?_, fun hcond permits s c i hs hreach hhead => ?_⟩⟩
  · by_contra hcond
    obtain ⟨c, hreach, v, hhead⟩ := exists_writeBlocking_past fspi buffer hsize
      (by omega) (Bus.withWatermarks iptxfcr iprxfcr) (show 16 < (watermarkOf iptxfcr).val by omega)
    exact absurd (hbound anyAction _ c 32 v rfl hreach hhead) (by decide)
  · have hwithin := (writeBlocking_within buffer size iptxfcr).guarantee hs hreach
      (by simp [hhead])
    have hi := hwithin i v hhead
    simp only [txReach] at hi
    omega
  · by_contra hcond
    obtain ⟨c, hreach, hhead⟩ := exists_readBlocking_past fspi buffer hsize
      (by omega) (Bus.withWatermarks iptxfcr iprxfcr) (show 32 < (watermarkOf iprxfcr).val by omega)
    exact absurd (hbound anyAction _ c 32 rfl hreach hhead) (by decide)
  · have hwithin := (readBlocking_within buffer size iprxfcr).guarantee hs hreach
      (by simp [hhead])
    have hi := hwithin i hhead
    simp only [rxReach] at hi
    omega

/-- At watermark 16, the largest `TFDR` has room for, the window is never left. -/
theorem windows_bounded_full : TxWindowBounded 0 100 1024 0x3C#32 :=
  ((windows_bounded_iff 0 100 1024 (by decide) 0x3C#32 0#32).1).mpr (.inl (by decide))

/-- **The window is left**: 1024 bytes at watermark 128 store to the word behind `TFDR`, which
is `LUT[0]`. -/
theorem writeBlocking_leaves_window :
    ¬ ∀ (fspi buffer size : Nat) (iptxfcr iprxfcr : Word), size ≤ 1024 →
      TxWindowBounded fspi buffer size iptxfcr ∧ RxWindowBounded fspi buffer size iprxfcr := by
  intro hevery
  obtain ⟨c, hreach, v, hhead⟩ := exists_writeBlocking_past 0 100
    (show 1024 ≤ 1024 by decide) (by decide) (Bus.withWatermarks 0x1FC#32 0#32) (by decide)
  exact absurd ((hevery 0 100 1024 0x1FC#32 0#32 (by decide)).1 anyAction _ c 32 v rfl hreach hhead)
    (by decide)

end QspiTool
