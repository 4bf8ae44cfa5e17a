import QspiTool.Driver.Api

/-!
# What each driver function can ever do

The accesses of the transfer core, whatever the device answers.  Each function has one lemma
`…_every` that lists all the operations, waits and failing assertions it can make; facts about
every run that depend only on *which* accesses are made follow from these lists.

`write_blocking` with a watermark of `w` reaches at most the first `txReach w size` words of
the TX window, `read_blocking` at most the first `rxReach w size` words of the RX window.
-/

namespace QspiTool

open Words Interaction

variable {fspi : Nat}

/-! ## Flags -/

/-- The accesses of `clear_flags` and of the acknowledges. -/
inductive FlagHead (fspi : Nat) : Head bus → Prop
  | loadIntr : FlagHead fspi (.call (.load (fspi + Reg.intr)))
  | storeIntr (v : Word) : FlagHead fspi (.call (.store (fspi + Reg.intr) v))
  | loadStatus {off : Nat} (h : Reg.IsStatus off) : FlagHead fspi (.call (.load (fspi + off)))
  | storeStatus {off : Nat} (v : Word) (h : Reg.IsStatus off) :
      FlagHead fspi (.call (.store (fspi + off) v))

lemma orReg_every {φ : Head bus → Prop} {a : Nat} {m : Word} (hload : φ (.call (.load a)))
    (hstore : ∀ v, φ (.call (.store a v))) : (orReg a m).Every φ :=
  ⟨hload, fun _ => ⟨hstore _, fun _ => trivial⟩⟩

lemma load_every {φ : Head bus → Prop} {a : Nat} (h : φ (.call (.load a))) :
    (load a).Every φ :=
  ⟨h, fun _ => trivial⟩

lemma waitBit_every {φ : Head bus → Prop} {a flag : Nat} (h : φ (.poll ⟨a, flag⟩)) :
    (waitBit a flag).Every φ :=
  ⟨h, trivial⟩

lemma store_every {φ : Head bus → Prop} {a : Nat} {v : Word} (h : φ (.call (.store a v))) :
    (store a v).Every φ :=
  ⟨h, fun _ => trivial⟩

lemma clearFlags_every : (clearFlags fspi).Every (FlagHead fspi) :=
  ⟨.loadIntr, fun _ => ⟨.storeIntr _, fun _ =>
    ⟨.loadStatus (by decide), fun _ => ⟨.storeStatus _ (by decide), fun _ =>
      ⟨.loadStatus (by decide), fun _ => ⟨.storeStatus _ (by decide), fun _ => trivial⟩⟩⟩⟩⟩⟩

/-! ## `write_blocking` -/

/-- The accesses that fill the TX window, with `bound` words of it. -/
inductive FillHead (fspi bound : Nat) : Head bus → Prop
  | read32 (a : Nat) : FillHead fspi bound (.call (.read32 a))
  | read8 (a : Nat) : FillHead fspi bound (.call (.read8 a))
  | fill {i : Nat} (v : Word) (h : i < bound) :
      FillHead fspi bound (.call (.store (fspi + Reg.tfdr i) v))

lemma FillHead.mono {b b' : Nat} (h : b ≤ b') {d : Head bus} (hd : FillHead fspi b d) :
    FillHead fspi b' d := by
  cases hd with
  | read32 a => exact .read32 a
  | read8 a => exact .read8 a
  | fill v hi => exact .fill v (Nat.lt_of_lt_of_le hi h)

/-- The accesses of the loop of `write_blocking`, with `bound` words of the TX window. -/
inductive WriteHead (fspi bound : Nat) : Head bus → Prop
  | flag {d : Head bus} (h : FlagHead fspi d) : WriteHead fspi bound d
  | wait : WriteHead fspi bound (.poll ⟨fspi + Reg.intr, txEmpty⟩)
  | chunk {d : Head bus} (h : FillHead fspi bound d) : WriteHead fspi bound d

lemma WriteHead.mono {b b' : Nat} (h : b ≤ b') {d : Head bus} (hd : WriteHead fspi b d) :
    WriteHead fspi b' d := by
  cases hd with
  | flag hf => exact .flag hf
  | wait => exact .wait
  | chunk hc => exact .chunk (hc.mono h)

lemma writeWords_every {bound : Nat} (n i buffer : Nat) (h : i + n ≤ bound) :
    (writeWords fspi n i buffer).Every (FillHead fspi bound) := by
  induction n generalizing i buffer with
  | zero => trivial
  | succ n ih => exact ⟨.read32 _, fun v => ⟨.fill v (by omega), fun _ => ih _ _ (by omega)⟩⟩

lemma gatherBytes_every {bound : Nat} (n j : Nat) (v : Word) (buffer : Nat) :
    (gatherBytes n j v buffer).Every (FillHead fspi bound) := by
  induction n generalizing j v buffer with
  | zero => trivial
  | succ n ih => exact ⟨.read8 _, fun _ => ih _ _ _⟩

lemma writeTail_every {bound : Nat} (size i buffer : Nat) (h : size ≠ 0 → i < bound) :
    (writeTail fspi size i buffer).Every (FillHead fspi bound) := by
  unfold writeTail
  split <;> rename_i hsize
  · exact (gatherBytes_every size 0 _ buffer).bind fun r =>
      ⟨.fill r.1 (h hsize), fun _ => trivial⟩
  · trivial

/-- How many words of the TX window the loop of `write_blocking` reaches. -/
def txReach (watermark : Watermark) (size : Nat) : Nat := min (2 * watermark.val) ((size + 3) / 4)

lemma txReach_le (watermark : Watermark) (size : Nat) : txReach watermark size ≤ 256 := by
  have := watermark.le
  simp only [txReach]
  omega

lemma writeChunk_every (watermark : Watermark) (buffer size : Nat) :
    (writeChunk fspi watermark buffer size).Every (FillHead fspi (txReach watermark size)) := by
  unfold writeChunk txReach
  split <;> rename_i hfull
  · exact writeWords_every _ 0 buffer (by omega)
  · exact (writeWords_every _ 0 buffer (by omega)).bind fun b =>
      writeTail_every _ _ b fun _ => by omega

lemma writeRound_every (watermark : Watermark) (buffer size : Nat) :
    (writeRound fspi watermark buffer size).Every
      (WriteHead fspi (txReach watermark size)) := by
  refine (waitBit_every .wait).bind fun _ => ?_
  refine (clearFlags_every.mono fun _ => .flag).bind fun _ => ?_
  refine ((writeChunk_every watermark buffer size).mono fun _ => .chunk).bind fun b => ?_
  exact (orReg_every (.flag .loadIntr) fun v => .flag (.storeIntr v)).bind fun _ => trivial

lemma writeLoop_every (watermark : Watermark) (buffer size : Nat) :
    (writeLoop fspi watermark buffer size).Every (WriteHead fspi (txReach watermark size)) := by
  induction size using Nat.strongRecOn generalizing buffer with
  | ind size ih =>
    rw [writeLoop]
    split <;> rename_i hsize
    · trivial
    · have hlt := writeRest_lt watermark hsize
      refine (writeRound_every watermark buffer size).bind fun b => ?_
      refine (ih _ hlt b).mono fun d => WriteHead.mono ?_
      simp only [txReach]
      omega

/-! ## `read_blocking` -/

/-- The accesses that empty the RX window, with `bound` words of it. -/
inductive FetchHead (fspi bound : Nat) : Head bus → Prop
  | fetch {i : Nat} (h : i < bound) : FetchHead fspi bound (.call (.load (fspi + Reg.rfdr i)))
  | write32 (a : Nat) (v : Word) : FetchHead fspi bound (.call (.write32 a v))
  | write8 (a : Nat) (b : Byte) : FetchHead fspi bound (.call (.write8 a b))

lemma FetchHead.mono {b b' : Nat} (h : b ≤ b') {d : Head bus} (hd : FetchHead fspi b d) :
    FetchHead fspi b' d := by
  cases hd with
  | fetch hi => exact .fetch (Nat.lt_of_lt_of_le hi h)
  | write32 a v => exact .write32 a v
  | write8 a b => exact .write8 a b

/-- The accesses of the loop of `read_blocking`, with `bound` words of the RX window. -/
inductive ReadHead (fspi bound : Nat) : Head bus → Prop
  | flag {d : Head bus} (h : FlagHead fspi d) : ReadHead fspi bound d
  | wait : ReadHead fspi bound (.poll ⟨fspi + Reg.intr, rxWatermarkFlag⟩)
  | chunk {d : Head bus} (h : FetchHead fspi bound d) : ReadHead fspi bound d

lemma ReadHead.mono {b b' : Nat} (h : b ≤ b') {d : Head bus} (hd : ReadHead fspi b d) :
    ReadHead fspi b' d := by
  cases hd with
  | flag hf => exact .flag hf
  | wait => exact .wait
  | chunk hc => exact .chunk (hc.mono h)

lemma readWords_every {bound : Nat} (n i buffer : Nat) (h : i + n ≤ bound) :
    (readWords fspi n i buffer).Every (FetchHead fspi bound) := by
  induction n generalizing i buffer with
  | zero => trivial
  | succ n ih => exact ⟨.fetch (by omega), fun v => ⟨.write32 _ v, fun _ => ih _ _ (by omega)⟩⟩

lemma scatterBytes_every {bound : Nat} (n j : Nat) (v : Word) (buffer : Nat) :
    (scatterBytes n j v buffer).Every (FetchHead fspi bound) := by
  induction n generalizing j buffer with
  | zero => trivial
  | succ n ih => exact ⟨.write8 _ _, fun _ => ih _ _⟩

lemma readTail_every {bound : Nat} (size i buffer : Nat) (h : size ≠ 0 → i < bound) :
    (readTail fspi size i buffer).Every (FetchHead fspi bound) := by
  unfold readTail
  split <;> rename_i hsize
  · exact ⟨.fetch (h hsize), fun v => scatterBytes_every size 0 v buffer⟩
  · trivial

/-- How many words of the RX window the loop of `read_blocking` reaches. -/
def rxReach (watermark : Watermark) (size : Nat) : Nat := min watermark.val ((size + 3) / 4)

lemma rxReach_le (watermark : Watermark) (size : Nat) : rxReach watermark size ≤ 128 := by
  have := watermark.le
  simp only [rxReach]
  omega

lemma readChunk_every (watermark : Watermark) (buffer size : Nat) :
    (readChunk fspi watermark buffer size).Every (FetchHead fspi (rxReach watermark size)) := by
  unfold readChunk rxReach
  split <;> rename_i hfull
  · exact readWords_every _ 0 buffer (by omega)
  · exact (readWords_every _ 0 buffer (by omega)).bind fun b =>
      readTail_every _ _ b fun _ => by omega

lemma readRound_every (watermark : Watermark) (buffer size : Nat) :
    (readRound fspi watermark buffer size).Every (ReadHead fspi (rxReach watermark size)) := by
  refine (waitBit_every .wait).bind fun _ => ?_
  refine (clearFlags_every.mono fun _ => .flag).bind fun _ => ?_
  refine ((readChunk_every watermark buffer size).mono fun _ => .chunk).bind fun b => ?_
  exact (orReg_every (.flag .loadIntr) fun v => .flag (.storeIntr v)).bind fun _ => trivial

lemma readLoop_every (watermark : Watermark) (buffer size : Nat) :
    (readLoop fspi watermark buffer size).Every (ReadHead fspi (rxReach watermark size)) := by
  induction size using Nat.strongRecOn generalizing buffer with
  | ind size ih =>
    rw [readLoop]
    split <;> rename_i hsize
    · trivial
    · have hlt := readRest_lt watermark hsize
      refine (readRound_every watermark buffer size).bind fun b => ?_
      refine (ih _ hlt b).mono fun d => ReadHead.mono ?_
      simp only [rxReach]
      omega

/-! ## `transfer_blocking` -/

/-- The accesses of `transfer_blocking`. -/
inductive TransferHead (fspi : Nat) : Head bus → Prop
  | flag {d : Head bus} (h : FlagHead fspi d) : TransferHead fspi d
  | loadControl {off : Nat} (h : Reg.IsControl off) :
      TransferHead fspi (.call (.load (fspi + off)))
  | storeControl {off : Nat} (v : Word) (h : Reg.IsControl off) :
      TransferHead fspi (.call (.store (fspi + off) v))
  | write {d : Head bus} (h : WriteHead fspi 256 d) : TransferHead fspi d
  | read {d : Head bus} (h : ReadHead fspi 128 d) : TransferHead fspi d
  | done : TransferHead fspi (.poll ⟨fspi + Reg.intr, cmdDone⟩)

/-- The accesses of `transfer_blocking` behind the trigger. -/
inductive DataHead (fspi : Nat) : Head bus → Prop
  | flag {d : Head bus} (h : FlagHead fspi d) : DataHead fspi d
  | loadControl {off : Nat} (h : Reg.IsControl off) : DataHead fspi (.call (.load (fspi + off)))
  /-- The second flush of the RX FIFO. -/
  | flush (v : Word) : DataHead fspi (.call (.store (fspi + Reg.iprxfcr) v))
  | write {d : Head bus} (h : WriteHead fspi 256 d) : DataHead fspi d
  | read {d : Head bus} (h : ReadHead fspi 128 d) : DataHead fspi d
  | done : DataHead fspi (.poll ⟨fspi + Reg.intr, cmdDone⟩)

lemma DataHead.transfer {d : Head bus} (h : DataHead fspi d) : TransferHead fspi d := by
  cases h with
  | flag h => exact .flag h
  | loadControl h => exact .loadControl h
  | flush v => exact .storeControl v (by decide)
  | write h => exact .write h
  | read h => exact .read h
  | done => exact .done

lemma not_transferHead_abort : ¬ TransferHead fspi .abort := by
  intro h
  cases h with
  | flag h => cases h
  | write h =>
    cases h with
    | flag h => cases h
    | chunk h => cases h
  | read h =>
    cases h with
    | flag h => cases h
    | chunk h => cases h

/-- The driver has code for the transfer, and its size is within the asserted bound. -/
def FlexspiTransfer.Accepted (xfer : FlexspiTransfer) : Prop :=
  xfer.cmdType ≠ .command ∧ xfer.dataSize.toNat ≤ 1024

/-- The accesses of `transfer_blocking`; an assertion fails only on a transfer it does not
accept. -/
abbrev TransferDoes (fspi : Nat) (xfer : FlexspiTransfer) (d : Head bus) : Prop :=
  TransferHead fspi d ∨ d = .abort ∧ ¬ xfer.Accepted

lemma control_flshcr2 (port : FlexspiPort) : Reg.IsControl (Reg.flshcr2 port.index) := by
  cases port <;> decide

lemma setupCommand_every (xfer : FlexspiTransfer) :
    (setupCommand fspi xfer).Every (TransferHead fspi) := by
  have hcontrol : ∀ {off : Nat} (m : Word), Reg.IsControl off →
      (orReg (fspi + off) m).Every (TransferHead fspi) := fun m h =>
    orReg_every (.loadControl h) fun v => .storeControl v h
  refine (hcontrol _ (control_flshcr2 xfer.port)).bind fun _ => ?_
  refine (clearFlags_every.mono fun _ => .flag).bind fun _ => ?_
  refine ⟨.storeControl _ (by decide), fun _ => ?_⟩
  refine (hcontrol _ (by decide)).bind fun _ => ?_
  exact (hcontrol _ (by decide)).bind fun _ => ⟨.storeControl _ (by decide), fun _ => trivial⟩

lemma writeBlocking_data (buffer size : Nat) :
    (writeBlocking fspi buffer size).Every
      (fun d => DataHead fspi d ∨ d = .abort ∧ 1024 < size) := by
  refine ((Prog.every_check _).mpr ?_).bind fun _ => ?_
  · exact (Nat.lt_or_ge 1024 size).symm.imp_right fun h => .inr ⟨rfl, h⟩
  · refine (load_every (.inl (.loadControl (by decide)))).bind fun v => ?_
    refine Prog.Every.bind ?_ fun _ => trivial
    refine (writeLoop_every (watermarkOf v) buffer size).mono fun d hd => .inl (.write ?_)
    exact hd.mono (txReach_le _ _)

lemma readBlocking_data (buffer size : Nat) :
    (readBlocking fspi buffer size).Every
      (fun d => DataHead fspi d ∨ d = .abort ∧ 1024 < size) := by
  refine ((Prog.every_check _).mpr ?_).bind fun _ => ?_
  · exact (Nat.lt_or_ge 1024 size).symm.imp_right fun h => .inr ⟨rfl, h⟩
  · refine (load_every (.inl (.loadControl (by decide)))).bind fun v => ?_
    refine (orReg_every (.inl (.loadControl (by decide))) fun v => .inl (.flush v)).bind fun _ => ?_
    refine Prog.Every.bind ?_ fun _ => trivial
    refine (readLoop_every (watermarkOf v) buffer size).mono fun d hd => .inl (.read ?_)
    exact hd.mono (rxReach_le _ _)

lemma moveData_data (xfer : FlexspiTransfer) :
    (moveData fspi xfer).Every fun d => DataHead fspi d ∨ d = .abort ∧ ¬ xfer.Accepted := by
  have hsize : ∀ d : Head bus, (DataHead fspi d ∨ d = .abort ∧ 1024 < xfer.dataSize.toNat) →
      DataHead fspi d ∨ d = .abort ∧ ¬ xfer.Accepted := fun d =>
    Or.imp_right fun ⟨h, hlt⟩ => ⟨h, fun hacc => absurd hacc.2 (by omega)⟩
  unfold moveData
  split <;> rename_i hkind
  · exact (writeBlocking_data xfer.data _).mono hsize
  · exact (writeBlocking_data xfer.data _).mono hsize
  · exact (readBlocking_data xfer.data _).mono hsize
  · exact .inr ⟨rfl, fun hacc => hacc.1 hkind⟩

lemma awaitCommand_flags (result : Int) : (awaitCommand fspi result).Every fun d =>
    FlagHead fspi d ∨ d = .poll ⟨fspi + Reg.intr, cmdDone⟩ := by
  refine (waitBit_every (.inr rfl)).bind fun _ => ?_
  split
  · exact (orReg_every (.inl .loadIntr) fun v => .inl (.storeIntr v)).bind fun _ => trivial
  · trivial

lemma awaitCommand_data (result : Int) :
    (awaitCommand fspi result).Every (DataHead fspi) :=
  (awaitCommand_flags result).mono fun _ hd => hd.elim .flag fun hwait => hwait ▸ .done

lemma moveData_every (xfer : FlexspiTransfer) :
    (moveData fspi xfer).Every (TransferDoes fspi xfer) :=
  (moveData_data xfer).mono fun _ => Or.imp_left DataHead.transfer

lemma awaitCommand_every (result : Int) :
    (awaitCommand fspi result).Every (TransferHead fspi) :=
  (awaitCommand_data result).mono fun _ => DataHead.transfer

lemma transferBlocking_every (xfer : FlexspiTransfer) :
    (transferBlocking fspi xfer).Every (TransferDoes fspi xfer) := by
  refine ((setupCommand_every xfer).mono fun _ => .inl).bind fun _ => ?_
  refine (orReg_every (.inl (.loadControl (by decide))) fun v =>
    .inl (.storeControl v (by decide))).bind fun _ => ?_
  exact (moveData_every xfer).bind fun r => (awaitCommand_every r).mono fun _ => .inl

lemma loggedTransfer_every (xfer : FlexspiTransfer) :
    (loggedTransfer fspi xfer).Every (TransferDoes fspi xfer) := by
  refine (transferBlocking_every xfer).bind fun r => ?_
  refine (load_every (.inl (.flag (.loadStatus (by decide))))).bind fun _ => ?_
  refine (load_every (.inl (.flag (.loadStatus (by decide))))).bind fun _ => ?_
  exact (load_every (.inl (.flag .loadIntr))).bind fun _ => trivial

/-! ## The other public calls -/

/-- A public transfer, whichever it is; an assertion also fails on an argument of `QSPI_Read` or
`QSPI_ReadSample`. -/
lemma Transfer.run_every (kind : Transfer) (ctx : QspiContext) (addr : Word) (buffer : Nat)
    (size : BitVec 64) :
    (kind.run ctx addr buffer size).Every fun d => TransferHead ctx.flexspi d ∨ d = .abort := by
  have hlogged : ∀ xfer : FlexspiTransfer, (loggedTransfer ctx.flexspi xfer).Every fun d =>
      TransferHead ctx.flexspi d ∨ d = .abort := fun xfer =>
    (loggedTransfer_every xfer).mono fun _ => Or.imp_right And.left
  cases kind with
  | write lutIndex => exact hlogged _
  | read => exact ((Prog.every_check _).mpr (.inr (.inr rfl))).bind fun _ => hlogged _
  | readSample => exact ((Prog.every_check _).mpr (.inr (.inr rfl))).bind fun _ => hlogged _

/-- The accesses of `QSPI_SetupLut`. -/
inductive LutHead (fspi : Nat) : Head bus → Prop
  | lock {off : Nat} (v : Word) (h : off = Reg.lutkey ∨ off = Reg.lutcr) :
      LutHead fspi (.call (.store (fspi + off) v))
  | read8 (a : Nat) : LutHead fspi (.call (.read8 a))
  | store8 {i : Nat} (b : Byte) (h : i < 512) :
      LutHead fspi (.call (.store8 (fspi + Reg.lut 0 + i) b))

lemma not_lutHead_abort : ¬ LutHead fspi .abort := by
  intro h
  cases h

lemma copyBytes_every (src : Nat) {n i : Nat} (h : i + n ≤ 512) :
    (copyBytes (fspi + Reg.lut 0) src n i).Every (LutHead fspi) := by
  induction n generalizing i with
  | zero => trivial
  | succ n ih => exact ⟨.read8 _, fun b => ⟨.store8 b (by omega), fun _ => ih (by omega)⟩⟩

lemma qspiSetupLut_every (ctx : QspiContext) (lut len : Nat) :
    (qspiSetupLut ctx lut len).Every fun d =>
      LutHead ctx.flexspi d ∨ d = .abort ∧ ¬ (ctx.flexspi ≠ 0 ∧ lut ≠ 0 ∧ len ≤ 512) := by
  have hcheck : ∀ {c : Prop} [Decidable c], (ctx.flexspi ≠ 0 ∧ lut ≠ 0 ∧ len ≤ 512 → c) →
      (check c).Every fun d =>
        LutHead ctx.flexspi d ∨ d = .abort ∧ ¬ (ctx.flexspi ≠ 0 ∧ lut ≠ 0 ∧ len ≤ 512) := by
    intro c _ hc
    exact (Prog.every_check c).mpr
      ((Decidable.em c).imp_right fun hn => .inr ⟨rfl, fun h => hn (hc h)⟩)
  unfold qspiSetupLut
  refine (hcheck fun h => h.1).bind fun _ => (hcheck fun h => h.2.1).bind fun _ => ?_
  by_cases hlen : len ≤ 128 * 4
  · refine (hcheck fun _ => hlen).bind fun _ => ?_
    refine Prog.Every.mono (φ := LutHead ctx.flexspi) (fun _ => .inl) ?_
    refine Prog.Every.bind ⟨.lock _ (.inl rfl), fun _ => ⟨.lock _ (.inr rfl), fun _ => trivial⟩⟩
      fun _ => ?_
    refine (copyBytes_every lut (by omega)).bind fun _ => ?_
    exact ⟨.lock _ (.inl rfl), fun _ => ⟨.lock _ (.inr rfl), fun _ => trivial⟩⟩
  · rw [check, Prog.check, if_neg hlen, Prog.abort_bind]
    exact .inr ⟨rfl, fun h => hlen h.2.2⟩

lemma qspiBusy_every (ctx : QspiContext) :
    (qspiBusy ctx).Every (FlagHead ctx.flexspi) := by
  unfold qspiBusy
  split
  · trivial
  refine (load_every .loadIntr).bind fun _ => ?_
  refine (load_every (.loadStatus (by decide))).bind fun _ => ?_
  refine (load_every (.loadStatus (by decide))).bind fun _ => ?_
  refine (load_every (.loadStatus (by decide))).bind fun _ => ?_
  refine (load_every .loadIntr).bind fun intr => ?_
  split
  · trivial
  · split
    · exact clearFlags_every.bind fun _ => trivial
    · trivial

/-! ## Waits -/

/-- The only wait is `w`. -/
def WaitsOnlyFor (w : BitWait) (d : Head bus) : Prop := ∀ v, d = .poll v → v = w

lemma waitsOnlyFor_call (w : BitWait) (o : Access) : WaitsOnlyFor w (.call o) := by
  rintro v ⟨⟩

lemma waitsOnlyFor_flagHead (w : BitWait) {d : Head bus} (h : FlagHead fspi d) :
    WaitsOnlyFor w d := by
  cases h with
  | loadIntr => exact waitsOnlyFor_call w _
  | storeIntr v => exact waitsOnlyFor_call w _
  | loadStatus hoff => exact waitsOnlyFor_call w _
  | storeStatus v hoff => exact waitsOnlyFor_call w _

lemma check_waits (w : BitWait) (c : Prop) [Decidable c] : (check c).Every (WaitsOnlyFor w) := by
  refine (Prog.every_check c).mpr (.inr ?_)
  rintro v ⟨⟩

lemma writeBlocking_waits (fspi buffer size : Nat) :
    (writeBlocking fspi buffer size).Every (WaitsOnlyFor ⟨fspi + Reg.intr, txEmpty⟩) := by
  refine (check_waits _ _).bind fun _ => (load_every (waitsOnlyFor_call _ _)).bind fun v => ?_
  refine ((writeLoop_every (watermarkOf v) buffer size).mono fun d hd => ?_).bind fun _ => trivial
  cases hd with
  | flag h => exact waitsOnlyFor_flagHead _ h
  | wait => exact fun v hv => (Head.poll.inj hv).symm
  | chunk h =>
    cases h with
    | read32 a => exact waitsOnlyFor_call _ _
    | read8 a => exact waitsOnlyFor_call _ _
    | fill v hi => exact waitsOnlyFor_call _ _

lemma readBlocking_waits (fspi buffer size : Nat) :
    (readBlocking fspi buffer size).Every (WaitsOnlyFor ⟨fspi + Reg.intr, rxWatermarkFlag⟩) := by
  refine (check_waits _ _).bind fun _ => (load_every (waitsOnlyFor_call _ _)).bind fun v => ?_
  refine (orReg_every (waitsOnlyFor_call _ _) fun v => waitsOnlyFor_call _ _).bind fun _ => ?_
  refine ((readLoop_every (watermarkOf v) buffer size).mono fun d hd => ?_).bind fun _ => trivial
  cases hd with
  | flag h => exact waitsOnlyFor_flagHead _ h
  | wait => exact fun v hv => (Head.poll.inj hv).symm
  | chunk h =>
    cases h with
    | fetch hi => exact waitsOnlyFor_call _ _
    | write32 a v => exact waitsOnlyFor_call _ _
    | write8 a b => exact waitsOnlyFor_call _ _

end QspiTool
