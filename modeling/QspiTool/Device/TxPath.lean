import QspiTool.Device.Rules

/-!
# The transmit path on the controller

What `write_blocking` and the code around it do to the registers and to the TX FIFO.
`TxState mem reg fifo` fixes the memory, the registers and the contents of the TX FIFO; all
three are settled, so each function of the driver moves one such state to another whatever
the device does meanwhile.

The lemma to note is `clearFlags_tx`: entered with bit 6 set, which is how the loop enters it,
`clear_flags` stores bit 6 back and so pushes the TX window as it stands.
-/

namespace QspiTool

open Words Interaction Machine

variable {permits : Permits} {fspi : Nat}

/-- The memory, the registers and the TX FIFO. -/
def TxState (mem : Nat → Byte) (reg : Nat → Word) (fifo : List Word) :
    Assertion bus Bus DeviceAction :=
  fun s _ => s.mem = mem ∧ s.dev.core.reg = reg ∧ s.dev.core.txFifo = fifo

/-- The words a push appends, as the registers stand. -/
def windowWords (reg : Nat → Word) : List Word :=
  (List.range (2 * (watermarkOf (reg Reg.iptxfcr)).val)).map fun i => reg (Reg.tfdr i)

lemma Core.txWindow_eq (c : Core) : c.txWindow = windowWords c.reg := rfl

variable {mem : Nat → Byte} {reg : Nat → Word} {fifo : List Word}

lemma stable_txState : (flexspi permits fspi).Stable (TxState mem reg fifo) :=
  stable_core fun m c => m = mem ∧ c.reg = reg ∧ c.txFifo = fifo

lemma stable_txState_flag (n : Nat) :
    (flexspi permits fspi).Stable fun s t =>
      TxState mem reg fifo s t ∧ s.dev.intr.getLsbD n = true :=
  stable_and stable_txState (stable_flag n)

/-! ## Single accesses -/

lemma load_tx (off : Nat) :
    (flexspi permits fspi).Triple noGuarantee (TxState mem reg fifo) (load (fspi + off))
      fun _ => TxState mem reg fifo :=
  load_triple stable_txState (fun _ => stable_txState) (fun _ _ _ => trivial) fun _ _ hs => hs

lemma store_status_tx {off : Nat} (h : Reg.IsStatus off) (v : Word) :
    (flexspi permits fspi).Triple noGuarantee (TxState mem reg fifo) (store (fspi + off) v)
      fun _ => TxState mem reg fifo := by
  refine store_triple stable_txState stable_txState (fun _ _ _ => trivial) fun s t hs => ?_
  obtain ⟨rfl, rfl, rfl⟩ := hs
  simp [TxState, Controller.store, Core.store_status _ _ _ h]

lemma store_tx {off : Nat} (h : Reg.IsCell off) (htx : off ≠ Reg.iptxfcr) (v : Word) :
    (flexspi permits fspi).Triple noGuarantee (TxState mem reg fifo) (store (fspi + off) v)
      fun _ => TxState mem (Function.update reg off v) fifo := by
  refine store_triple stable_txState stable_txState (fun _ _ _ => trivial) fun s t hs => ?_
  obtain ⟨rfl, rfl, rfl⟩ := hs
  exact ⟨rfl, Core.store_reg _ _ _ h, Core.store_txFifo _ _ _ h.1 htx⟩

lemma orReg_tx {off : Nat} (h : Reg.IsCell off) (hr : ¬ Reg.IsRfdr off)
    (htx : off ≠ Reg.iptxfcr) (m : Word) :
    (flexspi permits fspi).Triple noGuarantee (TxState mem reg fifo) (orReg (fspi + off) m)
      fun _ => TxState mem (Function.update reg off (reg off ||| m)) fifo := by
  have hload : (flexspi permits fspi).Triple noGuarantee (TxState mem reg fifo)
      (load (fspi + off)) fun v s t => TxState mem reg fifo s t ∧ v = reg off :=
    load_triple stable_txState (fun _ => stable_and_const stable_txState _) (fun _ _ _ => trivial)
      fun s t hs => ⟨hs, by rw [Controller.load_core _ h.1 h.2.1 hr, hs.2.1]⟩
  exact Triple.bind hload fun v => Triple.of_pure fun hv => hv ▸ store_tx h htx _

/-- A store to `INTR` with bit 6 set pushes the TX window. -/
lemma store_intr_tx {v : Word} (hv : v.getLsbD txEmpty = true) :
    (flexspi permits fspi).Triple noGuarantee (TxState mem reg fifo)
      (store (fspi + Reg.intr) v) fun _ => TxState mem reg (fifo ++ windowWords reg) := by
  refine store_triple stable_txState stable_txState (fun _ _ _ => trivial) fun s t hs => ?_
  obtain ⟨rfl, rfl, rfl⟩ := hs
  simp [TxState, Controller.store, hv, Core.txWindow_eq]

/-- `INTR |= 1 << 6` pushes the TX window once. -/
lemma orReg_intr_tx :
    (flexspi permits fspi).Triple noGuarantee (TxState mem reg fifo)
      (orReg (fspi + Reg.intr) (bit txEmpty))
      fun _ => TxState mem reg (fifo ++ windowWords reg) :=
  Triple.bind (load_tx Reg.intr) fun _ => store_intr_tx (by simp [txEmpty])

/-- `clear_flags` entered with bit 6 set pushes the TX window: what was in `TFDR` before the
round is appended to the TX FIFO. -/
lemma clearFlags_tx :
    (flexspi permits fspi).Triple noGuarantee
      (fun s t => TxState mem reg fifo s t ∧ s.dev.intr.getLsbD txEmpty = true)
      (clearFlags fspi) fun _ => TxState mem reg (fifo ++ windowWords reg) := by
  have hintr : (flexspi permits fspi).Triple noGuarantee
      (fun s t => TxState mem reg fifo s t ∧ s.dev.intr.getLsbD txEmpty = true)
      (load (fspi + Reg.intr))
      fun v s t => TxState mem reg fifo s t ∧ v.getLsbD txEmpty = true :=
    load_triple (stable_txState_flag txEmpty) (fun _ => stable_and_const stable_txState _)
      (fun _ _ _ => trivial) fun _ _ hs => hs
  refine Triple.bind hintr fun v => Triple.of_pure fun hv => ?_
  refine Triple.bind (store_intr_tx hv) fun _ => ?_
  refine Triple.bind (load_tx Reg.sts0) fun sts0 => ?_
  refine Triple.bind (store_status_tx (by decide) sts0) fun _ => ?_
  exact Triple.bind (load_tx Reg.sts1) fun sts1 => store_status_tx (by decide) sts1

/-- The wait for bit 6 ends with bit 6 set. -/
lemma waitBit_tx (n : Nat) (hn : n < 32) :
    (flexspi permits fspi).Triple noGuarantee (TxState mem reg fifo)
      (waitBit (fspi + Reg.intr) n)
      fun _ s t => TxState mem reg fifo s t ∧ s.dev.intr.getLsbD n = true :=
  waitBit_triple hn stable_txState (stable_txState_flag n) (fun _ _ _ => trivial)
    (fun _ _ hs _ => hs) fun _ _ hs hn => ⟨hs, hn⟩

/-! ## Setting up a command -/

/-- The memory and the registers, whatever the FIFOs hold. -/
def RegState (mem : Nat → Byte) (reg : Nat → Word) : Assertion bus Bus DeviceAction :=
  fun s _ => s.mem = mem ∧ s.dev.core.reg = reg

lemma stable_regState : (flexspi permits fspi).Stable (RegState mem reg) :=
  stable_core fun m c => m = mem ∧ c.reg = reg

/-- A load of a register that only the driver writes. -/
lemma load_reg {off : Nat} (h : Reg.IsCell off) (hr : ¬ Reg.IsRfdr off) :
    (flexspi permits fspi).Triple noGuarantee (RegState mem reg) (load (fspi + off))
      fun v s t => RegState mem reg s t ∧ v = reg off :=
  load_triple stable_regState (fun _ => stable_and_const stable_regState _) (fun _ _ _ => trivial)
    fun s t hs => ⟨hs, by rw [Controller.load_core _ h.1 h.2.1 hr, hs.2]⟩

lemma store_reg {off : Nat} (h : Reg.IsCell off) (v : Word) :
    (flexspi permits fspi).Triple noGuarantee (RegState mem reg) (store (fspi + off) v)
      fun _ => RegState mem (Function.update reg off v) := by
  refine store_triple stable_regState stable_regState (fun _ _ _ => trivial) fun s t hs => ?_
  obtain ⟨rfl, rfl⟩ := hs
  exact ⟨rfl, Core.store_reg _ _ _ h⟩

lemma orReg_reg {off : Nat} (h : Reg.IsCell off) (hr : ¬ Reg.IsRfdr off) (m : Word) :
    (flexspi permits fspi).Triple noGuarantee (RegState mem reg) (orReg (fspi + off) m)
      fun _ => RegState mem (Function.update reg off (reg off ||| m)) :=
  Triple.bind (load_reg h hr) fun _ => Triple.of_pure fun hv => hv ▸ store_reg h _

/-- `clear_flags` changes no register. -/
lemma clearFlags_reg :
    (flexspi permits fspi).Triple noGuarantee (RegState mem reg) (clearFlags fspi)
      fun _ => RegState mem reg := by
  have hload : ∀ off, (flexspi permits fspi).Triple noGuarantee (RegState mem reg)
      (load (fspi + off)) fun _ => RegState mem reg := fun _ =>
    load_triple stable_regState (fun _ => stable_regState) (fun _ _ _ => trivial) fun _ _ hs => hs
  have hstatus : ∀ off v, Reg.IsStatus off → (flexspi permits fspi).Triple noGuarantee
      (RegState mem reg) (store (fspi + off) v) fun _ => RegState mem reg := by
    intro off v h
    refine store_triple stable_regState stable_regState (fun _ _ _ => trivial) fun s t hs => ?_
    simpa [RegState, Controller.store, Core.store_status _ _ _ h] using hs
  have hintr : ∀ v, (flexspi permits fspi).Triple noGuarantee
      (RegState mem reg) (store (fspi + Reg.intr) v) fun _ => RegState mem reg := by
    intro v
    refine store_triple stable_regState stable_regState (fun _ _ _ => trivial) fun s t hs => ?_
    simpa [RegState, Controller.store] using hs
  refine Triple.bind (hload Reg.intr) fun intr => Triple.bind (hintr intr) fun _ => ?_
  refine Triple.bind (hload Reg.sts0) fun sts0 =>
    Triple.bind (hstatus _ sts0 (by decide)) fun _ => ?_
  exact Triple.bind (hload Reg.sts1) fun sts1 => hstatus _ sts1 (by decide)

/-- The registers after `setupCommand`. -/
def setupRegs (xfer : FlexspiTransfer) (reg : Nat → Word) : Nat → Word :=
  let reg := Function.update reg (Reg.flshcr2 xfer.port.index)
    (reg (Reg.flshcr2 xfer.port.index) ||| bit 31)
  let reg := Function.update reg Reg.ipcr0 xfer.deviceAddress
  let reg := Function.update reg Reg.iptxfcr (reg Reg.iptxfcr ||| 1#32)
  let reg := Function.update reg Reg.iprxfcr (reg Reg.iprxfcr ||| 1#32)
  Function.update reg Reg.ipcr1 (configValue xfer)

lemma flshcr2_lt (port : FlexspiPort) : Reg.flshcr2 port.index < 0xA0 := by
  cases port <;> decide

/-- Setting up a command changes only the flush bit of the TX watermark register. -/
lemma watermarkOf_setupRegs (xfer : FlexspiTransfer) (reg : Nat → Word) :
    watermarkOf (setupRegs xfer reg Reg.iptxfcr) = watermarkOf (reg Reg.iptxfcr) := by
  have hport : Reg.iptxfcr ≠ Reg.flshcr2 xfer.port.index := by
    have := flshcr2_lt xfer.port
    simp only [Reg.iptxfcr]
    omega
  simp only [setupRegs]
  rw [Function.update_of_ne (by decide), Function.update_of_ne (by decide),
    Function.update_self, watermarkOf_or_one, Function.update_of_ne (by decide),
    Function.update_of_ne hport]

/-- Setting up a command leaves the data windows alone. -/
lemma setupRegs_of_ge (xfer : FlexspiTransfer) (reg : Nat → Word) {off : Nat}
    (h : 0x100 ≤ off) : setupRegs xfer reg off = reg off := by
  have hport := flshcr2_lt xfer.port
  have hne : ∀ x, x < 0x100 → off ≠ x := fun x hx => by omega
  simp only [setupRegs]
  rw [Function.update_of_ne (hne _ (by decide)), Function.update_of_ne (hne _ (by decide)),
    Function.update_of_ne (hne _ (by decide)), Function.update_of_ne (hne _ (by decide)),
    Function.update_of_ne (hne _ (by omega))]

/-- `setupCommand` leaves the TX FIFO empty. -/
lemma setupCommand_tx (xfer : FlexspiTransfer) :
    (flexspi permits fspi).Triple noGuarantee (RegState mem reg) (setupCommand fspi xfer)
      fun _ => TxState mem (setupRegs xfer reg) [] := by
  refine Triple.bind (orReg_reg (cell_flshcr2 xfer.port) (by cases xfer.port <;> decide) _)
    fun _ => ?_
  refine Triple.bind clearFlags_reg fun _ => ?_
  refine Triple.bind (store_reg (by decide) xfer.deviceAddress) fun _ => ?_
  -- the flush of the TX FIFO
  have hflush : ∀ r : Nat → Word, (flexspi permits fspi).Triple noGuarantee (RegState mem r)
      (orReg (fspi + Reg.iptxfcr) 1#32)
      fun _ => TxState mem (Function.update r Reg.iptxfcr (r Reg.iptxfcr ||| 1#32)) [] := by
    intro r
    refine Triple.bind (load_reg (by decide) (by decide)) fun v => Triple.of_pure fun hv => ?_
    subst hv
    refine store_triple stable_regState stable_txState (fun _ _ _ => trivial) fun s t hs => ?_
    obtain ⟨rfl, rfl⟩ := hs
    simp [TxState, Controller.store, Core.setReg]
  refine Triple.bind (hflush _) fun _ => ?_
  -- the flush of the RX FIFO does not touch the TX side
  refine Triple.bind (orReg_tx (by decide) (by decide) (by decide) _) fun _ => ?_
  exact store_tx (by decide) (by decide) _

/-! ## Filling the window -/

/-- The registers after `writeWords`. -/
def fillWords (mem : Nat → Byte) : (n i : Nat) → (buffer : Nat) → (Nat → Word) → Nat → Word
  | 0, _, _, reg => reg
  | n + 1, i, buffer, reg =>
      fillWords mem n (i + 1) (buffer + 4)
        (Function.update reg (Reg.tfdr i) (wordAt mem buffer))

/-- Outside the words it fills, `writeWords` changes no register. -/
lemma fillWords_of_lt (n i : Nat) (buffer : Nat) (reg : Nat → Word) {off : Nat}
    (h : off < Reg.tfdr i) : fillWords mem n i buffer reg off = reg off := by
  induction n generalizing i buffer reg with
  | zero => rfl
  | succ n ih =>
    simp only [Reg.tfdr] at h ih
    rw [fillWords, ih (i + 1) _ _ (by omega), Function.update_of_ne]
    simp only [Reg.tfdr]
    omega

lemma fillWords_tfdr (mem : Nat → Byte) (n i : Nat) (buffer : Nat) (reg : Nat → Word) {x : Nat}
    (hx : x < n) :
    fillWords mem n i buffer reg (Reg.tfdr (i + x)) = wordAt mem (buffer + 4 * x) := by
  induction n generalizing i buffer reg x with
  | zero => omega
  | succ n ih =>
    rw [fillWords]
    cases x with
    | zero =>
      -- the later rounds store behind `TFDR[i]`
      have hlt : Reg.tfdr (i + 0) < Reg.tfdr (i + 1) := by simp only [Reg.tfdr]; omega
      rw [fillWords_of_lt n (i + 1) _ _ hlt]
      simp
    | succ x =>
      have h := ih (i + 1) (buffer + 4) (Function.update reg (Reg.tfdr i) (wordAt mem buffer))
        (show x < n by omega)
      rw [show i + (x + 1) = i + 1 + x by omega, h,
        show buffer + 4 + 4 * x = buffer + 4 * (x + 1) by omega]

lemma writeWords_tx (n i : Nat) (buffer : Nat) (hn : i + n ≤ 32) :
    (flexspi permits fspi).Triple noGuarantee (TxState mem reg fifo)
      (writeWords fspi n i buffer) fun b s t =>
        TxState mem (fillWords mem n i buffer reg) fifo s t ∧ b = buffer + 4 * n := by
  induction n generalizing i buffer reg with
  | zero => exact Triple.ret (stable_and_const stable_txState _) fun s t hs => ⟨hs, by omega⟩
  | succ n ih =>
    have hread : (flexspi permits fspi).Triple noGuarantee (TxState mem reg fifo)
        (read32 buffer) fun v s t => TxState mem reg fifo s t ∧ v = wordAt mem buffer :=
      read32_triple stable_txState (fun _ => stable_and_const stable_txState _)
        (fun _ _ _ => trivial)
        fun s t hs => ⟨hs, by rw [hs.1]; rfl⟩
    refine Triple.bind hread fun v => Triple.of_pure fun hv => ?_
    subst hv
    refine Triple.bind (store_tx (cell_tfdr (by omega)) (Reg.tfdr_ne (by decide) i) _) fun _ => ?_
    refine (ih (i + 1) (buffer + 4) (by omega)).post fun b s t h => ⟨h.1, ?_⟩
    rw [h.2]
    omega

/-! ## One round -/

/-- The tail of a partial round only stores to one word of the window. -/
lemma writeTail_tx (size i : Nat) (buffer : Nat) (hi : i < 32) :
    (flexspi permits fspi).Triple noGuarantee (TxState mem reg fifo)
      (writeTail fspi size i buffer) fun _ s t =>
        ∃ v, TxState mem (Function.update reg (Reg.tfdr i) v) fifo s t := by
  have hgather : ∀ (n j : Nat) (v : Word) (b : Nat), (flexspi permits fspi).Triple noGuarantee
      (TxState mem reg fifo) (gatherBytes n j v b) fun _ => TxState mem reg fifo := by
    intro n
    induction n with
    | zero => exact fun j v b => Triple.ret stable_txState fun _ _ hs => hs
    | succ n ih =>
      intro j v b
      have hread : (flexspi permits fspi).Triple noGuarantee (TxState mem reg fifo) (read8 b)
          fun _ => TxState mem reg fifo :=
        read8_triple stable_txState (fun _ => stable_txState) (fun _ _ _ => trivial)
          fun _ _ hs => hs
      exact Triple.bind hread fun x => ih (j + 1) _ (b + 1)
  have hstable : (flexspi permits fspi).Stable fun s t =>
      ∃ v, TxState mem (Function.update reg (Reg.tfdr i) v) fifo s t :=
    stable_exists fun _ => stable_txState
  unfold writeTail
  split
  · refine Triple.bind (hgather size 0 _ buffer) fun r => ?_
    refine Triple.bind (store_tx (cell_tfdr hi) (Reg.tfdr_ne (by decide) i) r.1) fun _ => ?_
    exact Triple.ret hstable fun s t hs => ⟨r.1, hs⟩
  · exact Triple.ret hstable fun s t hs => ⟨reg (Reg.tfdr i), by simpa using hs⟩

/-- What one full round leaves in the registers. -/
abbrev fullWindow (mem : Nat → Byte) (watermark : Watermark) (buffer : Nat)
    (reg : Nat → Word) : Nat → Word :=
  fillWords mem (2 * watermark.val) 0 buffer reg

/-- A full round pushes the window it finds and the window it fills. -/
lemma writeRound_full_tx (watermark : Watermark) (buffer : Nat) (size : Nat)
    (hfull : 8 * watermark.val ≤ size) (hwindow : 2 * watermark.val ≤ 32) :
    (flexspi permits fspi).Triple noGuarantee (TxState mem reg fifo)
      (writeRound fspi watermark buffer size) fun b s t =>
        TxState mem (fullWindow mem watermark buffer reg)
          (fifo ++ windowWords reg ++ windowWords (fullWindow mem watermark buffer reg)) s t ∧
        b = buffer + 8 * watermark.val := by
  refine Triple.bind (waitBit_tx txEmpty (by decide)) fun _ => ?_
  refine Triple.bind clearFlags_tx fun _ => ?_
  rw [writeChunk, if_pos hfull]
  refine Triple.bind (writeWords_tx _ 0 buffer (by omega)) fun b => Triple.of_pure fun hb => ?_
  refine Triple.bind orReg_intr_tx fun _ => ?_
  exact Triple.ret (stable_and_const stable_txState _) fun s t hs => ⟨hs, by omega⟩

/-- A partial round pushes the window it finds, and then some window. -/
lemma writeRound_partial_tx (watermark : Watermark) (buffer : Nat) (size : Nat)
    (hpart : size < 8 * watermark.val) (hwindow : 2 * watermark.val ≤ 32) :
    (flexspi permits fspi).Triple noGuarantee (TxState mem reg fifo)
      (writeRound fspi watermark buffer size) fun _ s t =>
        ∃ reg' rest, TxState mem reg' (fifo ++ windowWords reg ++ rest) s t := by
  refine Triple.bind (waitBit_tx txEmpty (by decide)) fun _ => ?_
  refine Triple.bind clearFlags_tx fun _ => ?_
  rw [writeChunk, if_neg (by omega)]
  have hchunk : (flexspi permits fspi).Triple noGuarantee
      (TxState mem reg (fifo ++ windowWords reg))
      (do let b ← writeWords fspi (size / 4) 0 buffer
          writeTail fspi (size - 4 * (size / 4)) (size / 4) b)
      fun _ s t => ∃ v, TxState mem (Function.update
        (fillWords mem (size / 4) 0 buffer reg) (Reg.tfdr (size / 4)) v)
        (fifo ++ windowWords reg) s t :=
    Triple.bind (writeWords_tx (size / 4) 0 buffer (by omega)) fun b =>
      Triple.of_pure fun _ => writeTail_tx _ _ b (by omega)
  refine Triple.bind hchunk fun b => ?_
  refine Triple.exists_pre fun v => ?_
  refine Triple.bind orReg_intr_tx fun _ => ?_
  exact Triple.ret (stable_exists fun _ => stable_exists fun _ => stable_txState)
    fun s t hs => ⟨_, _, hs⟩

end QspiTool
