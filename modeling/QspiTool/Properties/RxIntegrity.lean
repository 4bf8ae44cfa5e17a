import QspiTool.Device.TxPath
import QspiTool.Properties.RxLoss

/-!
# When a read returns the bytes received

`transfer_blocking` hands the caller the first bytes received for the command in every run in
which each word is loaded in step: at the last store to `INTR` or `IPRXFCR` before its load the RX
FIFO holds nothing unread, and the word arrives between that store and the load.  A word that is
already there when `clear_flags` runs is dropped unread, and so is one that arrives before the flush
of `read_blocking`, however short the read.
-/

namespace QspiTool

open Words Interaction Machine

variable {permits : Permits} {fspi : Nat} {xfer : FlexspiTransfer} {watermark : Watermark}

/-! ## Up to the loop -/

/-- Setting up a command changes only the flush bit of the RX watermark register. -/
lemma rxWatermark_setupRegs (xfer : FlexspiTransfer) (reg : Nat → Word) :
    watermarkOf (setupRegs xfer reg Reg.iprxfcr) = watermarkOf (reg Reg.iprxfcr) := by
  have hport : Reg.iprxfcr ≠ Reg.flshcr2 xfer.port.index := by
    have := flshcr2_lt xfer.port
    simp only [Reg.iprxfcr]
    omega
  simp only [setupRegs]
  rw [Function.update_of_ne (by decide), Function.update_self, watermarkOf_or_one,
    Function.update_of_ne (by decide), Function.update_of_ne (by decide),
    Function.update_of_ne hport]

/-- The command has been triggered, and no word has been loaded since. -/
def ReadTriggered (fspi : Nat) (watermark : Watermark) : Assertion bus Bus DeviceAction :=
  fun s t =>
  s.dev.core.rxWatermark = watermark ∧
    s.dev.received.length = s.dev.core.base + (rx fspi t).arrived ∧ (rx fspi t).loaded = 0

lemma stable_readTriggered : (flexspi permits fspi).Stable (ReadTriggered fspi watermark) := by
  rintro a s s' t ⟨hwatermark, harrived, hloaded⟩ hact
  obtain ⟨-, -, hcore, -, -⟩ := act_spec hact
  refine ⟨by rw [hcore, hwatermark], ?_, by rw [rx_act]; exact hloaded⟩
  obtain rfl := act_eq hact
  rw [rx_act]
  cases a with
  | receive v =>
    simp only [Controller.perform, List.length_append, List.length_singleton]
    omega
  | raise flags => exact harrived
  | complete => exact harrived
  | setStatus off v => exact harrived

lemma startRead_triggered :
    (flexspi permits fspi).Triple noGuarantee
      (fun s _ => s.dev.core.rxWatermark = watermark)
      (startCommand fspi xfer)
      fun _ => ReadTriggered fspi watermark := by
  have hstable : (flexspi permits fspi).Stable fun s _ => s.dev.core.rxWatermark = watermark :=
    stable_core fun _ c => c.rxWatermark = watermark
  have hsetup : (flexspi permits fspi).Triple noGuarantee
      (fun s _ => s.dev.core.rxWatermark = watermark) (setupCommand fspi xfer)
      fun _ s _ => s.dev.core.rxWatermark = watermark := by
    intro s t hs
    refine (setupCommand_tx xfer).post ?_ s t ⟨rfl, rfl⟩
    rintro _ s₁ t₁ ⟨-, hreg, -⟩
    rw [Core.rxWatermark, hreg, rxWatermark_setupRegs]
    exact hs
  refine Triple.bind hsetup fun _ => ?_
  refine orReg_core_triple (by decide) (by decide) (by decide) hstable stable_readTriggered
    (fun _ _ _ => trivial) (fun _ _ _ hs => hs) fun s t v hs _ => ⟨trivial, ?_⟩
  have hbit : (v ||| 1#32).getLsbD 0 = true := by simp
  have hne : Reg.iprxfcr ≠ Reg.ipcmd := by decide
  rw [ReadTriggered, rx_trigger t _ hbit]
  refine ⟨?_, ?_, rfl⟩
  · simpa [Controller.store, Core.setReg, Core.rxWatermark, Function.update_of_ne hne] using hs
  · simp [Controller.store]

/-- The flush of `read_blocking` drops what has arrived since the trigger. -/
lemma flushRead_rx (data : Nat) :
    (flexspi permits fspi).Triple noGuarantee (ReadTriggered fspi watermark)
      (orReg (fspi + Reg.iprxfcr) 1#32) fun _ => RoundStart fspi data watermark 0 (4 * 0) := by
  refine orReg_core_triple (by decide) (by decide) (by decide) stable_readTriggered
    stable_roundStart (fun _ _ _ => trivial) ?_ ?_
  · intro s t v hs
    rw [ReadTriggered, rx_load t (by decide)]
    exact hs
  · rintro s t v ⟨hwatermark, harrived, hloaded⟩ rfl
    refine ⟨trivial, fun _ =>
      ⟨⟨?_, ?_, ?_, Nat.zero_le _, ?_, fun k hk => absurd hk (by omega)⟩, ?_⟩⟩
    · rw [← hwatermark]
      simp [Controller.store, Core.setReg, Core.rxWatermark]
    · rw [rx_store_mark t (.inr rfl)]
      exact harrived
    · rw [rx_store_mark t (.inr rfl)]
      exact hloaded
    · simp [Controller.store]
    · simp only [Controller.store, Core.store_iprxfcr, Core.setReg]
      rw [if_pos (by simp)]
      omega

/-- `read_blocking` fills the buffer with the bytes received, if it is in step. -/
lemma readBlocking_rx (hw : watermark.val ≤ 32) (data size : Nat) :
    (flexspi permits fspi).Triple noGuarantee (ReadTriggered fspi watermark)
      (readBlocking fspi data size) fun _ => Received fspi data size := by
  have hload : (flexspi permits fspi).Triple noGuarantee (ReadTriggered fspi watermark)
      (load (fspi + Reg.iprxfcr)) fun v s t =>
        ReadTriggered fspi watermark s t ∧ watermarkOf v = watermark := by
    refine load_triple stable_readTriggered (fun _ => stable_and_const stable_readTriggered _)
      (fun _ _ _ => trivial) ?_
    intro s t hs
    rw [ReadTriggered, rx_load t (by decide), Controller.load_core _ (by decide) (by decide)
      (by decide)]
    exact ⟨hs, hs.1⟩
  refine Triple.bind ((Triple.check stable_readTriggered fun _ _ _ _ => trivial).post
    fun _ _ _ h => h.1) fun _ => ?_
  refine Triple.bind hload fun v => Triple.of_pure fun hv => ?_
  refine Triple.bind (flushRead_rx data) fun _ => ?_
  rw [hv]
  refine Triple.bind (readLoop_rx hw size data (by omega)) fun _ => ?_
  rw [Nat.mul_zero, Nat.zero_add]
  exact Triple.ret stable_received fun _ _ => id

/-! ## The end of the transfer -/

lemma awaitCommand_rx (data m : Nat) (r : Int) :
    (flexspi permits fspi).Triple noGuarantee (Received fspi data m) (awaitCommand fspi r)
      fun _ => Received fspi data m := by
  have hspin : ∀ s t w v, Received fspi data m s t →
      Received fspi data m s (t ++ [.spin w v]) := by
    intro s t w v hs
    rw [Received, InStep, rx_spin]
    exact hs
  have hwait : (flexspi permits fspi).Triple noGuarantee (Received fspi data m)
      (waitBit (fspi + Reg.intr) cmdDone) fun _ => Received fspi data m :=
    waitBit_triple (by decide) stable_received stable_received (fun _ _ _ => trivial)
      (fun s t hs _ => hspin s t _ _ hs) fun s t hs _ => hspin s t _ _ hs
  refine Triple.bind hwait fun _ => ?_
  split
  · refine Triple.bind ?_ fun _ => Triple.ret stable_received fun _ _ => id
    refine Triple.bind (load_triple (Q := fun _ => Received fspi data m) stable_received
      (fun _ => stable_received) (fun _ _ _ => trivial) fun s t hs => ?_) fun v =>
        store_triple stable_received stable_received (fun _ _ _ => trivial) fun s t hs => ?_
    · rw [Received, InStep, rx_load t (by decide)]
      exact hs
    · rw [Received, InStep, rx_store_mark t (.inl rfl)]
      exact hs
  · exact Triple.ret stable_received fun _ _ => id

/-- A read that returns and has loaded every word in step leaves the bytes received. -/
lemma received_of_inStep (hread : xfer.cmdType = .read) {s : Bus}
    (hw : s.dev.core.rxWatermark.val ≤ 32) {r : Int} {s' : Bus} {t' : BusTrace}
    (hreach : (flexspi permits fspi).Reach ⟨transferBlocking fspi xfer, s, []⟩ ⟨.ret r, s', t'⟩)
    (hstep : InStep fspi t') : Holds xfer.data xfer.dataSize.toNat s' := by
  have htransfer : (flexspi permits fspi).Triple noGuarantee
      (fun s₁ _ => s₁.dev.core.rxWatermark = s.dev.core.rxWatermark) (transferBlocking fspi xfer)
      fun _ => Received fspi xfer.data xfer.dataSize.toNat := by
    rw [transferBlocking_eq]
    refine Triple.bind startRead_triggered fun _ => Triple.bind ?_ fun r => awaitCommand_rx _ _ r
    simp only [moveData, hread]
    exact readBlocking_rx hw _ _
  exact htransfer.returns rfl hreach hstep

lemma holds_iff (data n : Nat) (s : Bus) :
    (bytesOf (s.dev.received.drop s.dev.core.base)).take n = bytesAt s.mem data n ↔
      Holds data n s := by
  simp only [take_bytesOf_eq_iff, List.getElem?_drop, Holds]

/-- **When a read returns the bytes received.**  Whatever the device does, a read that returns
and has loaded every word in step leaves the first `dataSize` bytes received since its trigger in
the buffer.  No read of data does so however its words arrive. -/
theorem transferBlocking_receives (fspi : Nat) (xfer : FlexspiTransfer)
    (hread : xfer.cmdType = .read) (s : Bus) :
    (s.dev.core.rxWatermark.val ≤ 32 → ∀ (permits : Permits) (r : Int) (s' : Bus) (t' : BusTrace),
      (flexspi permits fspi).Reach ⟨transferBlocking fspi xfer, s, []⟩ ⟨.ret r, s', t'⟩ →
      InStep fspi t' →
      (bytesOf (s'.dev.received.drop s'.dev.core.base)).take xfer.dataSize.toNat =
        bytesAt s'.mem xfer.data xfer.dataSize.toNat) ∧
    (1 ≤ xfer.dataSize.toNat → xfer.dataSize.toNat ≤ 1024 → ∃ r s' t',
      (flexspi (receiver xfer) fspi).Reach ⟨transferBlocking fspi xfer, s, []⟩ ⟨.ret r, s', t'⟩ ∧
      (s'.dev.received.drop s'.dev.core.base).length = deliveredWords xfer.dataSize.toNat ∧
      (bytesOf (s'.dev.received.drop s'.dev.core.base)).take xfer.dataSize.toNat ≠
        bytesAt s'.mem xfer.data xfer.dataSize.toNat) := by
  constructor
  · intro hw permits r s' t' hreach hstep
    exact (holds_iff _ _ s').mpr (received_of_inStep hread hw hreach hstep)
  · intro hpos hle
    obtain ⟨r, s', t', hreach, harrived, hlost⟩ := exists_lost fspi hread hpos hle s
    refine ⟨r, s', t', hreach, ?_, fun heq => hlost ((holds_iff _ _ s').mp heq)⟩
    rw [List.length_drop]
    omega

/-! ## Runs -/

/-- A read of four bytes into address 100. -/
def readFour : FlexspiTransfer where
  deviceAddress := 0#32
  port := .portA1
  cmdType := .read
  seqIndex := 0#8
  seqNumber := 1#8
  data := 100
  dataSize := 4#16

/-- The word arrives between `clear_flags` and its load: the read returns it. -/
theorem transferBlocking_receives_word :
    ∃ r s' t', (flexspi (receiver readFour) 0).Reach
        ⟨transferBlocking 0 readFour, ⟨Controller.reset, fun _ => 0#8⟩, []⟩ ⟨.ret r, s', t'⟩ ∧
      s'.dev.received = [0x44332211#32] ∧
      (bytesOf (s'.dev.received.drop s'.dev.core.base)).take 4 = bytesAt s'.mem 100 4 := by
  obtain ⟨⟨p, s, t⟩, hreach, htest⟩ : ∃ c, (flexspi (receiver readFour) 0).Reach
      ⟨transferBlocking 0 readFour, ⟨Controller.reset, fun _ => 0#8⟩, []⟩ c ∧
      decide (c.prog.value? = some 0 ∧ c.state.dev.received = [0x44332211#32] ∧
        InStep 0 c.trace) = true :=
    exists_reach_of_run (timed [(19, .raise (bit rxWatermarkFlag)), (7, .receive 0x44332211#32),
      (4, .complete)] 3) (by decide +kernel)
  obtain ⟨hret, hreceived, hstep⟩ := of_decide_eq_true htest
  obtain rfl := Prog.eq_ret_of_value? hret
  exact ⟨0, s, t, hreach, hreceived,
    (transferBlocking_receives 0 readFour rfl _).1 (by decide) _ 0 s t hreach hstep⟩

/-- **A received word is dropped unread**: a read of four bytes at watermark 1 whose two words
arrive before bit 7 is raised.  `clear_flags` drops both, and the read returns a leftover. -/
theorem transferBlocking_drops_word :
    ¬ ∀ (fspi : Nat) (xfer : FlexspiTransfer) (s : Bus) (r : Int) (s' : Bus) (t' : BusTrace),
      xfer.cmdType = .read → 1 ≤ xfer.dataSize.toNat → xfer.dataSize.toNat ≤ 1024 →
      s.dev.core.rxWatermark.val ≤ 16 →
      (flexspi (receiver xfer) fspi).Reach ⟨transferBlocking fspi xfer, s, []⟩ ⟨.ret r, s', t'⟩ →
      (bytesOf (s'.dev.received.drop s'.dev.core.base)).take xfer.dataSize.toNat =
        bytesAt s'.mem xfer.data xfer.dataSize.toNat := by
  intro hevery
  obtain ⟨⟨p, s, t⟩, hreach, htest⟩ : ∃ c, (flexspi (receiver readFour) 0).Reach
      ⟨transferBlocking 0 readFour, ⟨Controller.reset, fun _ => 0#8⟩, []⟩ c ∧
      decide (c.prog.value? = some 0 ∧
        (bytesOf (c.state.dev.received.drop c.state.dev.core.base)).take 4 ≠
          bytesAt c.state.mem 100 4) = true :=
    exists_reach_of_run (timed [(19, .receive 0x44332211#32), (0, .receive 0x88776655#32),
      (0, .raise (bit rxWatermarkFlag)), (11, .complete)] 3) (by decide +kernel)
  obtain ⟨hret, hne⟩ := of_decide_eq_true htest
  obtain rfl := Prog.eq_ret_of_value? hret
  exact hne (hevery 0 readFour _ 0 s t rfl (by decide) (by decide) (by decide) hreach)

end QspiTool
