import Mathlib.Tactic.Ring
import Mathlib.Tactic.SplitIfs
import QspiTool.Device.TxPath

/-!
# What a write transfer puts into the TX FIFO

`write_blocking` pushes the TX window twice in every round: the acknowledge at the end of the
round is the push that is meant, but `clear_flags`, entered with bit 6 set, stores that bit
back and pushes the window as the round before left it.  So the device is sent
`W₀ W₁ W₁ W₂ W₂ …`, where `W₀` is what stood in `TFDR` before the transfer and `W₁, W₂, …`
are the rounds' data, instead of `W₁ W₂ …`.

`pushedWords` is the stream.  Its prefix is the caller's data exactly when the words left in
`TFDR`, repeated over and over, already spell the data (`WindowSpells`):
`transferBlocking_sends_iff`.
-/

namespace QspiTool

open Words Interaction Machine

variable {permits : Permits} {fspi : Nat}

/-! ## The stream of pushes -/

/-- What the loop of `write_blocking` pushes, up to and including the first push of the last
partial round. -/
def pushedWords (mem : Nat → Byte) (watermark : Watermark) (reg : Nat → Word)
    (buffer size : Nat) : List Word :=
  if _h : size = 0 then []
  else if 8 * watermark.val ≤ size then
    windowWords reg ++ windowWords (fullWindow mem watermark buffer reg) ++
      pushedWords mem watermark (fullWindow mem watermark buffer reg)
        (buffer + 8 * watermark.val) (size - 8 * watermark.val)
  else windowWords reg
  termination_by size
  decreasing_by have := watermark.pos; omega

variable {mem : Nat → Byte} {watermark : Watermark}

lemma watermarkOf_fullWindow (mem : Nat → Byte) (watermark : Watermark) (buffer : Nat)
    (reg : Nat → Word) :
    fullWindow mem watermark buffer reg Reg.iptxfcr = reg Reg.iptxfcr :=
  fillWords_of_lt _ 0 buffer reg (by decide)

lemma length_windowWords {reg : Nat → Word} (h : watermarkOf (reg Reg.iptxfcr) = watermark) :
    (windowWords reg).length = 2 * watermark.val := by
  simp [windowWords, h]

/-- The loop of `write_blocking` appends `pushedWords` and then the last push. -/
lemma writeLoop_tx (hwindow : watermark.val ≤ 16) (buffer size : Nat) {reg : Nat → Word}
    {fifo : List Word} (hreg : watermarkOf (reg Reg.iptxfcr) = watermark) :
    (flexspi permits fspi).Triple noGuarantee (TxState mem reg fifo)
      (writeLoop fspi watermark buffer size) fun _ s t =>
        ∃ reg' rest, TxState mem reg'
          (fifo ++ pushedWords mem watermark reg buffer size ++ rest) s t := by
  induction size using Nat.strongRecOn generalizing buffer reg fifo with
  | ind size ih =>
    have hstable : ∀ l : List Word, (flexspi permits fspi).Stable fun s t =>
        ∃ reg' rest, TxState mem reg' (l ++ rest) s t :=
      fun _ => stable_exists fun _ => stable_exists fun _ => stable_txState
    rw [writeLoop, pushedWords]
    split_ifs with hzero hfull
    · exact Triple.ret (hstable _) fun s t hs => ⟨reg, [], by simpa using hs⟩
    · refine Triple.bind (writeRound_full_tx watermark buffer size hfull (by omega)) fun b =>
        Triple.of_pure fun hb => ?_
      subst hb
      have hrest : writeRest watermark size = size - 8 * watermark.val := if_pos hfull
      rw [hrest]
      have hpos := watermark.pos
      refine (ih (size - 8 * watermark.val) (by omega) (buffer + 8 * watermark.val)
        (by rw [watermarkOf_fullWindow, hreg])).post fun _ s t hs => ?_
      obtain ⟨reg', rest, h⟩ := hs
      refine ⟨reg', rest, ?_⟩
      simpa only [List.append_assoc] using h
    · have hpart : size < 8 * watermark.val := by omega
      have hrest : writeRest watermark size = 0 := if_neg hfull
      refine Triple.bind (writeRound_partial_tx watermark buffer size hpart (by omega)) fun b => ?_
      rw [hrest, writeLoop]
      exact Triple.ret (hstable _) fun s t hs => hs

/-- The word a window holds at `x` after `j` full rounds. -/
def roundWord (mem : Nat → Byte) (reg : Nat → Word) (watermark : Watermark) (buffer : Nat) :
    (j x : Nat) → Word
  | 0, x => reg (Reg.tfdr x)
  | j + 1, x => wordAt mem (buffer + 8 * watermark.val * j + 4 * x)

lemma getElem?_windowWords {reg : Nat → Word} (h : watermarkOf (reg Reg.iptxfcr) = watermark)
    {x : Nat} (hx : x < 2 * watermark.val) :
    (windowWords reg)[x]? = some (reg (Reg.tfdr x)) := by
  simp [windowWords, h, hx]

lemma fullWindow_tfdr (reg : Nat → Word) (buffer : Nat) {x : Nat} (hx : x < 2 * watermark.val) :
    fullWindow mem watermark buffer reg (Reg.tfdr x) = wordAt mem (buffer + 4 * x) := by
  have h := fillWords_tfdr mem (2 * watermark.val) 0 buffer reg hx
  rwa [Nat.zero_add] at h

/-- Block `b` of the stream is the window after `(b + 1) / 2` rounds. -/
lemma getElem?_pushedWords (mem : Nat → Byte) (buffer size b : Nat) {x : Nat} {reg : Nat → Word}
    (hreg : watermarkOf (reg Reg.iptxfcr) = watermark) (hx : x < 2 * watermark.val)
    (hb : 8 * watermark.val * b < size) :
    (pushedWords mem watermark reg buffer size)[2 * watermark.val * b + x]? =
      some (roundWord mem reg watermark buffer ((b + 1) / 2) x) := by
  induction size using Nat.strongRecOn generalizing buffer reg b with
  | ind size ih =>
    have hpos := watermark.pos
    have hlen := length_windowWords hreg
    have hreg' : watermarkOf (fullWindow mem watermark buffer reg Reg.iptxfcr) = watermark := by
      rw [watermarkOf_fullWindow, hreg]
    have hlen' := length_windowWords hreg'
    rw [pushedWords, dif_neg (by omega)]
    match b with
    | 0 =>
      have hhead : ∀ l, (windowWords reg ++ l)[2 * watermark.val * 0 + x]? =
          some (reg (Reg.tfdr x)) := by
        intro l
        rw [Nat.mul_zero, Nat.zero_add, List.getElem?_append_left (by omega),
          getElem?_windowWords hreg hx]
      split_ifs with hfull
      · rw [List.append_assoc]
        exact hhead _
      · simpa [roundWord] using hhead []
    | 1 =>
      have hfull : 8 * watermark.val ≤ size := by omega
      rw [if_pos hfull, List.append_assoc, List.getElem?_append_right (by omega),
        List.getElem?_append_left (by omega), hlen,
        show 2 * watermark.val * 1 + x - 2 * watermark.val = x by omega,
        getElem?_windowWords hreg' hx, fullWindow_tfdr reg buffer hx]
      simp [roundWord]
    | b + 2 =>
      have hexp : 8 * watermark.val * (b + 2) = 8 * watermark.val * b + 16 * watermark.val := by
        ring
      have hexp' : 2 * watermark.val * (b + 2) = 2 * watermark.val * b + 4 * watermark.val := by
        ring
      have hfull : 8 * watermark.val ≤ size := by omega
      have hnext := ih (size - 8 * watermark.val) (by omega) (buffer + 8 * watermark.val) b hreg'
        (by omega)
      rw [if_pos hfull, List.getElem?_append_right (by simp only [List.length_append]; omega),
        List.length_append, hlen, hlen',
        show 2 * watermark.val * (b + 2) + x - (2 * watermark.val + 2 * watermark.val) =
          2 * watermark.val * b + x by omega, hnext,
        show (b + 2 + 1) / 2 = (b + 1) / 2 + 1 by omega]
      cases (b + 1) / 2 with
      | zero => simp [roundWord, fullWindow_tfdr reg buffer hx]
      | succ j =>
        simp only [roundWord]
        congr 3
        ring

/-! ## The stream against the data -/

/-- The byte left in `TFDR` at position `k` of a window that is repeated for ever. -/
def windowByte (reg : Nat → Word) (watermark : Watermark) (k : Nat) : Byte :=
  byteAt (reg (Reg.tfdr (k % (8 * watermark.val) / 4))) (k % 4)

/-- Byte `k` of the stream. -/
def streamByte (mem : Nat → Byte) (reg : Nat → Word) (watermark : Watermark) (buffer k : Nat) :
    Byte :=
  byteAt (roundWord mem reg watermark buffer ((k / (8 * watermark.val) + 1) / 2)
    (k % (8 * watermark.val) / 4)) (k % 4)

lemma byteAt_wordAt (mem : Nat → Byte) (a : Nat) {i : Nat} (hi : i < 4) :
    byteAt (wordAt mem a) i = mem (a + i) :=
  byteAt_ofBytes _ hi

lemma streamByte_of_lt (reg : Nat → Word) (buffer : Nat) {k : Nat}
    (hk : k < 8 * watermark.val) :
    streamByte mem reg watermark buffer k = windowByte reg watermark k := by
  simp [streamByte, windowByte, Nat.div_eq_of_lt hk, roundWord]

/-- Behind the first window the stream repeats bytes of the data that lie further back. -/
lemma streamByte_of_ge (mem : Nat → Byte) (reg : Nat → Word) (buffer : Nat) {k : Nat}
    (hk : 8 * watermark.val ≤ k) :
    ∃ k' < k, k' % (8 * watermark.val) = k % (8 * watermark.val) ∧ k' % 4 = k % 4 ∧
      streamByte mem reg watermark buffer k = mem (buffer + k') := by
  have hpos := watermark.pos
  obtain ⟨n, hn⟩ : ∃ n, n = 8 * watermark.val := ⟨_, rfl⟩
  rw [← hn] at hk ⊢
  have hq : 1 ≤ k / n := (Nat.one_le_div_iff (by omega)).mpr hk
  obtain ⟨j, hj⟩ : ∃ j, (k / n + 1) / 2 = j + 1 := ⟨(k / n + 1) / 2 - 1, by omega⟩
  have hdiv : n * (k / n) + k % n = k := Nat.div_add_mod k n
  have hmod : k % n % 4 = k % 4 := Nat.mod_mod_of_dvd k ⟨2 * watermark.val, by omega⟩
  have hlt : n * j < n * (k / n) := Nat.mul_lt_mul_of_pos_left (by omega) (by omega)
  have hword : n * j = 4 * (2 * watermark.val * j) := by
    rw [hn]
    ring
  refine ⟨n * j + k % n, by omega, ?_, by omega, ?_⟩
  · rw [Nat.mul_add_mod, Nat.mod_mod]
  · rw [streamByte, ← hn, hj, roundWord, byteAt_wordAt _ _ (Nat.mod_lt k (by decide)), ← hn]
    congr 1
    omega

/-- The stream starts with the data exactly when the old window, repeated, is the data. -/
lemma streamByte_eq_iff (mem : Nat → Byte) (watermark : Watermark) (reg : Nat → Word)
    (buffer size : Nat) :
    (∀ k < size, streamByte mem reg watermark buffer k = mem (buffer + k)) ↔
      ∀ k < size, mem (buffer + k) = windowByte reg watermark k := by
  constructor
  · intro h k
    induction k using Nat.strongRecOn with
    | ind k ih =>
      intro hk
      by_cases hwin : k < 8 * watermark.val
      · rw [← h k hk, streamByte_of_lt reg buffer hwin]
      · obtain ⟨k', hk', hmod, hmod4, heq⟩ :=
          streamByte_of_ge mem reg buffer (Nat.le_of_not_lt hwin)
        rw [← h k hk, heq, ih k' hk' (by omega), windowByte, windowByte, hmod, hmod4]
  · intro h k hk
    by_cases hwin : k < 8 * watermark.val
    · rw [streamByte_of_lt reg buffer hwin, h k hk]
    · obtain ⟨k', hk', hmod, hmod4, heq⟩ :=
        streamByte_of_ge mem reg buffer (Nat.le_of_not_lt hwin)
      rw [heq, h k' (by omega), h k hk, windowByte, windowByte, hmod, hmod4]

lemma pushedWords_byte (buffer size : Nat) {reg : Nat → Word}
    (hreg : watermarkOf (reg Reg.iptxfcr) = watermark) (rest : List Word) {k : Nat}
    (hk : k < size) :
    ((pushedWords mem watermark reg buffer size ++ rest)[k / 4]?.map fun v => byteAt v (k % 4)) =
      some (streamByte mem reg watermark buffer k) := by
  have hpos := watermark.pos
  have hblock : 8 * watermark.val * (k / (8 * watermark.val)) + k % (8 * watermark.val) = k :=
    Nat.div_add_mod k _
  have hx : k % (8 * watermark.val) < 8 * watermark.val := Nat.mod_lt k (by omega)
  have hindex : k / 4 =
      2 * watermark.val * (k / (8 * watermark.val)) + k % (8 * watermark.val) / 4 := by
    have h8 : 8 * watermark.val * (k / (8 * watermark.val)) =
        4 * (2 * watermark.val * (k / (8 * watermark.val))) := by ring
    omega
  have hget := getElem?_pushedWords mem buffer size (k / (8 * watermark.val)) hreg
    (show k % (8 * watermark.val) / 4 < 2 * watermark.val by omega) (by omega)
  rw [← hindex] at hget
  have hlt : k / 4 < (pushedWords mem watermark reg buffer size).length :=
    (List.getElem?_eq_some_iff.mp hget).1
  rw [List.getElem?_append_left hlt, hget]
  rfl

/-! ## The transfer -/

/-- The words left in the TX window, repeated, already spell the data of the transfer. -/
def WindowSpells (c : Core) (mem : Nat → Byte) (xfer : FlexspiTransfer) : Prop :=
  ∀ k < xfer.dataSize.toNat, mem (xfer.data + k) = windowByte c.reg c.txWatermark k

instance (c : Core) (mem : Nat → Byte) (xfer : FlexspiTransfer) :
    Decidable (WindowSpells c mem xfer) :=
  inferInstanceAs (Decidable (∀ k < _, _))

/-- The registers when the data phase begins. -/
abbrev triggeredRegs (xfer : FlexspiTransfer) (reg : Nat → Word) : Nat → Word :=
  Function.update (setupRegs xfer reg) Reg.ipcmd (setupRegs xfer reg Reg.ipcmd ||| 1#32)

lemma watermarkOf_triggeredRegs (xfer : FlexspiTransfer) (reg : Nat → Word) :
    watermarkOf (triggeredRegs xfer reg Reg.iptxfcr) = watermarkOf (reg Reg.iptxfcr) := by
  rw [triggeredRegs, Function.update_of_ne (by decide), watermarkOf_setupRegs]

lemma windowByte_triggeredRegs (xfer : FlexspiTransfer) (reg : Nat → Word) (k : Nat) :
    windowByte (triggeredRegs xfer reg) watermark k = windowByte reg watermark k := by
  have hge : 0x100 ≤ Reg.tfdr (k % (8 * watermark.val) / 4) := by
    simp only [Reg.tfdr]
    omega
  have hne : Reg.tfdr (k % (8 * watermark.val) / 4) ≠ Reg.ipcmd := by
    simp only [Reg.tfdr, Reg.ipcmd]
    omega
  rw [windowByte, triggeredRegs, Function.update_of_ne hne, setupRegs_of_ge xfer reg hge,
    windowByte]

/-- A write transfer that returns has sent the stream of pushes, and then some. -/
lemma transferBlocking_tx (mem : Nat → Byte) {reg : Nat → Word} (xfer : FlexspiTransfer)
    (hkind : xfer.cmdType = .write ∨ xfer.cmdType = .config)
    (hwindow : (watermarkOf (reg Reg.iptxfcr)).val ≤ 16) :
    (flexspi permits fspi).Triple noGuarantee (RegState mem reg) (transferBlocking fspi xfer)
      fun _ s _ => s.mem = mem ∧ ∃ rest, s.dev.core.txFifo =
        pushedWords mem (watermarkOf (reg Reg.iptxfcr)) (triggeredRegs xfer reg) xfer.data
          xfer.dataSize.toNat ++ rest := by
  have hstable : ∀ l : List Word, (flexspi permits fspi).Stable fun s _ =>
      s.mem = mem ∧ ∃ rest, s.dev.core.txFifo = l ++ rest :=
    fun l => stable_core fun m c => m = mem ∧ ∃ rest, c.txFifo = l ++ rest
  have hmove : moveData fspi xfer = writeBlocking fspi xfer.data xfer.dataSize.toNat := by
    obtain hkind | hkind := hkind <;> rw [moveData, hkind]
  refine Triple.bind (setupCommand_tx xfer) fun _ => ?_
  refine Triple.bind (orReg_tx (by decide) (by decide) (by decide) _) fun _ => ?_
  rw [hmove, writeBlocking]
  simp only [LawfulMonad.bind_assoc]
  refine Triple.bind (Triple.check stable_txState fun _ _ _ _ => trivial) fun _ => ?_
  refine Triple.of_pure fun _ => ?_
  have hload : (flexspi permits fspi).Triple noGuarantee
      (TxState mem (triggeredRegs xfer reg) []) (load (fspi + Reg.iptxfcr))
      fun v s t => TxState mem (triggeredRegs xfer reg) [] s t ∧
        watermarkOf v = watermarkOf (reg Reg.iptxfcr) :=
    load_triple stable_txState (fun _ => stable_and_const stable_txState _) (fun _ _ _ => trivial)
      fun s t hs => ⟨hs, by
        rw [Controller.load_core _ (by decide) (by decide) (by decide), hs.2.1,
          watermarkOf_triggeredRegs]⟩
  refine Triple.bind hload fun v => Triple.of_pure fun hv => ?_
  rw [hv]
  refine Triple.bind (writeLoop_tx hwindow xfer.data _ (watermarkOf_triggeredRegs xfer reg))
    fun _ => ?_
  refine Triple.exists_pre fun reg' => Triple.exists_pre fun rest => ?_
  rw [Prog.pure_eq, Prog.ret_bind, awaitCommand, if_pos rfl]
  refine Triple.bind ((waitBit_tx cmdDone (by decide)).post fun _ _ _ h => h.1) fun _ => ?_
  -- the last acknowledge pushes the window once more, behind the data
  refine Triple.bind orReg_intr_tx fun _ => Triple.ret (hstable _) fun s t hs => ?_
  obtain ⟨hmem, -, hfifo⟩ := hs
  exact ⟨hmem, rest ++ windowWords reg', by simpa [List.append_assoc] using hfifo⟩

/-- **Exactly when a write transfer sends its data.**  For every device, every leftover in
`TFDR`, in the FIFO and in the flags, and every schedule: the bytes appended to the TX FIFO
since the flush of the transfer begin with the caller's data if and only if the words left in
`TFDR` spell that data already. -/
theorem transferBlocking_sends_iff (permits : Permits) (fspi : Nat) (xfer : FlexspiTransfer)
    (hkind : xfer.cmdType = .write ∨ xfer.cmdType = .config) (s : Bus)
    (hwindow : s.dev.core.txWatermark.val ≤ 16) (c : Config bus Bus DeviceAction Int)
    (hrun : (flexspi permits fspi).Reach ⟨transferBlocking fspi xfer, s, []⟩ c)
    (hret : c.prog.head = .done) :
    (bytesOf c.state.dev.core.txFifo).take xfer.dataSize.toNat =
        bytesAt s.mem xfer.data xfer.dataSize.toNat ↔
      WindowSpells s.dev.core s.mem xfer := by
  obtain ⟨p, s', t'⟩ := c
  obtain ⟨r, rfl⟩ := Prog.exists_ret_of_head hret
  obtain ⟨-, rest, hfifo⟩ := (transferBlocking_tx s.mem xfer hkind hwindow).returns
    ⟨rfl, rfl⟩ hrun
  rw [take_bytesOf_eq_iff]
  have hbyte : ∀ k < xfer.dataSize.toNat,
      ((s'.dev.core.txFifo)[k / 4]?.map fun v => byteAt v (k % 4)) =
        some (streamByte s.mem (triggeredRegs xfer s.dev.core.reg) s.dev.core.txWatermark
          xfer.data k) := by
    intro k hk
    rw [hfifo]
    exact pushedWords_byte xfer.data _ (watermarkOf_triggeredRegs xfer _) rest hk
  have hstream := streamByte_eq_iff s.mem s.dev.core.txWatermark
    (triggeredRegs xfer s.dev.core.reg) xfer.data xfer.dataSize.toNat
  simp only [windowByte_triggeredRegs] at hstream
  rw [WindowSpells, ← hstream]
  refine forall_congr' fun k => forall_congr' fun hk => ?_
  rw [hbyte k hk, Option.some.injEq]

/-- Four bytes at address 100. -/
def fourByteWrite : FlexspiTransfer where
  deviceAddress := 0#32
  port := .portA1
  cmdType := .write
  seqIndex := 0#8
  seqNumber := 1#8
  data := 100
  dataSize := 4#16

/-- The device raises bit 6 when the driver first waits for it and bit 0 at the end. -/
def fourByteSchedule : List (Tick DeviceAction) :=
  List.replicate 18 .prog ++ [.env (.raise (bit txEmpty))] ++ List.replicate 11 .prog ++
    [.env (.raise (bit cmdDone))] ++ List.replicate 3 .prog

/-- The bytes 100 to 103 left in the window. -/
def spelledWindow : Bus where
  dev := { Controller.reset with
    core := Controller.reset.core.setReg (Reg.tfdr 0) 0x67666564#32 }
  mem := BitVec.ofNat 8

/-- The bytes 100 to 103 arrive where an earlier transfer has left them in the window. -/
theorem transferBlocking_sends_spelled :
    ∃ c, (flexspi anyAction 0).Reach ⟨transferBlocking 0 fourByteWrite, spelledWindow, []⟩ c ∧
      c.prog.value? = some 0 ∧
      (bytesOf c.state.dev.core.txFifo).take 4 = [100#8, 101#8, 102#8, 103#8] := by
  obtain ⟨c, hrun, hret⟩ : ∃ c, (flexspi anyAction 0).Reach
      ⟨transferBlocking 0 fourByteWrite, spelledWindow, []⟩ c ∧
      decide (c.prog.value? = some 0) = true :=
    exists_reach_of_run fourByteSchedule (by decide +kernel)
  have hvalue := of_decide_eq_true hret
  refine ⟨c, hrun, hvalue, ?_⟩
  exact (transferBlocking_sends_iff anyAction 0 fourByteWrite (.inl rfl) _ (by decide) c hrun
    (by rw [Prog.eq_ret_of_value? hvalue]; rfl)).mpr (by decide)

/-- **The first word sent is a stale one.**  Sending the bytes 100 to 103 from a controller whose
window holds zeros, the first word in the TX FIFO is zero. -/
theorem transferBlocking_sends_stale_word :
    ¬ ∀ (permits : Permits) (fspi : Nat) (xfer : FlexspiTransfer) (s : Bus)
        (c : Config bus Bus DeviceAction Int),
      xfer.cmdType = .write ∨ xfer.cmdType = .config → xfer.dataSize.toNat ≤ 1024 →
      s.dev.core.txWatermark.val ≤ 16 →
      (flexspi permits fspi).Reach ⟨transferBlocking fspi xfer, s, []⟩ c →
      c.prog.head = .done →
      (bytesOf c.state.dev.core.txFifo).take xfer.dataSize.toNat =
        bytesAt s.mem xfer.data xfer.dataSize.toNat := by
  intro hevery
  obtain ⟨c, hrun, htest⟩ : ∃ c, (flexspi anyAction 0).Reach
      ⟨transferBlocking 0 fourByteWrite, ⟨Controller.reset, BitVec.ofNat 8⟩, []⟩ c ∧
      decide (c.prog.value? = some 0 ∧
        (bytesOf c.state.dev.core.txFifo).take 4 = [0#8, 0#8, 0#8, 0#8]) = true :=
    exists_reach_of_run fourByteSchedule (by decide +kernel)
  obtain ⟨hret, hsent⟩ := of_decide_eq_true htest
  have hdata := hevery anyAction 0 fourByteWrite ⟨Controller.reset, BitVec.ofNat 8⟩ c (.inl rfl)
    (by decide) (by decide) hrun (by rw [Prog.eq_ret_of_value? hret]; rfl)
  rw [show fourByteWrite.dataSize.toNat = 4 from rfl, hsent] at hdata
  exact absurd hdata (by decide)

end QspiTool
