import QspiTool.Device.Freedom
import QspiTool.Device.RxPath
import QspiTool.Device.Schedules

/-!
# How a read can lose every word

`transfer_blocking` flushes the RX FIFO twice, before it triggers the command and again in
`read_blocking`, behind the trigger.  A device that delivers its words between the two has all of
them dropped: the loop then finds an empty FIFO and fills the buffer with what `RFDR` has been left
with.  So no read of data returns the bytes received however they arrive (`exists_lost`).
-/

namespace QspiTool

open Words Interaction Machine

variable {permits : Permits} {fspi : Nat} {xfer : FlexspiTransfer}

/-! ## The device -/

/-- The device that receives the words of a read while its command runs, and no others. -/
def receiver (xfer : FlexspiTransfer) : Permits := fun d a =>
  match a with
  | .receive _ => d.running &&
      decide (d.received.length - d.core.base < deliveredWords xfer.dataSize.toNat)
  | .complete => d.running
  | .raise _ | .setStatus _ _ => true

/-! ## Words that are dropped -/

/-- The words of a read of `n` bytes have arrived, and the first one begins with another byte than
`x`, which is left at `RFDR[0]`. -/
structure Arrived (n : Nat) (x : Word) (s : Bus) : Prop where
  arrived : s.dev.received.length = s.dev.core.base + deliveredWords n
  left : s.dev.core.reg (Reg.rfdr 0) = x
  first : (s.dev.received[s.dev.core.base]?).map (byteAt · 0) ≠ some (byteAt x 0)

/-- They have left the RX FIFO. -/
structure Dropped (n : Nat) (x : Word) (s : Bus) : Prop extends Arrived n x s where
  popped : s.dev.core.popped = s.dev.received.length

variable {n : Nat} {x : Word} {s s' : Bus}

lemma Arrived.store {off : Nat} (h : Arrived n x s) (hcmd : off ≠ Reg.ipcmd)
    (hrfdr : off ≠ Reg.rfdr 0) (v : Word) :
    Arrived n x { s with dev := s.dev.store off v } := by
  have hbase := s.dev.core.store_base s.dev.received.length v hcmd
  refine ⟨h.arrived.trans (congrArg (· + deliveredWords n) hbase.symm), ?_, ?_⟩
  · exact (s.dev.core.store_reg_of_ne _ v hrfdr.symm).trans h.left
  · simp only [Controller.store, hbase]
    exact h.first

namespace Dropped

lemma store {off : Nat} (h : Dropped n x s) (hcmd : off ≠ Reg.ipcmd) (hrfdr : off ≠ Reg.rfdr 0)
    (v : Word) : Dropped n x ((flexspi permits fspi).exec (.store (fspi + off) v) s).2 := by
  rw [exec_store]
  exact ⟨h.toArrived.store hcmd hrfdr v, s.dev.core.store_popped _ v h.popped⟩

lemma flag (h : Dropped n x s) {o : Access} (ho : FlagHead fspi (.call o)) :
    Dropped n x ((flexspi permits fspi).exec o s).2 := by
  cases ho with
  | loadIntr => exact h
  | storeIntr v => exact h.store (by decide) (by decide) v
  | loadStatus hoff => exact h
  | @storeStatus off v hoff =>
    have hle : 0xE0 ≤ off := hoff.1
    have hlt : off < 0x100 := Nat.lt_of_lt_of_le hoff.2 (by decide)
    exact h.store (by simp only [Reg.ipcmd]; omega) (by simp only [Reg.rfdr]; omega) v

/-- The loop of `read_blocking` does not bring the words back. -/
lemma exec (h : Dropped n x s) {o : Access} (ho : ReadHead fspi 128 (.call o)) :
    Dropped n x ((flexspi permits fspi).exec o s).2 := by
  cases ho with
  | flag ho => exact h.flag ho
  | chunk ho =>
    cases ho with
    | fetch hi => exact h
    | write32 a v => exact ⟨⟨h.arrived, h.left, h.first⟩, h.popped⟩
    | write8 a b => exact ⟨⟨h.arrived, h.left, h.first⟩, h.popped⟩

/-- No more words arrive than are due. -/
lemma act (h : Dropped xfer.dataSize.toNat x s) {a : DeviceAction}
    (hact : (flexspi (receiver xfer) fspi).act a s = some s') :
    Dropped xfer.dataSize.toNat x s' := by
  have hperm := (act_spec hact).1
  obtain rfl := act_eq hact
  cases a with
  | receive v =>
    have harrived := h.arrived
    simp only [receiver, Bool.and_eq_true, decide_eq_true_eq] at hperm
    omega
  | raise flags => exact ⟨⟨h.arrived, h.left, h.first⟩, h.popped⟩
  | complete => exact ⟨⟨h.arrived, h.left, h.first⟩, h.popped⟩
  | setStatus off v => exact ⟨⟨h.arrived, h.left, h.first⟩, h.popped⟩

/-- `RFDR[0]` reads what has been left there. -/
lemma load_rfdr (h : Dropped n x s) : s.dev.load (Reg.rfdr 0) = x := by
  have hempty : s.dev.rxFifo = [] := List.drop_eq_nil_of_le (Nat.le_of_eq h.popped.symm)
  rw [Controller.load_rfdr _ (by decide), hempty, List.getElem?_nil, Option.getD_none, h.left]

end Dropped

/-! ## What is loaded instead -/

/-- Only a load of `RFDR[i]` fetches the word at index `i`. -/
lemma eq_load_of_fetch {e : Event bus DeviceAction} {i : Nat} {v : Word}
    (h : mark? fspi e = some (.fetch i v)) : e = .call (.load (fspi + Reg.rfdr i)) v := by
  cases e with
  | call o r =>
    cases o with
    | load a =>
      simp only [mark?] at h
      split_ifs at h
      · cases h
      · cases h
      · obtain ⟨j, hj, heq⟩ := Option.map_eq_some_iff.mp h
        obtain ⟨rfl, rfl⟩ := Mark.fetch.inj heq
        have haddr : a = fspi + Reg.rfdr j := by
          rw [eq_of_wordIndex hj]
          simp only [Reg.rfdr]
          omega
        rw [haddr]
    | store a v =>
      simp only [mark?] at h
      split_ifs at h
      · cases h
      · cases h
      · cases h
      · obtain ⟨j, -, heq⟩ := Option.map_eq_some_iff.mp h
        cases heq
    | _ => cases h
  | spin w v => cases h
  | act a => cases h

/-- The words of the read are lost, and `RFDR[0]` has read nothing but `x`. -/
def Leftover (fspi n : Nat) (x : Word) : Assertion bus Bus DeviceAction := fun s t =>
  Dropped n x s ∧ ∀ v, Mark.fetch 0 v ∈ marks fspi t → v = x

lemma stable_leftover : (flexspi (receiver xfer) fspi).Stable
    (Leftover fspi xfer.dataSize.toNat x) := by
  rintro a s s' t ⟨hdropped, hfetched⟩ hact
  refine ⟨hdropped.act hact, ?_⟩
  rw [marks_snoc]
  simpa [mark?] using hfetched

lemma leftover_triple {α : Type} {p : Driver α} (hp : p.Every (ReadHead fspi 128)) :
    (flexspi (receiver xfer) fspi).Triple noGuarantee (Leftover fspi xfer.dataSize.toNat x) p
      fun _ => Leftover fspi xfer.dataSize.toNat x := by
  refine Triple.invariant hp stable_leftover (fun _ _ _ _ _ => trivial) ?_ ?_
  · rintro o s t ho ⟨hdropped, hfetched⟩
    refine ⟨hdropped.exec ho, fun v hv => ?_⟩
    rw [marks_snoc, List.mem_append, Option.mem_toList] at hv
    obtain hv | hv := hv
    · exact hfetched v hv
    · -- the word just loaded
      have hload := eq_load_of_fetch hv
      generalize hr : ((flexspi (receiver xfer) fspi).exec o s).1 = r at hload
      cases hload
      rw [exec_load] at hr
      exact hr.symm.trans hdropped.load_rfdr
  · rintro w s t - ⟨hdropped, hfetched⟩
    refine ⟨hdropped, ?_⟩
    rw [marks_snoc]
    simpa [mark?] using hfetched

/-- The first word of some rounds is loaded from `RFDR[0]`. -/
lemma fetch_of_stream {rounds : List Round} {v : Word} (h : (stream rounds)[0]? = some v) :
    Mark.fetch 0 v ∈ rounds.flatMap (Round.marks .fetch) := by
  induction rounds with
  | nil => cases h
  | cons r rounds ih =>
    rw [stream, List.flatMap_cons, ← stream] at h
    rw [List.flatMap_cons, List.mem_append]
    cases hwords : r.words with
    | nil =>
      rw [hwords, List.nil_append] at h
      exact .inr (ih h)
    | cons w ws =>
      rw [hwords, List.cons_append, List.getElem?_cons_zero] at h
      obtain rfl := Option.some.inj h
      refine .inl ?_
      simp [Round.marks, hwords, numbered]

/-! ## The run -/

/-- The data phase of a read behind its flush. -/
lemma readPhase_eq (hread : xfer.cmdType = .read) (hle : xfer.dataSize.toNat ≤ 1024) :
    (moveData fspi xfer >>= awaitCommand fspi) =
      load (fspi + Reg.iprxfcr) >>= fun level => orReg (fspi + Reg.iprxfcr) 1#32 >>= fun _ =>
        readLoop fspi (watermarkOf level) xfer.data xfer.dataSize.toNat >>= fun _ =>
          awaitCommand fspi 0 := by
  have hcheck : xfer.dataSize.toNat ≤ 32 * 32 := hle
  simp only [moveData, hread, readBlocking, check, Prog.check, if_pos hcheck, Prog.ret_bind,
    LawfulMonad.bind_assoc, LawfulMonad.pure_bind]

/-- Right behind the trigger the device can deliver every word of the read. -/
lemma exists_drift_arrived (fspi : Nat) (hpos : 1 ≤ xfer.dataSize.toNat)
    (hrunning : s.dev.running = true) (hbase : s.dev.core.base = s.dev.received.length)
    (t : BusTrace) :
    ∃ x s' t', (flexspi (receiver xfer) fspi).Drift s t s' t' ∧
      Arrived xfer.dataSize.toNat x s' := by
  obtain ⟨x, hx⟩ : ∃ x, s.dev.core.reg (Reg.rfdr 0) = x := ⟨_, rfl⟩
  obtain ⟨v, hv⟩ : ∃ v : Word, byteAt v 0 = ~~~ byteAt x 0 :=
    ⟨ofBytes fun _ => ~~~ byteAt x 0, byteAt_ofBytes _ (by decide)⟩
  obtain ⟨k, hk⟩ : ∃ k, deliveredWords xfer.dataSize.toNat = k + 1 :=
    ⟨deliveredWords xfer.dataSize.toNat - 1, by unfold deliveredWords; omega⟩
  have hfirst : receiver xfer s.dev (.receive v) = true := by
    simp [receiver, hrunning, hbase, hk]
  -- the first word is chosen, the others are zeros
  obtain ⟨s₁, hs₁⟩ : ∃ s₁ : Bus, s₁ = { s with dev := s.dev.perform (.receive v) } := ⟨_, rfl⟩
  have hlater : ∀ i < k, receiver xfer (s₁.deliver i).dev (.receive 0#32) = true := by
    intro i hi
    subst hs₁
    simp [receiver, Bus.deliver, Controller.perform, hrunning, hbase, hk]
    omega
  obtain ⟨t', hdrift⟩ := exists_drift_deliver fspi k s₁ (t ++ [.act (.receive v)]) hlater
  refine ⟨x, s₁.deliver k, t', (drift_act fspi t hfirst).trans (hs₁ ▸ hdrift), ?_, ?_, ?_⟩
  · subst hs₁
    simp [Bus.deliver, Controller.perform, hbase, hk]
  · subst hs₁
    exact hx
  · subst hs₁
    simp [Bus.deliver, Controller.perform, hbase, hv]

/-- The flush drops what has arrived. -/
lemma flush_drops : (flexspi permits fspi).Attains anytime (fun s _ => Arrived n x s)
    (orReg (fspi + Reg.iprxfcr) 1#32) fun _ s _ => Dropped n x s := by
  refine orReg_attains (fun _ _ _ => trivial) (fun _ _ _ _ _ => trivial) fun s t v hs _ => ?_
  exact ⟨hs.store (by decide) (by decide) _, by simp [Controller.store]⟩

/-- Some run flushes every word of the read before the first is loaded. -/
lemma exists_dropped (fspi : Nat) (hread : xfer.cmdType = .read) (hpos : 1 ≤ xfer.dataSize.toNat)
    (hle : xfer.dataSize.toNat ≤ 1024) (s : Bus) :
    ∃ watermark x s' t', (flexspi (receiver xfer) fspi).Reach
      ⟨transferBlocking fspi xfer, s, []⟩
      ⟨readLoop fspi watermark xfer.data xfer.dataSize.toNat >>= fun _ => awaitCommand fspi 0,
        s', t'⟩ ∧ Dropped xfer.dataSize.toNat x s' := by
  have hstart : (flexspi (receiver xfer) fspi).Attains _ _ _ _ := startCommand_attains xfer
  obtain ⟨_, s₁, t₁, hreach₁, hrunning, hbase⟩ := hstart s [] trivial
  obtain ⟨x, s₂, t₂, hdrift, harrived⟩ := exists_drift_arrived fspi hpos hrunning hbase t₁
  rw [transferBlocking_eq, readPhase_eq hread hle]
  obtain ⟨_, s₃, t₃, hreach₃, hdropped⟩ := flush_drops.reach_bind
    (fun _ => readLoop fspi (watermarkOf (s₂.dev.load Reg.iprxfcr)) xfer.data
      xfer.dataSize.toNat >>= fun _ => awaitCommand fspi 0) harrived
  exact ⟨_, x, s₃, t₃, hreach₁.reach.seq ((hdrift.reach _).trans
    ((reach_load _ fspi Reg.iprxfcr _ s₂ t₂).trans hreach₃.reach)), hdropped⟩

/-- The end of the transfer touches neither the words nor the buffer. -/
lemma awaitCommand_dropped (a : Nat) (b : Byte) (r : Int) :
    (flexspi (receiver xfer) fspi).Triple noGuarantee
      (fun s _ => Dropped xfer.dataSize.toNat x s ∧ s.mem a = b) (awaitCommand fspi r)
      fun _ s _ => Dropped xfer.dataSize.toNat x s ∧ s.mem a = b := by
  refine Triple.invariant (awaitCommand_flags r) ?_ (fun _ _ _ _ _ => trivial) ?_ fun _ _ _ _ => id
  · rintro e s s' t ⟨hdropped, hmem⟩ hact
    exact ⟨hdropped.act hact, (congrFun (act_spec hact).2.1 a).trans hmem⟩
  · rintro o s t ho ⟨hdropped, hmem⟩
    obtain ho | ho := ho
    · refine ⟨hdropped.flag ho, ?_⟩
      cases ho <;> exact hmem
    · cases ho

lemma readLoop_reads (watermark : Watermark) (buffer size : Nat) :
    (readLoop fspi watermark buffer size).Every (ReadHead fspi 128) :=
  (readLoop_every watermark buffer size).mono fun _ hd => hd.mono (rxReach_le _ _)

/-- Where the words of the read are lost, the buffer begins with the leftover. -/
lemma readLoop_leftover (hpos : 1 ≤ xfer.dataSize.toNat)
    (hdropped : Dropped xfer.dataSize.toNat x s) {watermark : Watermark} {a : Nat} {u : Unit}
    {t' : BusTrace}
    (hreach : (flexspi (receiver xfer) fspi).Reach
      ⟨readLoop fspi watermark a xfer.dataSize.toNat, s, []⟩ ⟨.ret u, s', t'⟩) :
    Dropped xfer.dataSize.toNat x s' ∧ s'.mem a = byteAt x 0 := by
  obtain ⟨hdropped', hfetched⟩ : Leftover fspi xfer.dataSize.toNat x s' t' :=
    (leftover_triple (readLoop_reads watermark a _)).returns
      ⟨hdropped, fun _ h => absurd h List.not_mem_nil⟩ hreach
  have hlogged : (flexspi (receiver xfer) fspi).Triple (confined a (a + xfer.dataSize.toNat))
    (Logged (flexspiBuffers (receiver xfer) fspi) fspi s.mem []) _ _ :=
    readLoop_logged watermark a xfer.dataSize.toNat (Nat.le_refl _) (Nat.le_refl _)
  obtain ⟨rounds, ⟨hbytes, hmarks⟩, hchunked⟩ := hlogged.returns ⟨rfl, rfl⟩ hreach
  have hlength := hchunked.length_stream
  obtain ⟨v, hv⟩ : ∃ v, (stream rounds)[0]? = some v := ⟨_, List.getElem?_eq_getElem (by omega)⟩
  obtain rfl := hfetched v (hmarks ▸ fetch_of_stream hv)
  have hlt : 0 < ((bytesOf (stream rounds)).take xfer.dataSize.toNat).length := by
    rw [List.length_take, length_bytesOf]
    omega
  have hfirst := getElem?_of_storeBytes s.mem a hlt
  rw [← hbytes, List.getElem?_take_of_lt hpos, getElem?_bytesOf, hv] at hfirst
  exact ⟨hdropped', (Option.some.inj hfirst).symm⟩

/-- **Some run loses a whole read**: its words arrive, and the buffer does not hold them. -/
lemma exists_lost (fspi : Nat) (hread : xfer.cmdType = .read) (hpos : 1 ≤ xfer.dataSize.toNat)
    (hle : xfer.dataSize.toNat ≤ 1024) (s : Bus) :
    ∃ r s' t', (flexspi (receiver xfer) fspi).Reach ⟨transferBlocking fspi xfer, s, []⟩
        ⟨.ret r, s', t'⟩ ∧
      s'.dev.received.length = s'.dev.core.base + deliveredWords xfer.dataSize.toNat ∧
      ¬ Holds xfer.data xfer.dataSize.toNat s' := by
  obtain ⟨watermark, x, s₁, t₁, hreach, hdropped⟩ := exists_dropped fspi hread hpos hle s
  -- the rest of the transfer, recorded from here on
  obtain ⟨r, s', t', hrest⟩ : ∃ r s' t', (flexspi (receiver xfer) fspi).Reach
      ⟨readLoop fspi watermark xfer.data xfer.dataSize.toNat >>= fun _ => awaitCommand fspi 0,
        s₁, []⟩ ⟨.ret r, s', t'⟩ := by
    have hloop : (readLoop fspi watermark xfer.data xfer.dataSize.toNat).Every (DataHead fspi) :=
      (readLoop_reads _ _ _).mono fun _ => .read
    refine exists_reach_ret (hloop.bind fun _ => awaitCommand_data 0) ?_
      (fun h => not_transferHead_abort h.transfer) s₁ []
    intro w s t hw
    obtain ⟨flag, hflag, rfl⟩ := transferHead_poll hw.transfer
    exact answers_of_raise hflag s t rfl
  obtain ⟨_, s₂, t₂, hreads, -, hend⟩ := hrest.exists_mid
  obtain ⟨hdropped', hmem⟩ :=
    (awaitCommand_dropped _ _ 0).returns (readLoop_leftover hpos hdropped hreads) hend
  refine ⟨r, s', t₁ ++ t', hreach.trans ?_, hdropped'.arrived, fun hholds => ?_⟩
  · have hprepend := hrest.prepend t₁
    rwa [List.append_nil] at hprepend
  · have hfirst := hholds 0 hpos
    rw [Nat.add_zero xfer.data, hmem] at hfirst
    exact hdropped'.first hfirst

end QspiTool
