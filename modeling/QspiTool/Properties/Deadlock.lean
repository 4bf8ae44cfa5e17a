import QspiTool.Device.Flow

/-!
# The read loop and the watermark flag

`read_blocking` waits for bit 7 before every round, the last one included, but the device raises
bit 7 only for a whole watermark level.  Words that arrive before the flush of `read_blocking` are
lost, and a round takes `watermark` words while its `clear_flags` and its acknowledge drop up to
four times as many.  So for every size and every watermark some order of arrivals leaves the loop
waiting for a flag that cannot come.
-/

namespace QspiTool

open Words Interaction Machine

variable {fspi : Nat}

/-! ## The device -/

/-- The device that delivers the words of a read of `size` bytes and no others, and raises bit 7
only when the RX FIFO holds a watermark level. -/
def readDevice (size : Nat) : Permits := fun d a =>
  match a with
  | .raise flags => !flags.getLsbD rxWatermarkFlag ||
      decide (2 * d.core.rxWatermark.val ≤ d.rxFifo.length)
  | .receive _ => decide (d.received.length - d.core.base < deliveredWords size)
  | .complete => d.running
  | .setStatus _ _ => true

/-- Bit 7 is set if the RX FIFO holds a watermark level. -/
def Prompt (f : Flow) : Prop :=
  2 * f.rxWatermark.val ≤ f.arrived - f.popped → f.intr.getLsbD rxWatermarkFlag = true

lemma rxFifo_length (d : Controller) : d.rxFifo.length = d.received.length - d.core.popped := by
  simp [Controller.rxFifo]

/-! ## Deadlock -/

/-- The loop polls bit 7, which is clear, all words of the read have arrived, and the RX FIFO
holds less than a watermark level. -/
def Deadlocked (fspi size : Nat) (c : Config bus Bus DeviceAction Int) : Prop :=
  c.prog.head = .poll ⟨fspi + Reg.intr, rxWatermarkFlag⟩ ∧
    c.state.dev.intr.getLsbD rxWatermarkFlag = false ∧
    deliveredWords size ≤ c.state.dev.received.length - c.state.dev.core.base ∧
    c.state.dev.rxFifo.length < 2 * c.state.dev.core.rxWatermark.val

/-- Neither the device nor the driver leaves a deadlock. -/
lemma deadlocked_step {size : Nat} {c c' : Config bus Bus DeviceAction Int}
    (h : (flexspi (readDevice size) fspi).Step c c') (hc : Deadlocked fspi size c) :
    Deadlocked fspi size c' := by
  obtain ⟨k, hk⟩ := h
  obtain ⟨p, s, t⟩ := c
  obtain ⟨hhead, hclear, harrived, hlevel⟩ := hc
  dsimp only at hhead hclear harrived hlevel
  cases k with
  | env a =>
    obtain ⟨s', hact, rfl⟩ := Option.map_eq_some_iff.mp hk
    obtain ⟨hpermits, -⟩ := act_spec hact
    obtain rfl := act_eq hact
    cases a with
    | raise flags =>
      simp only [readDevice, Bool.or_eq_true, Bool.not_eq_true', decide_eq_true_eq] at hpermits
      have hflag : flags.getLsbD rxWatermarkFlag = false := hpermits.resolve_right (by omega)
      refine ⟨hhead, ?_, harrived, hlevel⟩
      rw [Controller.perform_intr, BitVec.getLsbD_or, hclear]
      exact hflag
    | receive v =>
      simp only [readDevice, decide_eq_true_eq] at hpermits
      exact absurd hpermits (Nat.not_lt.mpr harrived)
    | complete =>
      refine ⟨hhead, ?_, harrived, hlevel⟩
      rw [Controller.perform_intr, BitVec.getLsbD_or, hclear]
      rfl
    | setStatus off v => exact ⟨hhead, hclear, harrived, hlevel⟩
  | prog =>
    cases p with
    | ret a => cases hk
    | abort => cases hk
    | call o k => cases hhead
    | poll w k =>
      obtain rfl := Option.some.inj hk
      obtain rfl : w = ⟨fspi + Reg.intr, rxWatermarkFlag⟩ := by injection hhead
      have hready : ¬ (s.dev.intr &&& bit rxWatermarkFlag ≠ 0#32) := by
        rw [and_bit_ne_zero _ (by decide), hclear]
        decide
      have hprobe : (flexspi (readDevice size) fspi).exec (.load (fspi + Reg.intr)) s =
          (s.dev.load Reg.intr, s) := exec_load _ _
      refine ⟨?_, ?_, ?_, ?_⟩
      · simp only [hprobe, Controller.load_intr]
        rw [if_neg (by simpa using hready)]
        rfl
      · simpa only [hprobe] using hclear
      · simpa only [hprobe] using harrived
      · simpa only [hprobe] using hlevel

/-- A deadlock is for ever. -/
lemma deadlocked_reach {size : Nat} {c c' : Config bus Bus DeviceAction Int}
    (h : (flexspi (readDevice size) fspi).Reach c c') (hc : Deadlocked fspi size c) :
    Deadlocked fspi size c' := by
  induction h with
  | refl => exact hc
  | tail _ hstep ih => exact deadlocked_step hstep ih

/-- No run in which bit 7 comes up in time deadlocks. -/
def NeverDeadlocks (fspi buffer size : Nat) (s : Bus) : Prop :=
  ∀ c, (flexspi (readDevice size) fspi).ReachUnder (whenFlow Prompt)
    ⟨readBlocking fspi buffer size, s, []⟩ c → ¬ Deadlocked fspi size c

/-! ## Runs into a deadlock -/

/-- The read has been triggered, and nothing of it has arrived. -/
def JustTriggered (s : Bus) : Prop :=
  s.dev.core.base = s.dev.received.length ∧ s.dev.core.popped = s.dev.received.length ∧
    s.dev.intr.getLsbD rxWatermarkFlag = false

variable {size : Nat}

lemma head_readLoop (watermark : Watermark) (buffer : Nat) (h : size ≠ 0) :
    (readLoop fspi watermark buffer size).head = .poll ⟨fspi + Reg.intr, rxWatermarkFlag⟩ := by
  rw [readLoop, dif_neg h]
  rfl

/-- `read_blocking` up to its loop, nothing arriving meanwhile. -/
lemma readBlocking_enter (fspi buffer : Nat) (hsize : size ≤ 32 * 32) {f : Flow}
    (hprompt : Prompt f) {s : Bus} {t : BusTrace} (hs : s.flow = f) :
    ∃ s' t', (flexspi (readDevice size) fspi).ReachUnder (whenFlow Prompt)
        ⟨readBlocking fspi buffer size, s, t⟩
        ⟨readLoop fspi f.rxWatermark buffer size >>= fun _ => pure 0, s', t'⟩ ∧
      s'.flow = f.flushRx := by
  have hload : (flexspi (readDevice size) fspi).Attains (whenFlow Prompt) (At f)
      (load (fspi + Reg.iprxfcr)) fun v s t => At f s t ∧ watermarkOf v = f.rxWatermark := by
    refine load_attains ?_ ?_
    · rintro s t rfl
      exact hprompt
    · rintro s t rfl
      exact ⟨rfl, by rw [Controller.load_core _ (by decide) (by decide) (by decide)]; rfl⟩
  rw [readBlocking, check, Prog.check, if_pos hsize, Prog.ret_bind]
  obtain ⟨v, s₁, t₁, hreach₁, hs₁, hv⟩ := hload.reach_bind
    (fun v => orReg (fspi + Reg.iprxfcr) 1#32 >>= fun _ =>
      readLoop fspi (watermarkOf v) buffer size >>= fun _ => pure (0 : Int)) hs
  have hflush : (flexspi (readDevice size) fspi).Attains (whenFlow Prompt) (At f)
      (orReg (fspi + Reg.iprxfcr) 1#32) fun _ => At f.flushRx := flush_attains hprompt
  obtain ⟨_, s₂, t₂, hreach₂, hs₂⟩ := hflush.reach_bind (fun _ =>
    readLoop fspi (watermarkOf v) buffer size >>= fun _ => pure (0 : Int)) hs₁
  rw [hv] at hreach₁ hreach₂
  exact ⟨s₂, t₂, hreach₁.trans hreach₂, hs₂⟩

/-- The device delivers `n` words, if the read has as many left. -/
lemma drift_words (fspi : Nat) {s : Bus} {n : Nat} (t : BusTrace)
    (h : s.flow.arrived - s.flow.base + n ≤ deliveredWords size) :
    ∃ t', (flexspi (readDevice size) fspi).Drift s t (s.deliver n) t' ∧
      (s.deliver n).flow = s.flow.deliver n := by
  have hpermits : ∀ k < n, readDevice size (s.deliver k).dev (.receive 0#32) = true := by
    intro k hk
    refine decide_eq_true ?_
    rw [deliver_received]
    change s.flow.arrived + k - s.flow.base < deliveredWords size
    omega
  obtain ⟨t', hd⟩ := exists_drift_deliver fspi n s t hpermits
  exact ⟨t', hd, flow_deliver s n⟩

/-- Waiting in the loop with all words arrived and the FIFO too short. -/
lemma deadlocked_of_flow {p : Driver Int} {s : Bus} (t : BusTrace)
    (hhead : p.head = .poll ⟨fspi + Reg.intr, rxWatermarkFlag⟩)
    (hclear : s.flow.intr.getLsbD rxWatermarkFlag = false)
    (harrived : deliveredWords size ≤ s.flow.arrived - s.flow.base)
    (hlevel : s.flow.arrived - s.flow.popped < 2 * s.flow.rxWatermark.val) :
    Deadlocked fspi size ⟨p, s, t⟩ :=
  ⟨hhead, hclear, harrived, by rw [rxFifo_length]; exact hlevel⟩

/-- An empty RX FIFO stays empty. -/
lemma rewrite_empty {f : Flow} (h : f.arrived ≤ f.popped) (m : Word) :
    (f.rewrite m).arrived ≤ (f.rewrite m).popped := by
  simp only [Flow.rewrite, Flow.storeIntr]
  split <;> omega

/-- A rewrite of `INTR` clears all flags. -/
lemma rewrite_clear (f : Flow) (m : Word) {n : Nat} (hn : n < 32) :
    (f.rewrite m).intr.getLsbD n = false := by
  simp only [Flow.rewrite, Flow.storeIntr]
  rw [getLsbD_and_not _ _ hn, BitVec.getLsbD_or]
  cases f.intr.getLsbD n <;> simp

/-- The sticky flag lets one round pass over an empty RX FIFO, and is clear behind it. -/
lemma readRound_empty (fspi buffer : Nat) {f : Flow} (hempty : f.arrived ≤ f.popped)
    (hset : f.intr.getLsbD rxWatermarkFlag = true) :
    (flexspi (readDevice size) fspi).Attains (whenFlow Prompt) (At f)
      (readRound fspi f.rxWatermark buffer size)
      fun _ => At ((f.rewrite 0#32).rewrite (bit rxWatermarkFlag)) := by
  have hprompt : Prompt f := fun _ => hset
  have hprompt' : Prompt (f.rewrite 0#32) := by
    intro hlevel
    have hempty' := rewrite_empty hempty 0#32
    have := (f.rewrite 0#32).rxWatermark.pos
    omega
  have hchunk : (readChunk fspi f.rxWatermark buffer size).Every (QuietHead fspi) :=
    (readChunk_every _ buffer size).mono fun _ => quiet_of_fetch
  refine Attains.bind (wait_attains (by decide) hset hprompt) fun _ => ?_
  refine Attains.bind (clearFlags_attains hprompt hprompt') fun _ => ?_
  refine Attains.bind (quiet_attains hchunk hprompt') fun b => ?_
  exact Attains.bind (rewrite_attains _ hprompt') fun _ => Attains.ret fun _ _ => id

/-- Up to `4 * w - 2` words: fewer than a level come before the flush, fewer than a level after
it. -/
lemma deadlock_split (buffer : Nat) (hpos : size ≠ 0) (hsize : size ≤ 32 * 32) {s : Bus}
    (hs : JustTriggered s)
    (hfew : deliveredWords size ≤ 4 * s.dev.core.rxWatermark.val - 2) :
    ∃ c, (flexspi (readDevice size) fspi).ReachUnder (whenFlow Prompt)
      ⟨readBlocking fspi buffer size, s, []⟩ c ∧ Deadlocked fspi size c := by
  obtain ⟨hbase, hpopped, hclear⟩ := hs
  have hfbase : s.flow.base = s.flow.arrived := hbase
  have hfpopped : s.flow.popped = s.flow.arrived := hpopped
  have hw : s.flow.rxWatermark = s.dev.core.rxWatermark := rfl
  have hwpos := s.dev.core.rxWatermark.pos
  -- as many words as do not make a level
  obtain ⟨early, hearly, hlow, hlate⟩ : ∃ early ≤ deliveredWords size,
      early < 2 * s.dev.core.rxWatermark.val ∧
        deliveredWords size - early < 2 * s.dev.core.rxWatermark.val :=
    ⟨min (deliveredWords size) (2 * s.dev.core.rxWatermark.val - 1), by omega, by omega, by omega⟩
  have hroom₁ : s.flow.arrived - s.flow.base + early ≤ deliveredWords size := by omega
  obtain ⟨t₁, hd₁, hf₁⟩ := drift_words fspi [] hroom₁
  have hprompt : Prompt (s.flow.deliver early) := by
    intro hlevel
    simp only [Flow.deliver, hfpopped, hw] at hlevel
    omega
  obtain ⟨s₂, t₂, hreach, hf₂⟩ := readBlocking_enter fspi buffer hsize hprompt hf₁
  have hroom₂ : s₂.flow.arrived - s₂.flow.base + (deliveredWords size - early) ≤
      deliveredWords size := by
    rw [hf₂]
    simp only [Flow.flushRx, Flow.deliver]
    omega
  obtain ⟨t₃, hd₃, hf₃⟩ := drift_words fspi t₂ hroom₂
  refine ⟨_, (ReachUnder.drift hd₁ _).trans (hreach.trans (ReachUnder.drift hd₃ _)), ?_⟩
  refine deadlocked_of_flow t₃ ?_ ?_ ?_ ?_
  · rw [Prog.head_bind (by rw [head_readLoop _ _ hpos]; simp), head_readLoop _ _ hpos]
  · rw [hf₃, hf₂]
    exact hclear
  · rw [hf₃, hf₂]
    simp only [Flow.flushRx, Flow.deliver]
    omega
  · rw [hf₃, hf₂]
    simp only [Flow.flushRx, Flow.deliver, hw]
    omega

/-- The device delivers everything and raises bit 7. -/
lemma drift_all (fspi : Nat) {s : Bus} (hs : JustTriggered s)
    (hlevel : 2 * s.dev.core.rxWatermark.val ≤ deliveredWords size) :
    ∃ s' t', (flexspi (readDevice size) fspi).Drift s [] s' t' ∧
      s'.flow = (s.flow.deliver (deliveredWords size)).raise (bit rxWatermarkFlag) := by
  obtain ⟨hbase, hpopped, -⟩ := hs
  have hroom : s.flow.arrived - s.flow.base + deliveredWords size ≤ deliveredWords size := by
    change s.dev.received.length - s.dev.core.base + _ ≤ _
    omega
  obtain ⟨t, hd, hf⟩ := drift_words fspi [] hroom
  have hfull : 2 * (s.deliver (deliveredWords size)).dev.core.rxWatermark.val ≤
      (s.deliver (deliveredWords size)).dev.rxFifo.length := by
    rw [rxFifo_length, deliver_received]
    change 2 * s.dev.core.rxWatermark.val ≤
      s.dev.received.length + deliveredWords size - s.dev.core.popped
    omega
  have hraise : readDevice size (s.deliver (deliveredWords size)).dev
      (.raise (bit rxWatermarkFlag)) = true := by
    simp [readDevice, hfull]
  refine ⟨_, _, hd.trans (drift_act fspi t hraise), ?_⟩
  rw [flow_raise, hf]

/-- From `4 * w` words on: all of them come before the flush. -/
lemma deadlock_flushed (buffer : Nat) (hsize : size ≤ 32 * 32) {s : Bus} (hs : JustTriggered s)
    (hmany : 4 * s.dev.core.rxWatermark.val ≤ deliveredWords size) :
    ∃ c, (flexspi (readDevice size) fspi).ReachUnder (whenFlow Prompt)
      ⟨readBlocking fspi buffer size, s, []⟩ c ∧ Deadlocked fspi size c := by
  have hwpos := s.dev.core.rxWatermark.pos
  -- more is to be read than one round takes
  have hround : 4 * s.dev.core.rxWatermark.val < size := by
    unfold deliveredWords at hmany
    omega
  have hlevel : 2 * s.dev.core.rxWatermark.val ≤ deliveredWords size := by omega
  obtain ⟨s₂, t₂, hd, hf₂⟩ := drift_all fspi hs hlevel
  obtain ⟨f, hf⟩ : ∃ f, f = (s.flow.deliver (deliveredWords size)).raise (bit rxWatermarkFlag) :=
    ⟨_, rfl⟩
  rw [← hf] at hf₂
  have hset : f.intr.getLsbD rxWatermarkFlag = true := by
    simp [hf, Flow.raise, rxWatermarkFlag]
  have hw : f.rxWatermark = s.dev.core.rxWatermark := by rw [hf]; rfl
  have harrived : deliveredWords size ≤ f.arrived - f.base := by
    have hbase := hs.1
    rw [hf]
    change _ ≤ s.dev.received.length + deliveredWords size - s.dev.core.base
    omega
  have hempty : f.flushRx.arrived ≤ f.flushRx.popped := Nat.le_refl _
  obtain ⟨s₃, t₃, hreach, hf₃⟩ := readBlocking_enter fspi buffer hsize (fun _ => hset) hf₂
  rw [readLoop, dif_neg (by omega), LawfulMonad.bind_assoc] at hreach
  obtain ⟨b, s₄, t₄, hreach', hf₄⟩ := (readRound_empty fspi buffer hempty hset).reach_bind
    (fun b => readLoop fspi f.rxWatermark b (readRest f.rxWatermark size) >>= fun _ =>
      pure (0 : Int)) hf₃
  refine ⟨_, (ReachUnder.drift hd _).trans (hreach.trans hreach'), ?_⟩
  have hrest : readRest f.rxWatermark size ≠ 0 := by
    rw [readRest, if_pos (by rw [hw]; omega), hw]
    omega
  refine deadlocked_of_flow t₄ ?_ ?_ ?_ ?_
  · rw [Prog.head_bind (by rw [head_readLoop _ _ hrest]; simp), head_readLoop _ _ hrest]
  · rw [hf₄]
    exact rewrite_clear _ _ (by decide)
  · rw [hf₄]
    exact harrived
  · rw [hf₄, Nat.sub_eq_zero_of_le
      (rewrite_empty (rewrite_empty hempty 0#32) (bit rxWatermarkFlag))]
    exact Nat.mul_pos (by decide) (Watermark.pos _)

/-! ## Every size and every watermark -/

lemma exists_deadlock (fspi buffer : Nat) (hpos : 0 < size) (hsize : size ≤ 1024) {s : Bus}
    (hs : JustTriggered s) :
    ∃ c, (flexspi (readDevice size) fspi).ReachUnder (whenFlow Prompt)
      ⟨readBlocking fspi buffer size, s, []⟩ c ∧ Deadlocked fspi size c := by
  by_cases hfew : deliveredWords size ≤ 4 * s.dev.core.rxWatermark.val - 2
  · exact deadlock_split buffer (by omega) hsize hs hfew
  · refine deadlock_flushed buffer hsize hs ?_
    unfold deliveredWords at hfew ⊢
    omega

/-- **The read loop can always deadlock.**  For every size and every watermark in `IPRXFCR`, some
run in which the device keeps to its part ends in a deadlock, and nothing leads out of one. -/
theorem readBlocking_deadlocks (fspi buffer size : Nat) (hpos : 0 < size) (hsize : size ≤ 1024)
    (s : Bus) (hs : JustTriggered s) :
    ¬ NeverDeadlocks fspi buffer size s ∧
      ∀ c c' : Config bus Bus DeviceAction Int, Deadlocked fspi size c →
        (flexspi (readDevice size) fspi).Reach c c' → Deadlocked fspi size c' := by
  refine ⟨fun hnever => ?_, fun c c' hc hreach => deadlocked_reach hreach hc⟩
  obtain ⟨c, hreach, hc⟩ := exists_deadlock fspi buffer hpos hsize hs
  exact hnever c hreach hc

/-- A controller with empty FIFOs and the given RX watermark register. -/
def Bus.withRxWatermark (iprxfcr : Word) : Bus where
  dev := { Controller.reset with core := Controller.reset.core.setReg Reg.iprxfcr iprxfcr }
  mem := fun _ => 0#8

/-- Sixteen bytes at watermark 1. -/
theorem readBlocking_deadlocks_sixteen :
    ¬ NeverDeadlocks 0 100 16 (Bus.withRxWatermark 0#32) :=
  (readBlocking_deadlocks 0 100 16 (by decide) (by decide) _ ⟨rfl, rfl, by decide⟩).1

/-- **A deadlock**: four bytes at watermark 2 are two words, half a watermark level. -/
theorem readBlocking_waits_forever :
    ¬ ∀ (fspi buffer size : Nat) (s : Bus), 0 < size → size ≤ 1024 → JustTriggered s →
      s.dev.core.rxWatermark.val ≤ 16 → NeverDeadlocks fspi buffer size s := by
  intro hevery
  obtain ⟨c, hreach, hc⟩ := exists_deadlock 0 100 (show 0 < 4 by decide) (by decide)
    (s := Bus.withRxWatermark 4#32) ⟨rfl, rfl, by decide⟩
  exact hevery 0 100 4 _ (by decide) (by decide) ⟨rfl, rfl, by decide⟩ (by decide) c hreach hc

end QspiTool
