import QspiTool.Device.Rules
import QspiTool.Driver.Footprint
import QspiTool.Interaction.Monitor

/-!
# The receive path on the controller

What `read_blocking` takes out of the RX FIFO while words arrive.  `RFDR[i]` reads the `i`-th
word behind those that have left the FIFO, and words leave it by the flush, by the `clear_flags`
of a round and by its acknowledge, none of which looks at how much has been read.

A round therefore reads the words that are due exactly when its `clear_flags` finds nothing but
words already read.  `rxWatch` watches for that: it counts the words that arrive and the words
that are loaded since the trigger, and remembers both counts at the last store that can drop
words.  While the watch is content, the words loaded are the words received, in order
(`readLoop_rx`).
-/

namespace QspiTool

open Words Interaction Machine

variable {permits : Permits} {fspi : Nat}

/-! ## The watch -/

/-- Words arrived and words loaded since the trigger, both counts at the last store to `INTR` or
`IPRXFCR`, and whether every load has come in step: with nothing unread in the FIFO at that
store, and with its word arrived since. -/
structure RxWatch where
  arrived : Nat
  loaded : Nat
  markArrived : Nat
  markLoaded : Nat
  inStep : Bool
  deriving DecidableEq

def RxWatch.next (fspi : Nat) (q : RxWatch) : Event bus DeviceAction → RxWatch
  | .call (.store a v) _ =>
      if a = fspi + Reg.ipcmd ∧ v.getLsbD 0 = true then
        { q with arrived := 0, loaded := 0, markArrived := 0, markLoaded := 0 }
      else if a = fspi + Reg.intr ∨ a = fspi + Reg.iprxfcr then
        { q with markArrived := q.arrived, markLoaded := q.loaded }
      else q
  | .call (.load a) _ =>
      if Reg.IsRfdr (a - fspi) then
        { q with
          loaded := q.loaded + 1
          inStep := q.inStep && (decide (q.markArrived = q.markLoaded) &&
            decide (q.loaded < q.arrived)) }
      else q
  | .act (.receive _) => { q with arrived := q.arrived + 1 }
  | _ => q

/-- Watches the words of a read. -/
def rxWatch (fspi : Nat) : Monitor bus DeviceAction where
  State := RxWatch
  init := ⟨0, 0, 0, 0, true⟩
  next := RxWatch.next fspi

/-- What the watch says after a run. -/
def rx (fspi : Nat) (t : BusTrace) : RxWatch := (rxWatch fspi).after t

/-- Every word has been loaded in step with its arrival. -/
def InStep (fspi : Nat) (t : BusTrace) : Prop := (rx fspi t).inStep = true

instance (fspi : Nat) (t : BusTrace) : Decidable (InStep fspi t) :=
  inferInstanceAs (Decidable (_ = _))

variable (t : BusTrace)

lemma rx_snoc (e : Event bus DeviceAction) : rx fspi (t ++ [e]) = (rx fspi t).next fspi e :=
  Monitor.after_snoc _ _ _

lemma rx_load {off : Nat} (h : ¬ Reg.IsRfdr off) (v : Word) :
    rx fspi (t ++ [.call (.load (fspi + off)) v]) = rx fspi t := by
  rw [rx_snoc]
  simp [RxWatch.next, h]

lemma rx_load_rfdr {i : Nat} (h : i < 32) (v : Word) :
    rx fspi (t ++ [.call (.load (fspi + Reg.rfdr i)) v]) = { rx fspi t with
      loaded := (rx fspi t).loaded + 1
      inStep := (rx fspi t).inStep && (decide ((rx fspi t).markArrived = (rx fspi t).markLoaded) &&
        decide ((rx fspi t).loaded < (rx fspi t).arrived)) } := by
  have hrfdr : Reg.IsRfdr (Reg.rfdr i) := by
    simp only [Reg.IsRfdr, Reg.rfdr]
    omega
  rw [rx_snoc]
  simp [RxWatch.next, hrfdr]

lemma rx_store_mark {off : Nat} (h : off = Reg.intr ∨ off = Reg.iprxfcr) (v : Word) :
    rx fspi (t ++ [.call (.store (fspi + off) v) ()]) = { rx fspi t with
      markArrived := (rx fspi t).arrived
      markLoaded := (rx fspi t).loaded } := by
  have hne : off ≠ Reg.ipcmd := by rcases h with rfl | rfl <;> decide
  rw [rx_snoc]
  simp [RxWatch.next, h, hne]

lemma rx_store_status {off : Nat} (h : Reg.IsStatus off) (v : Word) :
    rx fspi (t ++ [.call (.store (fspi + off) v) ()]) = rx fspi t := by
  have hne : off ≠ Reg.ipcmd ∧ ¬ (off = Reg.intr ∨ off = Reg.iprxfcr) := by
    simp only [Reg.IsStatus, Reg.ipcmd, Reg.intr, Reg.iprxfcr] at h ⊢
    omega
  rw [rx_snoc]
  simp [RxWatch.next, hne]

lemma rx_trigger (v : Word) (h : v.getLsbD 0 = true) :
    rx fspi (t ++ [.call (.store (fspi + Reg.ipcmd) v) ()]) =
      ⟨0, 0, 0, 0, (rx fspi t).inStep⟩ := by
  rw [rx_snoc]
  simp [RxWatch.next, h]

lemma rx_write32 (a : Nat) (v : Word) : rx fspi (t ++ [.call (.write32 a v) ()]) = rx fspi t :=
  rx_snoc t _

lemma rx_write8 (a : Nat) (b : Byte) : rx fspi (t ++ [.call (.write8 a b) ()]) = rx fspi t :=
  rx_snoc t _

lemma rx_spin (w : BitWait) (v : Word) : rx fspi (t ++ [.spin w v]) = rx fspi t :=
  rx_snoc t _

lemma rx_act (a : DeviceAction) :
    rx fspi (t ++ [.act a]) = { rx fspi t with
      arrived := (rx fspi t).arrived + match a with
        | .receive _ => 1
        | _ => 0 } := by
  rw [rx_snoc]
  cases a <;> rfl

/-! ## The assertions -/

/-- The first `m` bytes received since the trigger are in the buffer. -/
def Holds (data m : Nat) (s : Bus) : Prop :=
  ∀ k < m, (s.dev.received[s.dev.core.base + k / 4]?).map (byteAt · (k % 4)) =
    some (s.mem (data + k))

/-- `n` words have been loaded, `m` bytes stored to the buffer, and they are the right ones. -/
structure Fetched (fspi data : Nat) (watermark : Watermark) (n m : Nat) (s : Bus) (t : BusTrace) :
    Prop where
  watermark : s.dev.core.rxWatermark = watermark
  arrived : s.dev.received.length = s.dev.core.base + (rx fspi t).arrived
  loaded : (rx fspi t).loaded = n
  enough : n ≤ (rx fspi t).arrived
  popped : s.dev.core.popped ≤ s.dev.received.length
  holds : Holds data m s

/-- Between two rounds no word that is due is in front of the FIFO's head. -/
def RoundStart (fspi data : Nat) (watermark : Watermark) (n m : Nat) :
    Assertion bus Bus DeviceAction := fun s t =>
  InStep fspi t → Fetched fspi data watermark n m s t ∧ s.dev.core.base + n ≤ s.dev.core.popped

/-- In a round that starts at word `start`: if nothing was unread when it started, that word is
at the head of the FIFO. -/
def InRound (fspi data : Nat) (watermark : Watermark) (start n m : Nat) :
    Assertion bus Bus DeviceAction := fun s t =>
  InStep fspi t → Fetched fspi data watermark n m s t ∧
    s.dev.core.base + start ≤ s.dev.core.popped ∧ (rx fspi t).markLoaded = start ∧
    ((rx fspi t).markArrived = start → s.dev.core.popped = s.dev.core.base + start)

variable {data : Nat} {watermark : Watermark} {start n m : Nat} {s s' : Bus} {t}

/-- Words that arrive later do not change the bytes that are due. -/
lemma Holds.act {a : DeviceAction} (h : Holds data m s)
    (hact : (flexspi permits fspi).act a s = some s') : Holds data m s' := by
  obtain ⟨-, hmem, hcore, -, hreceived⟩ := act_spec hact
  intro k hk
  have hold := h k hk
  rw [hmem, hcore]
  cases hget : s.dev.received[s.dev.core.base + k / 4]? with
  | none => simp [hget] at hold
  | some v =>
    obtain ⟨later, hlater⟩ := hreceived
    have hlt := (List.getElem?_eq_some_iff.mp hget).1
    rwa [← hlater, List.getElem?_append_left hlt]

lemma inStep_act (a : DeviceAction) : InStep fspi (t ++ [.act a]) ↔ InStep fspi t := by
  rw [InStep, rx_act, InStep]

lemma Fetched.act {a : DeviceAction} (h : Fetched fspi data watermark n m s t)
    (hact : (flexspi permits fspi).act a s = some s') :
    Fetched fspi data watermark n m s' (t ++ [.act a]) := by
  obtain ⟨-, -, hcore, -, hreceived⟩ := act_spec hact
  have hlen := hreceived.length_le
  refine ⟨by rw [hcore, h.watermark], ?_, ?_, ?_, ?_, h.holds.act hact⟩
  · have harrived := h.arrived
    obtain rfl := act_eq hact
    rw [rx_act]
    cases a with
    | receive v =>
      simp only [Controller.perform, List.length_append, List.length_singleton]
      omega
    | raise flags => exact harrived
    | complete => exact harrived
    | setStatus off v => exact harrived
  · rw [rx_act]
    exact h.loaded
  · rw [rx_act]
    exact Nat.le_add_right_of_le h.enough
  · rw [hcore]
    exact Nat.le_trans h.popped hlen

lemma stable_roundStart :
    (flexspi permits fspi).Stable (RoundStart fspi data watermark n m) := by
  intro a s s' t h hact hstep
  obtain ⟨hfetched, hfront⟩ := h ((inStep_act a).mp hstep)
  exact ⟨hfetched.act hact, by rwa [(act_spec hact).2.2.1]⟩

lemma stable_inRound :
    (flexspi permits fspi).Stable (InRound fspi data watermark start n m) := by
  intro a s s' t h hact hstep
  obtain ⟨hfetched, hrest⟩ := h ((inStep_act a).mp hstep)
  refine ⟨hfetched.act hact, ?_⟩
  rw [(act_spec hact).2.2.1, rx_act]
  exact hrest

/-! ### Accesses that the assertions do not see -/

/-- The access has changed nothing but flags and status registers, and the watch ignores it. -/
def Unseen (fspi : Nat) (s s' : Bus) (t t' : BusTrace) : Prop :=
  s'.mem = s.mem ∧ s'.dev.core = s.dev.core ∧ s'.dev.received = s.dev.received ∧
    rx fspi t' = rx fspi t

variable {t' : BusTrace}

lemma Fetched.unseen (h : Fetched fspi data watermark n m s t) (hu : Unseen fspi s s' t t') :
    Fetched fspi data watermark n m s' t' := by
  obtain ⟨hmem, hcore, hreceived, hrx⟩ := hu
  refine ⟨by rw [hcore, h.watermark], by rw [hreceived, hcore, hrx, h.arrived],
    by rw [hrx, h.loaded], by rw [hrx]; exact h.enough, by rw [hcore, hreceived]; exact h.popped,
    ?_⟩
  intro k hk
  rw [hmem, hcore, hreceived]
  exact h.holds k hk

lemma roundStart_unseen (h : RoundStart fspi data watermark n m s t)
    (hu : Unseen fspi s s' t t') : RoundStart fspi data watermark n m s' t' := by
  intro hstep
  rw [InStep, hu.2.2.2] at hstep
  obtain ⟨hfetched, hfront⟩ := h hstep
  exact ⟨hfetched.unseen hu, by rwa [hu.2.1]⟩

lemma inRound_unseen (h : InRound fspi data watermark start n m s t)
    (hu : Unseen fspi s s' t t') : InRound fspi data watermark start n m s' t' := by
  intro hstep
  rw [InStep, hu.2.2.2] at hstep
  obtain ⟨hfetched, hrest⟩ := h hstep
  refine ⟨hfetched.unseen hu, ?_⟩
  rw [hu.2.1, hu.2.2.2]
  exact hrest

lemma unseen_load {off : Nat} (h : ¬ Reg.IsRfdr off) (s : Bus) (t : BusTrace) (v : Word) :
    Unseen fspi s s t (t ++ [.call (.load (fspi + off)) v]) :=
  ⟨rfl, rfl, rfl, rx_load t h v⟩

lemma unseen_store_status {off : Nat} (h : Reg.IsStatus off) (s : Bus) (t : BusTrace) (v : Word) :
    Unseen fspi s { s with dev := s.dev.store off v } t
      (t ++ [.call (.store (fspi + off) v) ()]) :=
  ⟨rfl, Core.store_status _ _ _ h, rfl, rx_store_status t h v⟩

lemma unseen_spin (s : Bus) (t : BusTrace) (w : BitWait) (v : Word) :
    Unseen fspi s s t (t ++ [.spin w v]) :=
  ⟨rfl, rfl, rfl, rx_spin t w v⟩

/-! ## One round -/

/-- The wait for a round. -/
lemma waitBit_rx (flag : Nat) (hflag : flag < 32) :
    (flexspi permits fspi).Triple noGuarantee (RoundStart fspi data watermark n m)
      (waitBit (fspi + Reg.intr) flag) fun _ => RoundStart fspi data watermark n m :=
  waitBit_triple hflag stable_roundStart stable_roundStart (fun _ _ _ => trivial)
    (fun s t hs _ => roundStart_unseen hs (unseen_spin s t _ _))
    fun s t hs _ => roundStart_unseen hs (unseen_spin s t _ _)

/-- Words leave the RX FIFO only at its front. -/
lemma popped_store_intr {c : Core} {received : Nat} (h : c.popped ≤ received) (v : Word) :
    c.popped ≤ (c.store received Reg.intr v).popped ∧
      (c.store received Reg.intr v).popped ≤ received := by
  rw [Core.store_intr]
  dsimp only
  split <;> omega

lemma Fetched.store_intr (h : Fetched fspi data watermark n m s t) (v : Word) :
    Fetched fspi data watermark n m { s with dev := s.dev.store Reg.intr v }
      (t ++ [.call (.store (fspi + Reg.intr) v) ()]) := by
  have hrx : rx fspi (t ++ [.call (.store (fspi + Reg.intr) v) ()]) = { rx fspi t with
      markArrived := (rx fspi t).arrived
      markLoaded := (rx fspi t).loaded } := rx_store_mark t (.inl rfl) v
  refine ⟨h.watermark, ?_, ?_, ?_, (popped_store_intr h.popped v).2, h.holds⟩
  · rw [hrx]
    exact h.arrived
  · rw [hrx]
    exact h.loaded
  · rw [hrx]
    exact h.enough

/-- The store of `clear_flags` drops a watermark level, unless nothing is there to be dropped. -/
lemma store_intr_rx (v : Word) :
    (flexspi permits fspi).Triple noGuarantee (RoundStart fspi data watermark n m)
      (store (fspi + Reg.intr) v) fun _ => InRound fspi data watermark n n m := by
  refine store_triple stable_roundStart stable_inRound (fun _ _ _ => trivial) ?_
  intro s t hs hstep
  rw [InStep, rx_store_mark t (.inl rfl)] at hstep
  obtain ⟨h, hfront⟩ := hs hstep
  have harrived := h.arrived
  obtain ⟨hge, hle⟩ := popped_store_intr h.popped v
  refine ⟨h.store_intr v, Nat.le_trans hfront hge, ?_, ?_⟩
  · rw [rx_store_mark t (.inl rfl)]
    exact h.loaded
  · rw [rx_store_mark t (.inl rfl)]
    intro hmark
    dsimp only at hmark
    change (s.dev.core.store s.dev.received.length Reg.intr v).popped = s.dev.core.base + n
    omega

lemma clearFlags_rx :
    (flexspi permits fspi).Triple noGuarantee (RoundStart fspi data watermark n m)
      (clearFlags fspi) fun _ => InRound fspi data watermark n n m := by
  have hload : ∀ off, ¬ Reg.IsRfdr off → (flexspi permits fspi).Triple noGuarantee
      (InRound fspi data watermark n n m) (load (fspi + off))
      fun _ => InRound fspi data watermark n n m := fun off hoff =>
    load_triple stable_inRound (fun _ => stable_inRound) (fun _ _ _ => trivial)
      fun s t hs => inRound_unseen hs (unseen_load hoff s t _)
  have hstore : ∀ off v, Reg.IsStatus off → (flexspi permits fspi).Triple noGuarantee
      (InRound fspi data watermark n n m) (store (fspi + off) v)
      fun _ => InRound fspi data watermark n n m := fun off v hoff =>
    store_triple stable_inRound stable_inRound (fun _ _ _ => trivial)
      fun s t hs => inRound_unseen hs (unseen_store_status hoff s t v)
  refine Triple.bind (load_triple (Q := fun _ => RoundStart fspi data watermark n m)
    stable_roundStart (fun _ => stable_roundStart) (fun _ _ _ => trivial) fun s t hs =>
      roundStart_unseen hs (unseen_load (by decide) s t _)) fun v => ?_
  refine Triple.bind (store_intr_rx v) fun _ => ?_
  refine Triple.bind (hload _ (by decide)) fun x => Triple.bind (hstore _ x (by decide)) fun _ => ?_
  exact Triple.bind (hload _ (by decide)) fun y => hstore _ y (by decide)

/-- The acknowledge of a round drops a watermark level, which is at least what the round has
read. -/
lemma ack_rx (hle : n ≤ start + 2 * watermark.val) :
    (flexspi permits fspi).Triple noGuarantee (InRound fspi data watermark start n m)
      (orReg (fspi + Reg.intr) (bit rxWatermarkFlag))
      fun _ => RoundStart fspi data watermark n m := by
  refine Triple.bind (load_triple (Q := fun _ => InRound fspi data watermark start n m)
    stable_inRound (fun _ => stable_inRound) (fun _ _ _ => trivial) fun s t hs =>
      inRound_unseen hs (unseen_load (by decide) s t _)) fun v => ?_
  refine store_triple stable_inRound stable_roundStart (fun _ _ _ => trivial) ?_
  intro s t hs hstep
  rw [InStep, rx_store_mark t (.inl rfl)] at hstep
  obtain ⟨h, hfront, -⟩ := hs hstep
  refine ⟨h.store_intr _, ?_⟩
  have harrived := h.arrived
  have henough := h.enough
  have hset : (v ||| bit rxWatermarkFlag).getLsbD rxWatermarkFlag = true := by
    simp [rxWatermarkFlag]
  have hpop : (s.dev.core.store s.dev.received.length Reg.intr (v ||| bit rxWatermarkFlag)).popped =
      min s.dev.received.length (s.dev.core.popped + 2 * watermark.val) := by
    rw [Core.store_intr]
    simp only [hset, if_true, h.watermark]
  change s.dev.core.base + n ≤
    (s.dev.core.store s.dev.received.length Reg.intr (v ||| bit rxWatermarkFlag)).popped
  rw [hpop]
  omega

/-! ### Taking words -/

/-- The `n`-th word received since the trigger is `v`. -/
def Due (n : Nat) (v : Word) (s : Bus) : Prop :=
  s.dev.received[s.dev.core.base + n]? = some v

/-- In a round: the word last loaded is the one that was due, and is still to be stored. -/
def Carrying (fspi data : Nat) (watermark : Watermark) (start n m : Nat) (v : Word) :
    Assertion bus Bus DeviceAction := fun s t =>
  InRound fspi data watermark start (n + 1) m s t ∧ (InStep fspi t → Due n v s)

lemma stable_carrying (v : Word) :
    (flexspi permits fspi).Stable (Carrying fspi data watermark start n m v) := by
  refine stable_and stable_inRound fun a s s' t h hact hstep => ?_
  obtain ⟨-, -, hcore, -, later, hlater⟩ := act_spec hact
  have hget := h ((inStep_act a).mp hstep)
  have hlt := (List.getElem?_eq_some_iff.mp hget).1
  rwa [Due, hcore, ← hlater, List.getElem?_append_left hlt]

/-- A load in step reads the word that is due. -/
lemma load_rfdr_rx {i : Nat} (hi : i < 32) (hn : n = start + i) :
    (flexspi permits fspi).Triple noGuarantee (InRound fspi data watermark start n m)
      (load (fspi + Reg.rfdr i)) (Carrying fspi data watermark start n m) := by
  refine load_triple stable_inRound stable_carrying (fun _ _ _ => trivial) fun s t hs => ?_
  have hdue : InStep fspi (t ++ [.call (.load (fspi + Reg.rfdr i)) (s.dev.load (Reg.rfdr i))]) →
      InStep fspi t ∧ (rx fspi t).markArrived = (rx fspi t).markLoaded ∧
        (rx fspi t).loaded < (rx fspi t).arrived := by
    intro hstep
    rw [InStep, rx_load_rfdr t hi] at hstep
    simpa [InStep] using hstep
  refine ⟨fun hstep => ?_, fun hstep => ?_⟩
  · obtain ⟨hbefore, hmark, hlt⟩ := hdue hstep
    obtain ⟨h, hrest⟩ := hs hbefore
    have hloaded := h.loaded
    rw [rx_load_rfdr t hi]
    refine ⟨⟨h.watermark, ?_, ?_, ?_, h.popped, h.holds⟩, hrest⟩
    · rw [rx_load_rfdr t hi]
      exact h.arrived
    · rw [rx_load_rfdr t hi]
      exact congrArg (· + 1) hloaded
    · rw [rx_load_rfdr t hi]
      dsimp only
      omega
  · obtain ⟨hbefore, hmark, hlt⟩ := hdue hstep
    obtain ⟨h, -, hstart, hhead⟩ := hs hbefore
    have harrived := h.arrived
    have hloaded := h.loaded
    -- nothing was unread, so the FIFO starts at the first word of the round
    have hpopped := hhead (hmark.trans hstart)
    have hget : s.dev.rxFifo[i]? = s.dev.received[s.dev.core.base + n]? := by
      rw [Controller.rxFifo, List.getElem?_drop, hpopped, hn, Nat.add_assoc]
    have hlt' : s.dev.core.base + n < s.dev.received.length := by omega
    rw [Due, Controller.load_rfdr _ hi, hget, List.getElem?_eq_getElem hlt', Option.getD_some]

lemma Holds.storeWord {v : Word} (h : Holds data (4 * n) s) (hv : Due n v s) :
    Holds data (4 * (n + 1)) { s with mem := storeWord s.mem (data + 4 * n) v } := by
  intro k hk
  by_cases hlt : k < 4 * n
  · have hout : ¬ (data + 4 * n ≤ data + k ∧ data + k < data + 4 * n + 4) := by omega
    simp only [QspiTool.storeWord, if_neg hout]
    exact h k hlt
  · have hin : data + 4 * n ≤ data + k ∧ data + k < data + 4 * n + 4 := by omega
    have hdiv : k / 4 = n := by omega
    have hmod : data + k - (data + 4 * n) = k % 4 := by omega
    simp only [QspiTool.storeWord, if_pos hin, hdiv, hmod]
    rw [show s.dev.received[s.dev.core.base + n]? = some v from hv]
    rfl

lemma Holds.storeByte {v : Word} {j : Nat} (hj : j < 4) (h : Holds data (4 * n + j) s)
    (hv : Due n v s) :
    Holds data (4 * n + (j + 1))
      { s with mem := Function.update s.mem (data + (4 * n + j)) (byteAt v j) } := by
  intro k hk
  by_cases hlt : k < 4 * n + j
  · have hne : data + k ≠ data + (4 * n + j) := by omega
    simp only [Function.update_of_ne hne]
    exact h k hlt
  · obtain rfl : k = 4 * n + j := by omega
    have hdiv : (4 * n + j) / 4 = n := by omega
    have hmod : (4 * n + j) % 4 = j := by omega
    simp only [Function.update_self, hdiv, hmod]
    rw [show s.dev.received[s.dev.core.base + n]? = some v from hv]
    rfl

/-- A store to the buffer changes nothing but the bytes it stores. -/
lemma Fetched.store {mem : Nat → Byte} (h : Fetched fspi data watermark n m s t)
    (hrx : rx fspi t' = rx fspi t) {m' : Nat} (hholds : Holds data m' { s with mem := mem }) :
    Fetched fspi data watermark n m' { s with mem := mem } t' :=
  ⟨h.watermark, by rw [hrx]; exact h.arrived, by rw [hrx]; exact h.loaded,
    by rw [hrx]; exact h.enough, h.popped, hholds⟩

lemma readWords_rx (count i buffer : Nat) (hcount : i + count ≤ 32)
    (hbuffer : buffer = data + 4 * (start + i)) :
    (flexspi permits fspi).Triple noGuarantee
      (InRound fspi data watermark start (start + i) (4 * (start + i)))
      (readWords fspi count i buffer) fun b s t =>
        InRound fspi data watermark start (start + (i + count)) (4 * (start + (i + count))) s t ∧
          b = data + 4 * (start + (i + count)) := by
  induction count generalizing i buffer with
  | zero =>
    exact Triple.ret (stable_and_const stable_inRound _) fun s t hs => ⟨hs, hbuffer⟩
  | succ count ih =>
    refine Triple.bind (load_rfdr_rx (by omega) rfl) fun v => ?_
    have hwrite : (flexspi permits fspi).Triple noGuarantee
        (Carrying fspi data watermark start (start + i) (4 * (start + i)) v) (write32 buffer v)
        fun _ => InRound fspi data watermark start (start + (i + 1)) (4 * (start + (i + 1))) := by
      refine write32_triple (stable_carrying v) stable_inRound (fun _ _ _ => trivial) ?_
      rintro s t ⟨hs, hv⟩ hstep
      rw [InStep, rx_write32] at hstep
      obtain ⟨h, hrest⟩ := hs hstep
      rw [rx_write32]
      subst hbuffer
      exact ⟨h.store (rx_write32 t _ _) (h.holds.storeWord (hv hstep)), hrest⟩
    refine Triple.bind hwrite fun _ => ?_
    have hnext := ih (i + 1) (buffer + 4) (by omega) (by omega)
    rwa [show i + 1 + count = i + (count + 1) by omega] at hnext

lemma scatterBytes_rx (v : Word) (count j buffer : Nat) (hcount : j + count ≤ 4)
    (hbuffer : buffer = data + (4 * n + j)) :
    (flexspi permits fspi).Triple noGuarantee
      (Carrying fspi data watermark start n (4 * n + j) v) (scatterBytes count j v buffer)
      fun _ => InRound fspi data watermark start (n + 1) (4 * n + (j + count)) := by
  induction count generalizing j buffer with
  | zero => exact Triple.ret stable_inRound fun s t hs => hs.1
  | succ count ih =>
    have hwrite : (flexspi permits fspi).Triple noGuarantee
        (Carrying fspi data watermark start n (4 * n + j) v) (write8 buffer (byteAt v j))
        fun _ => Carrying fspi data watermark start n (4 * n + (j + 1)) v := by
      refine write8_triple (stable_carrying v) (stable_carrying v) (fun _ _ _ => trivial) ?_
      rintro s t ⟨hs, hv⟩
      refine ⟨fun hstep => ?_, fun hstep => ?_⟩
      · rw [InStep, rx_write8] at hstep
        obtain ⟨h, hrest⟩ := hs hstep
        rw [rx_write8]
        subst hbuffer
        exact ⟨h.store (rx_write8 t _ _) (h.holds.storeByte (by omega) (hv hstep)), hrest⟩
      · rw [InStep, rx_write8] at hstep
        exact hv hstep
    refine Triple.bind hwrite fun _ => ?_
    have hnext := ih (j + 1) (buffer + 1) (by omega) (by omega)
    rwa [show j + 1 + count = j + (count + 1) by omega] at hnext

/-- The tail of a partial round takes one more word, if it takes any bytes. -/
lemma readTail_rx (size i buffer : Nat) (hi : i < 32) (hsize : size < 4)
    (hbuffer : buffer = data + 4 * (start + i)) :
    (flexspi permits fspi).Triple noGuarantee
      (InRound fspi data watermark start (start + i) (4 * (start + i)))
      (readTail fspi size i buffer) fun _ =>
        InRound fspi data watermark start (start + (4 * i + size + 3) / 4)
          (4 * (start + i) + size) := by
  unfold readTail
  split <;> rename_i hzero
  · refine Triple.bind (load_rfdr_rx hi rfl) fun v => ?_
    have hscatter : (flexspi permits fspi).Triple noGuarantee
        (Carrying fspi data watermark start (start + i) (4 * (start + i) + 0) v)
        (scatterBytes size 0 v buffer) fun _ =>
          InRound fspi data watermark start (start + i + 1) (4 * (start + i) + (0 + size)) :=
      scatterBytes_rx v size 0 buffer (by omega) (by omega)
    rw [Nat.zero_add] at hscatter
    rwa [show start + (4 * i + size + 3) / 4 = start + i + 1 by omega]
  · obtain rfl : size = 0 := by omega
    rw [show start + (4 * i + 0 + 3) / 4 = start + i by omega]
    exact Triple.ret stable_inRound fun _ _ => id

/-- The words a round takes are the words that are due. -/
lemma readChunk_rx (hw : watermark.val ≤ 32) (size buffer : Nat)
    (hbuffer : buffer = data + 4 * start) :
    (flexspi permits fspi).Triple noGuarantee
      (InRound fspi data watermark start start (4 * start))
      (readChunk fspi watermark buffer size) fun b s t =>
        InRound fspi data watermark start (start + rxReach watermark size)
          (4 * start + (size - readRest watermark size)) s t ∧
        (4 * watermark.val ≤ size → b = data + 4 * (start + rxReach watermark size)) := by
  unfold readChunk readRest rxReach
  by_cases hfull : 4 * watermark.val ≤ size
  · simp only [if_pos hfull]
    refine ((readWords_rx watermark.val 0 buffer (by omega) hbuffer).pre fun _ _ => id).post ?_
    rintro b s t ⟨hs, hb⟩
    have hreach : min watermark.val ((size + 3) / 4) = watermark.val := by omega
    rw [hreach, show 4 * start + (size - (size - 4 * watermark.val)) =
      4 * (start + (0 + watermark.val)) by omega]
    rw [Nat.zero_add] at hs hb ⊢
    exact ⟨hs, fun _ => hb⟩
  · simp only [if_neg hfull]
    refine Triple.bind (readWords_rx (size / 4) 0 buffer (by omega) hbuffer) fun b => ?_
    refine Triple.of_pure fun hb => ?_
    rw [Nat.zero_add] at hb ⊢
    refine (readTail_rx (size - 4 * (size / 4)) (size / 4) b (by omega) (by omega) hb).post ?_
    intro _ s t hs
    have hreach : min watermark.val ((size + 3) / 4) =
        (4 * (size / 4) + (size - 4 * (size / 4)) + 3) / 4 := by omega
    rw [hreach, show 4 * start + (size - 0) =
      4 * (start + size / 4) + (size - 4 * (size / 4)) by omega]
    exact ⟨hs, fun h => absurd h hfull⟩

/-! ## The loop -/

/-- A round takes the words that are due, and the next one finds its first word not yet dropped. -/
lemma readRound_rx (hw : watermark.val ≤ 32) (size buffer : Nat)
    (hbuffer : buffer = data + 4 * start) :
    (flexspi permits fspi).Triple noGuarantee
      (RoundStart fspi data watermark start (4 * start))
      (readRound fspi watermark buffer size) fun b s t =>
        RoundStart fspi data watermark (start + rxReach watermark size)
          (4 * start + (size - readRest watermark size)) s t ∧
        (4 * watermark.val ≤ size → b = data + 4 * (start + rxReach watermark size)) := by
  have hreach : rxReach watermark size ≤ watermark.val := Nat.min_le_left _ _
  refine Triple.bind (waitBit_rx rxWatermarkFlag (by decide)) fun _ => ?_
  refine Triple.bind clearFlags_rx fun _ => ?_
  refine Triple.bind (readChunk_rx hw size buffer hbuffer) fun b => Triple.of_pure fun hb => ?_
  refine Triple.bind (ack_rx (by omega)) fun _ => ?_
  exact Triple.ret (stable_and_const stable_roundStart _) fun s t hs => ⟨hs, hb⟩

/-- The buffer holds the first `m` bytes received, if every word was loaded in step. -/
def Received (fspi data m : Nat) : Assertion bus Bus DeviceAction := fun s t =>
  InStep fspi t → Holds data m s

lemma stable_received : (flexspi permits fspi).Stable (Received fspi data m) :=
  fun a _ _ _ h hact hstep => (h ((inStep_act a).mp hstep)).act hact

/-- **The loop of `read_blocking`.**  Loaded in step, the words are those received, in order. -/
lemma readLoop_rx (hw : watermark.val ≤ 32) (size buffer : Nat) (hbuffer : buffer = data + 4 * n) :
    (flexspi permits fspi).Triple noGuarantee (RoundStart fspi data watermark n (4 * n))
      (readLoop fspi watermark buffer size) fun _ => Received fspi data (4 * n + size) := by
  induction size using Nat.strongRecOn generalizing buffer n with
  | ind size ih =>
    rw [readLoop]
    split <;> rename_i hsize
    · subst hsize
      exact Triple.ret stable_received fun s t hs hstep => (hs hstep).1.holds
    · refine Triple.bind (readRound_rx hw size buffer hbuffer) fun b => Triple.of_pure fun hb => ?_
      by_cases hfull : 4 * watermark.val ≤ size
      · have hreach : rxReach watermark size = watermark.val := by
          unfold rxReach
          omega
        have hrest : readRest watermark size = size - 4 * watermark.val := if_pos hfull
        have hnext := ih _ (readRest_lt watermark hsize) (n := n + watermark.val) b
          (hreach ▸ hb hfull)
        rw [hrest] at hnext ⊢
        rw [hreach, show 4 * n + (size - (size - 4 * watermark.val)) =
          4 * (n + watermark.val) by omega]
        rwa [show 4 * (n + watermark.val) + (size - 4 * watermark.val) = 4 * n + size by omega]
          at hnext
      · have hrest : readRest watermark size = 0 := if_neg hfull
        rw [hrest, readLoop, dif_pos rfl]
        exact Triple.ret stable_received fun s t hs hstep => (hs hstep).1.holds

end QspiTool
