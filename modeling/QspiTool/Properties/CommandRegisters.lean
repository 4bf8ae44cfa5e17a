import QspiTool.Driver.CommandWord
import QspiTool.Interaction.Monitor
import QspiTool.Properties.InstalledSequences
import QspiTool.Properties.WholeBuffer

/-!
# The command and the data it moves

A command is what `IPCR0` and `IPCR1` hold when `IPCMD` is stored to.  `transfer_blocking` has no
branch before that store, so up to it every run makes the same accesses (`commandEvents`), and
behind it no other store hits `IPCMD`.  Of `IPCR1` the data size is the number of bytes that
`write_blocking` or `read_blocking` moves afterwards.
-/

namespace QspiTool

open Words Interaction Machine

variable {σ A : Type} {M : Machine bus σ A} {fspi : Nat}

/-! ## The accesses up to the trigger -/

abbrev loadEvent (a : Nat) (v : Word) : Event bus A := .call (.load a) v

abbrev storeEvent (a : Nat) (v : Word) : Event bus A := .call (.store a v) ()

/-- What the loads of `transfer_blocking` up to the trigger have read. -/
structure CommandLoads where
  flshcr2 : Word
  intr : Word
  sts0 : Word
  sts1 : Word
  iptxfcr : Word
  iprxfcr : Word
  ipcmd : Word

/-- The accesses of `setupCommand`: the sequence pointer is reset, the flags are cleared, the
address is set, the FIFOs are flushed and the command is set. -/
def setupEvents (fspi : Nat) (xfer : FlexspiTransfer) (v : CommandLoads) : Trace bus A :=
  [loadEvent (fspi + Reg.flshcr2 xfer.port.index) v.flshcr2,
    storeEvent (fspi + Reg.flshcr2 xfer.port.index) (v.flshcr2 ||| bit 31),
    loadEvent (fspi + Reg.intr) v.intr, storeEvent (fspi + Reg.intr) v.intr,
    loadEvent (fspi + Reg.sts0) v.sts0, storeEvent (fspi + Reg.sts0) v.sts0,
    loadEvent (fspi + Reg.sts1) v.sts1, storeEvent (fspi + Reg.sts1) v.sts1,
    storeEvent (fspi + Reg.ipcr0) xfer.deviceAddress,
    loadEvent (fspi + Reg.iptxfcr) v.iptxfcr,
    storeEvent (fspi + Reg.iptxfcr) (v.iptxfcr ||| 1#32),
    loadEvent (fspi + Reg.iprxfcr) v.iprxfcr,
    storeEvent (fspi + Reg.iprxfcr) (v.iprxfcr ||| 1#32),
    storeEvent (fspi + Reg.ipcr1) (configValue xfer)]

/-- The accesses of `transfer_blocking` before it stores to `IPCMD`. -/
def commandEvents (fspi : Nat) (xfer : FlexspiTransfer) (v : CommandLoads) : Trace bus A :=
  setupEvents fspi xfer v ++ [loadEvent (fspi + Reg.ipcmd) v.ipcmd]

/-- `IPCMD` is stored to only when the command is set up, and its trigger bit is set then. -/
def Commanded (fspi : Nat) (xfer : FlexspiTransfer) (d : Head bus) : Assertion bus σ A := fun _ t =>
  ∀ w, d = .call (.store (fspi + Reg.ipcmd) w) →
    ∃ v, ownEvents t = commandEvents fspi xfer v ∧ w = v.ipcmd ||| 1#32

lemma commanded_of_triggerFree {xfer : FlexspiTransfer} {d : Head bus} (h : TriggerFree fspi d)
    (s : σ) (t : Trace bus A) : Commanded fspi xfer d s t := by
  rintro w rfl
  simp [TriggerFree, triggers] at h

section

variable {xfer : FlexspiTransfer}

/-- One more access, which is not the trigger. -/
lemma recorded_load {l : Trace bus A} (a : Nat) :
    M.Triple (Commanded fspi xfer) (Recorded l) (load a) fun v => Recorded (l ++ [loadEvent a v]) :=
  recorded_op (S := bus) (.load a) fun s t _ => commanded_of_triggerFree rfl s t

lemma recorded_store {l : Trace bus A} {off : Nat} (v : Word) (h : off ≠ Reg.ipcmd) :
    M.Triple (Commanded fspi xfer) (Recorded l) (store (fspi + off) v) fun _ =>
      Recorded (l ++ [storeEvent (fspi + off) v]) := by
  refine (recorded_op (S := bus) (.store (fspi + off) v) fun s t _ => ?_).post fun _ _ _ h => h
  apply commanded_of_triggerFree
  simp only [TriggerFree, triggers, decide_eq_false_iff_not]
  omega

lemma recorded_orReg {l : Trace bus A} {off : Nat} (m : Word) (h : off ≠ Reg.ipcmd) :
    M.Triple (Commanded fspi xfer) (Recorded l) (orReg (fspi + off) m) fun _ s t => ∃ v,
      Recorded (l ++ [loadEvent (fspi + off) v, storeEvent (fspi + off) (v ||| m)]) s t := by
  refine Triple.bind (recorded_load _) fun v => ?_
  refine (recorded_store (v ||| m) h).post fun _ s t hs => ⟨v, ?_⟩
  rwa [List.append_assoc] at hs

lemma recorded_clearFlags {l : Trace bus A} :
    M.Triple (Commanded fspi xfer) (Recorded l) (clearFlags fspi) fun _ s t => ∃ intr sts0 sts1,
      Recorded (l ++ [loadEvent (fspi + Reg.intr) intr, storeEvent (fspi + Reg.intr) intr,
        loadEvent (fspi + Reg.sts0) sts0, storeEvent (fspi + Reg.sts0) sts0,
        loadEvent (fspi + Reg.sts1) sts1, storeEvent (fspi + Reg.sts1) sts1]) s t := by
  refine Triple.bind (recorded_load _) fun intr => ?_
  refine Triple.bind (recorded_store intr (by decide)) fun _ => ?_
  refine Triple.bind (recorded_load _) fun sts0 => ?_
  refine Triple.bind (recorded_store sts0 (by decide)) fun _ => ?_
  refine Triple.bind (recorded_load _) fun sts1 => ?_
  refine (recorded_store sts1 (by decide)).post fun _ s t hs => ⟨intr, sts0, sts1, ?_⟩
  simpa only [List.append_assoc, List.cons_append, List.nil_append] using hs

lemma setupCommand_recorded (xfer : FlexspiTransfer) :
    M.Triple (Commanded fspi xfer) (Recorded []) (setupCommand fspi xfer) fun _ s t =>
      ∃ v, Recorded (setupEvents fspi xfer v) s t := by
  have hport : Reg.flshcr2 xfer.port.index ≠ Reg.ipcmd := by
    have := flshcr2_lt xfer.port
    simp only [Reg.ipcmd]
    omega
  refine Triple.bind (recorded_orReg _ hport) fun _ => Triple.exists_pre fun flshcr2 => ?_
  refine Triple.bind recorded_clearFlags fun _ => Triple.exists_pre fun intr =>
    Triple.exists_pre fun sts0 => Triple.exists_pre fun sts1 => ?_
  refine Triple.bind (recorded_store _ (by decide)) fun _ => ?_
  refine Triple.bind (recorded_orReg _ (by decide)) fun _ => Triple.exists_pre fun iptxfcr => ?_
  refine Triple.bind (recorded_orReg _ (by decide)) fun _ => Triple.exists_pre fun iprxfcr => ?_
  refine (recorded_store _ (by decide)).post fun _ s t hs => ?_
  exact ⟨⟨flshcr2, intr, sts0, sts1, iptxfcr, iprxfcr, 0#32⟩, hs⟩

end

/-- **The command is set up when it is triggered**, on every machine. -/
theorem transferBlocking_commanded (xfer : FlexspiTransfer) :
    M.Triple (Commanded fspi xfer) (Recorded []) (transferBlocking fspi xfer)
      fun _ _ _ => True := by
  have hrest : ∀ {α : Type} {p : Driver α}, p.Every (TriggerFree fspi) →
      M.Triple (Commanded fspi xfer) (fun _ _ => True) p fun _ _ _ => True := fun hp =>
    Triple.of_every hp fun _ s t hd => commanded_of_triggerFree hd s t
  refine Triple.bind (setupCommand_recorded xfer) fun _ => Triple.exists_pre fun v => ?_
  refine Triple.bind (Q := fun _ _ _ => True) ?_ fun _ => ?_
  · refine Triple.bind (recorded_load _) fun ipcmd => ?_
    refine (recorded_op (S := bus) (.store (fspi + Reg.ipcmd) (ipcmd ||| 1#32)) ?_).post
      fun _ _ _ _ => trivial
    intro s t hs w hw
    injection hw with haccess
    injection haccess with _ hvalue
    exact ⟨{ v with ipcmd := ipcmd }, hs, hvalue.symm⟩
  · exact hrest ((moveData_triggerFree xfer).bind fun r => awaitCommand_triggerFree r)

/-! ## One trigger -/

/-- The event is a store to `IPCMD`. -/
def storesIpcmd (fspi : Nat) : Event bus A → Bool
  | .call (.store a _) _ => decide (a = fspi + Reg.ipcmd)
  | _ => false

/-- How often `IPCMD` has been stored to. -/
def triggerCount (fspi : Nat) (t : Trace bus A) : Nat := t.countP (storesIpcmd fspi)

@[simp] lemma triggerCount_snoc (t : Trace bus A) (e : Event bus A) :
    triggerCount fspi (t ++ [e]) = triggerCount fspi t + if storesIpcmd fspi e then 1 else 0 := by
  simp [triggerCount, List.countP_append, List.countP_singleton]

lemma stable_triggerCount (n : Nat) : M.Stable fun _ t => triggerCount fspi t = n := by
  intro a s s' t h _
  rw [triggerCount_snoc, h]
  rfl

/-- At most one store to `IPCMD`. -/
def TriggeredOnce (fspi : Nat) (_ : Head bus) : Assertion bus σ A := fun _ t =>
  triggerCount fspi t ≤ 1

lemma triggerFree_count {α : Type} {p : Driver α} {n : Nat} (hn : n ≤ 1)
    (hp : p.Every (TriggerFree fspi)) :
    M.Triple (TriggeredOnce fspi) (fun _ t => triggerCount fspi t = n) p
      fun _ _ t => triggerCount fspi t = n := by
  refine Triple.invariant hp (stable_triggerCount n) ?_ ?_ ?_
  · rintro d s t - hs
    rw [TriggeredOnce, hs]
    exact hn
  · intro o s t ho hs
    have hnot : storesIpcmd (A := A) fspi (.call o (M.exec o s).1) = false := by
      cases o with
      | store a v => exact ho
      | _ => rfl
    rw [triggerCount_snoc, hs, hnot]
    rfl
  · intro w s t _ hs
    rw [triggerCount_snoc, hs]
    rfl

/-- **A transfer triggers one command.** -/
theorem transferBlocking_triggers (xfer : FlexspiTransfer) :
    M.Triple (TriggeredOnce fspi) (fun _ t => triggerCount fspi t = 0)
      (transferBlocking fspi xfer) fun _ _ t => triggerCount fspi t = 1 := by
  refine Triple.bind (triggerFree_count (by decide) (setupCommand_triggerFree xfer)) fun _ => ?_
  refine Triple.bind (Q := fun _ _ t => triggerCount fspi t = 1) ?_ fun _ => ?_
  · refine Triple.bind (triggerFree_count (by decide) (load_every rfl)) fun v => ?_
    refine Triple.op (S := bus) (stable_triggerCount 0) (fun _ => stable_triggerCount 1) ?_ ?_
    · intro s t hs
      rw [TriggeredOnce, hs]
      decide
    · intro s t hs
      have htrigger : storesIpcmd (A := A) fspi
          (.call (.store (fspi + Reg.ipcmd) (v ||| 1#32)) ()) = true := decide_eq_true rfl
      change triggerCount fspi (t ++ [storeEvent (fspi + Reg.ipcmd) (v ||| 1#32)]) = 1
      rw [triggerCount_snoc, hs, htrigger]
      rfl
  · exact triggerFree_count (by decide)
      ((moveData_triggerFree xfer).bind fun r => awaitCommand_triggerFree r)

/-! ## The command and its data -/

lemma moved_ownEvents (dir : Direction) (t : BusTrace) : moved dir (ownEvents t) = moved dir t := by
  induction t with
  | nil => rfl
  | cons e t ih =>
    cases e with
    | call o r => exact congrArg (o.moved dir ++ ·) ih
    | spin w v => exact ih
    | act a => exact ih

lemma moved_commandEvents (dir : Direction) (xfer : FlexspiTransfer) (v : CommandLoads) :
    moved dir (commandEvents fspi xfer v) = [] := by
  cases dir <;> rfl

/-- Different commands have different words. -/
lemma configValue_injective {xfer other : FlexspiTransfer} (h : xfer.cmdType ≠ .command)
    (h' : other.cmdType ≠ .command) (hnumber : 1 ≤ xfer.seqNumber.toNat)
    (hnumber' : 1 ≤ other.seqNumber.toNat) (heq : configValue other = configValue xfer) :
    other.dataSize = xfer.dataSize ∧ other.seqIndex = xfer.seqIndex ∧
      other.seqNumber = xfer.seqNumber := by
  have hdata := read_ipcr1DataSize h'
  have hindex := read_ipcr1SeqIndex h'
  have hseq := read_ipcr1SeqNumber h' hnumber'
  rw [heq, read_ipcr1DataSize h] at hdata
  rw [heq, read_ipcr1SeqIndex h] at hindex
  rw [heq, read_ipcr1SeqNumber h hnumber] at hseq
  refine ⟨?_, ?_, ?_⟩
  · exact BitVec.eq_of_toNat_eq hdata.symm
  · exact BitVec.eq_of_toNat_eq hindex.symm
  · apply BitVec.eq_of_toNat_eq
    omega

/-- **The command registers agree with the data moved.**  The fields of `IPCR1` are the data size,
the sequence index and the sequence number less one of the transfer, and different ones give
different words.  When `IPCMD` is stored to, its trigger bit is set and exactly the accesses of
`commandEvents` have been made: `IPCR0` holds the address, `IPCR1` the command, both FIFOs have been
flushed and the sequence pointer of the port has been reset, and no byte has been moved.  No run
stores to `IPCMD` twice, and one that has returned has done so once and has moved as many bytes as
`IPCR1` says, those of the buffer. -/
theorem transferBlocking_commandRegisters {permits : Permits} {fspi : Nat} {xfer : FlexspiTransfer}
    (hacc : xfer.Accepted) (hnumber : 1 ≤ xfer.seqNumber.toNat) {s : Bus}
    {c : Config bus Bus DeviceAction Int}
    (hreach : (flexspi permits fspi).Reach ⟨transferBlocking fspi xfer, s, []⟩ c) :
    ((ipcr1DataSize.read (configValue xfer)).toNat = xfer.dataSize.toNat ∧
      (ipcr1SeqIndex.read (configValue xfer)).toNat = xfer.seqIndex.toNat ∧
      (ipcr1SeqNumber.read (configValue xfer)).toNat = xfer.seqNumber.toNat - 1) ∧
    (∀ other : FlexspiTransfer, other.Accepted → 1 ≤ other.seqNumber.toNat →
      configValue other = configValue xfer →
      other.dataSize = xfer.dataSize ∧ other.seqIndex = xfer.seqIndex ∧
        other.seqNumber = xfer.seqNumber) ∧
    (∀ w, c.prog.head = .call (.store (fspi + Reg.ipcmd) w) →
      w.getLsbD 0 = true ∧
        (∃ v, ownEvents c.trace = commandEvents fspi xfer v ∧ w = v.ipcmd ||| 1#32) ∧
        moved xfer.cmdType.direction c.trace = []) ∧
    triggerCount fspi c.trace ≤ 1 ∧
    ∀ r, c.prog.value? = some r →
      triggerCount fspi c.trace = 1 ∧
        (moved xfer.cmdType.direction c.trace).length =
          (ipcr1DataSize.read (configValue xfer)).toNat ∧
        moved xfer.cmdType.direction c.trace = List.range' xfer.data xfer.dataSize.toNat := by
  have hkind := hacc.1
  have htriggers : (flexspi permits fspi).Triple (TriggeredOnce fspi)
      (fun _ t => triggerCount fspi t = 0) (transferBlocking fspi xfer)
      fun _ _ t => triggerCount fspi t = 1 := transferBlocking_triggers xfer
  refine ⟨⟨read_ipcr1DataSize hkind, read_ipcr1SeqIndex hkind, read_ipcr1SeqNumber hkind hnumber⟩,
    ?_, ?_, ?_, ?_⟩
  · intro other hother hnumber' heq
    exact configValue_injective hkind hother.1 hnumber hnumber' heq
  · intro w hhead
    have hdone : c.prog.head ≠ .done := by
      rw [hhead]
      rintro ⟨⟩
    have hcommanded : (flexspi permits fspi).Triple (Commanded fspi xfer) (Recorded [])
        (transferBlocking fspi xfer) fun _ _ _ => True := transferBlocking_commanded xfer
    have hstart : Recorded (S := bus) [] s ([] : BusTrace) := rfl
    obtain ⟨v, hevents, rfl⟩ := hcommanded.guarantee hstart hreach hdone w hhead
    refine ⟨by simp, ⟨v, hevents, rfl⟩, ?_⟩
    rw [← moved_ownEvents, hevents, moved_commandEvents]
  · by_cases hdone : c.prog.head = .done
    · obtain ⟨p, s', t'⟩ := c
      obtain ⟨r, rfl⟩ := Prog.exists_ret_of_head hdone
      exact Nat.le_of_eq (htriggers.returns rfl hreach)
    · exact htriggers.guarantee rfl hreach hdone
  · intro r hvalue
    obtain ⟨p, s', t'⟩ := c
    obtain rfl := Prog.eq_ret_of_value? hvalue
    obtain ⟨⟨-, hmoved⟩, -⟩ := (transferBlocking_moved permits fspi xfer hkind).returns rfl hreach
    refine ⟨htriggers.returns rfl hreach, ?_, hmoved⟩
    rw [hmoved, List.length_range', read_ipcr1DataSize hkind]

/-- A write of four bytes at 100, sequence 5, two sequences. -/
def writeFour : FlexspiTransfer where
  deviceAddress := 0xCAFE#32
  port := .portB1
  cmdType := .write
  seqIndex := 5#8
  seqNumber := 2#8
  data := 100
  dataSize := 4#16

theorem transferBlocking_commandRegisters_write :
    ∃ c, (flexspi anyAction 0).Reach
        ⟨transferBlocking 0 writeFour, ⟨Controller.reset, fun _ => 0#8⟩, []⟩ c ∧
      c.prog.value? = some 0 ∧ triggerCount 0 c.trace = 1 ∧
      moved .taken c.trace = [100, 101, 102, 103] := by
  obtain ⟨c, hreach, htest⟩ : ∃ c, (flexspi anyAction 0).Reach
      ⟨transferBlocking 0 writeFour, ⟨Controller.reset, fun _ => 0#8⟩, []⟩ c ∧
      decide (c.prog.value? = some 0) = true :=
    exists_reach_of_run (timed [(17, .raise (bit txEmpty)), (11, .raise (bit cmdDone))] 3)
      (by decide +kernel)
  have hvalue := of_decide_eq_true htest
  have hreturned := (transferBlocking_commandRegisters ⟨by decide, by decide⟩ (by decide)
    hreach).2.2.2.2 0 hvalue
  exact ⟨c, hreach, hvalue, hreturned.1, hreturned.2.2⟩

end QspiTool
