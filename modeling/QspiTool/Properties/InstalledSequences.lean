import QspiTool.Device.FlagRule
import QspiTool.Device.Lut
import QspiTool.Device.TxPath
import QspiTool.Driver.CommandWord

/-!
# Which sequences are executed

A command executes the sequence whose index stands in bits 16 to 23 of `IPCR1`: four words of the
LUT.  The driver takes the index from its caller, or from a constant, and never compares it with the
tables that `QSPI_SetupLut` has installed; `lut_seted` is set nowhere.

`executes_installed_iff` says which tables make the executed sequence an installed one: those of
which one, set up earlier, reaches behind the last byte of the sequence.
-/

namespace QspiTool

open Words Interaction Machine

variable {permits : Permits} {fspi : Nat} {α : Type}

/-- The access is a store to `IPCMD`. -/
def triggers (fspi : Nat) : Head bus → Bool
  | .call (.store a _) => decide (a = fspi + Reg.ipcmd)
  | _ => false

/-- The sequence index in `IPCR1`. -/
def sequenceIndex (ipcr1 : Word) : Nat := ((ipcr1 >>> 16) &&& 0xFF#32).toNat

/-- The words of sequence `n` lie inside the LUT, and all their bytes have been stored. -/
def Installed (fspi n : Nat) (t : BusTrace) : Prop :=
  4 * n + 3 < 128 ∧ ∀ i < 16, lutWritten fspi t (16 * n + i) = true

instance (fspi n : Nat) (t : BusTrace) : Decidable (Installed fspi n t) :=
  inferInstanceAs (Decidable (_ ∧ _))

/-! ## The trigger -/

/-- No store to `IPCMD`. -/
abbrev TriggerFree (fspi : Nat) (d : Head bus) : Prop := triggers fspi d = false

lemma triggerFree_of_away {d : Head bus} (h : AwayHead fspi d) : TriggerFree fspi d := by
  cases d with
  | call o =>
    cases o with
    | store a v => exact decide_eq_false h.2
    | _ => rfl
  | _ => rfl

lemma triggerFree_of_flagHead {d : Head bus} (h : FlagHead fspi d) : TriggerFree fspi d := by
  cases h with
  | loadIntr => rfl
  | storeIntr v =>
    simp only [TriggerFree, triggers, Reg.intr, Reg.ipcmd, decide_eq_false_iff_not]
    omega
  | loadStatus hoff => rfl
  | storeStatus v hoff =>
    have hle := hoff.1
    simp only [TriggerFree, triggers, Reg.ipcmd, decide_eq_false_iff_not]
    omega

lemma triggerFree_of_dataHead {d : Head bus} (h : DataHead fspi d) : TriggerFree fspi d := by
  cases h with
  | flag h => exact triggerFree_of_flagHead h
  | loadControl hoff => rfl
  | flush v =>
    simp only [TriggerFree, triggers, Reg.iprxfcr, Reg.ipcmd, decide_eq_false_iff_not]
    omega
  | write h =>
    cases h with
    | flag h => exact triggerFree_of_flagHead h
    | wait => rfl
    | chunk h => exact triggerFree_of_away (away_of_fill h)
  | read h =>
    cases h with
    | flag h => exact triggerFree_of_flagHead h
    | wait => rfl
    | chunk h => exact triggerFree_of_away (away_of_fetch h)
  | done => rfl

lemma triggerFree_of_lutHead {d : Head bus} (h : LutHead fspi d) : TriggerFree fspi d := by
  cases h with
  | lock v hoff =>
    simp only [TriggerFree, triggers, Reg.ipcmd, decide_eq_false_iff_not]
    rcases hoff with rfl | rfl <;> simp only [Reg.lutkey, Reg.lutcr] <;> omega
  | read8 a => rfl
  | store8 b hi => rfl

/-- When `IPCMD` is stored to, `IPCR1` holds `cfg`. -/
def Programmed (fspi : Nat) (cfg : Word) (d : Head bus) : Assertion bus Bus DeviceAction :=
  fun s _ => triggers fspi d = true → s.dev.core.reg Reg.ipcr1 = cfg

lemma programmed_of_triggerFree {cfg : Word} {d : Head bus} (h : TriggerFree fspi d) (s : Bus)
    (t : BusTrace) : Programmed fspi cfg d s t := by
  intro htrigger
  exact Bool.noConfusion (htrigger.symm.trans h)

/-- A program that never stores to `IPCMD`. -/
lemma triggerFree_triple {P : Assertion bus Bus DeviceAction} {p : Driver α}
    (hp : p.Every (TriggerFree fspi)) (cfg : Word) :
    (flexspi permits fspi).Triple (Programmed fspi cfg) P p fun _ _ _ => True :=
  (Triple.of_every hp fun _ s t hd => programmed_of_triggerFree hd s t).pre fun _ _ _ => trivial

lemma setupCommand_triggerFree (xfer : FlexspiTransfer) :
    (setupCommand fspi xfer).Every (TriggerFree fspi) := by
  rw [setupCommand_eq]
  have hport : (orReg (fspi + Reg.flshcr2 xfer.port.index) (bit 31)).Every (AwayHead fspi) := by
    apply away_orReg
    · cases xfer.port <;> decide
    · cases xfer.port <;> decide
  refine (hport.mono fun _ => triggerFree_of_away).bind fun _ => ?_
  refine (clearFlags_every.mono fun _ => triggerFree_of_flagHead).bind fun _ => ?_
  exact (programCommand_away xfer).mono fun _ => triggerFree_of_away

lemma moveData_triggerFree (xfer : FlexspiTransfer) :
    (moveData fspi xfer).Every (TriggerFree fspi) := by
  refine (moveData_data xfer).mono fun d hd => ?_
  rcases hd with hd | ⟨rfl, -⟩
  · exact triggerFree_of_dataHead hd
  · rfl

lemma awaitCommand_triggerFree (result : Int) :
    (awaitCommand fspi result).Every (TriggerFree fspi) :=
  (awaitCommand_data result).mono fun _ => triggerFree_of_dataHead

/-- The command is programmed when it is triggered. -/
lemma transferBlocking_programmed (xfer : FlexspiTransfer) :
    (flexspi permits fspi).Triple (Programmed fspi (configValue xfer)) (fun _ _ => True)
      (transferBlocking fspi xfer) fun _ _ _ => True := by
  have hstable : (flexspi permits fspi).Stable fun s _ =>
      s.dev.core.reg Reg.ipcr1 = configValue xfer :=
    stable_core fun _ c => c.reg Reg.ipcr1 = configValue xfer
  refine Triple.bind (Q := fun _ s _ => s.dev.core.reg Reg.ipcr1 = configValue xfer)
    ?_ fun _ => ?_
  · intro s t _
    have hsetup : (flexspi permits fspi).Triple noGuarantee (RegState s.mem s.dev.core.reg)
        (setupCommand fspi xfer) fun _ s _ => s.dev.core.reg Reg.ipcr1 = configValue xfer := by
      refine (setupCommand_tx xfer).post fun _ s' t' hs => ?_
      obtain ⟨-, hreg, -⟩ := hs
      rw [hreg, setupRegs, Function.update_self]
    exact ((hsetup.every (setupCommand_triggerFree xfer)).allow fun _ s t hd =>
      programmed_of_triggerFree hd.2 s t) s t ⟨rfl, rfl⟩
  · refine Triple.bind (Q := fun _ _ _ => True) ?_ fun _ => ?_
    · apply orReg_core_triple (by decide) (by decide) (by decide) hstable stable_true
      · exact fun s t _ => programmed_of_triggerFree rfl s t
      · exact fun s t v hs => hs
      · exact fun s t v hs _ => ⟨fun _ => hs, trivial⟩
    · apply triggerFree_triple
      exact (moveData_triggerFree xfer).bind fun r => awaitCommand_triggerFree r

lemma loggedTransfer_programmed (xfer : FlexspiTransfer) :
    (flexspi permits fspi).Triple (Programmed fspi (configValue xfer)) (fun _ _ => True)
      (loggedTransfer fspi xfer) fun _ _ _ => True := by
  refine Triple.bind (transferBlocking_programmed xfer) fun r => ?_
  apply triggerFree_triple
  have hload : ∀ off, (load (fspi + off)).Every (TriggerFree fspi) := fun off => load_every rfl
  exact (hload _).bind fun _ => (hload _).bind fun _ => (hload _).bind fun _ => trivial

/-- A public transfer triggers the sequence of its descriptor. -/
lemma run_programmed (kind : Transfer) (ctx : QspiContext) (addr : Word) (buffer : Nat)
    (size : BitVec 64) :
    (flexspi permits ctx.flexspi).Triple
      (Programmed ctx.flexspi (configValue (kind.descriptor addr buffer size))) (fun _ _ => True)
      ((Call.transfer kind addr buffer size).run ctx) fun _ _ _ => True := by
  have hchecked : ∀ (c : Prop) [Decidable c] (xfer : FlexspiTransfer),
      (flexspi permits ctx.flexspi).Triple (Programmed ctx.flexspi (configValue xfer))
        (fun _ _ => True) (check c >>= fun _ => loggedTransfer ctx.flexspi xfer)
        fun _ _ _ => True := by
    intro c _ xfer
    refine Triple.bind (triggerFree_triple ?_ _) fun _ => loggedTransfer_programmed xfer
    exact (Prog.every_check c).mpr (.inr rfl)
  refine Triple.bind (Q := fun _ _ _ => True) ?_ fun r =>
    Triple.ret stable_true fun _ _ _ => trivial
  cases kind with
  | write lutIndex => exact loggedTransfer_programmed _
  | read => exact hchecked _ _
  | readSample => exact hchecked _ _

/-- Only the transfers trigger a command. -/
lemma triggerFree_call {ctx : QspiContext} {call : Call} (hcall : call ≠ .init ∧ call ≠ .deInit)
    (hother : ∀ kind addr buffer size, call ≠ .transfer kind addr buffer size) :
    (call.run ctx).Every (TriggerFree ctx.flexspi) := by
  cases call with
  | init => exact absurd rfl hcall.1
  | deInit => exact absurd rfl hcall.2
  | setupLut table len =>
    refine Prog.Every.bind ((qspiSetupLut_every ctx table len).mono fun d hd => ?_)
      fun _ => trivial
    rcases hd with hd | ⟨rfl, -⟩
    · exact triggerFree_of_lutHead hd
    · rfl
  | busy =>
    exact ((qspiBusy_every ctx).mono fun _ => triggerFree_of_flagHead).bind fun _ => trivial
  | transfer kind addr buffer size => exact absurd rfl (hother kind addr buffer size)

lemma sequenceIndex_eq (ipcr1 : Word) :
    sequenceIndex ipcr1 = (ipcr1SeqIndex.read ipcr1).toNat := by
  rw [sequenceIndex, Field.toNat_read, BitVec.toNat_and, BitVec.toNat_ushiftRight,
    Nat.shiftRight_eq_div_pow]
  exact Nat.and_two_pow_sub_one_eq_mod _ 8

/-- The index in `IPCR1` is that of the descriptor. -/
lemma sequenceIndex_configValue (kind : Transfer) (addr : Word) (buffer : Nat)
    (size : BitVec 64) :
    sequenceIndex (configValue (kind.descriptor addr buffer size)) = kind.seqIndex.toNat := by
  have hkind : (kind.descriptor addr buffer size).cmdType ≠ .command := by
    cases kind <;> rintro ⟨⟩
  rw [sequenceIndex_eq, read_ipcr1SeqIndex hkind]
  rfl

/-! ## Installed sequences -/

/-- **When a triggered sequence is an installed one**: exactly when some table set up earlier
reaches behind its last byte. -/
theorem executes_installed_iff {ctx : QspiContext} {s : Bus} {ms : List (Made Bus DeviceAction)}
    {b : Stage Bus DeviceAction} (h : History (commands permits ctx s) ms b) {call : Call}
    (hcall : call ≠ .init ∧ call ≠ .deInit)
    {c : Config bus Bus DeviceAction (QspiContext × Option Int)}
    (hreach : (flexspi permits ctx.flexspi).Reach ⟨call.run b.ctx, b.state, b.trace⟩ c)
    (htrigger : triggers ctx.flexspi c.prog.head = true) :
    ∃ kind addr buffer size, call = .transfer kind addr buffer size ∧
      (Installed ctx.flexspi (sequenceIndex (c.state.dev.core.reg Reg.ipcr1)) c.trace ↔
        ∃ m ∈ ms, ∃ table len, m.call = .setupLut table len ∧
          16 * (kind.seqIndex.toNat + 1) ≤ len) := by
  have hstate := lutState_of_history h
  have hhead : c.prog.head ≠ .done := by
    intro hdone
    rw [hdone] at htrigger
    exact Bool.noConfusion htrigger
  by_cases htransfer : ∃ kind addr buffer size, call = .transfer kind addr buffer size
  · obtain ⟨kind, addr, buffer, size, rfl⟩ := htransfer
    refine ⟨kind, addr, buffer, size, rfl, ?_⟩
    -- the transfer itself has stored no byte of the LUT
    have hwrote : Wrote ctx.flexspi (fun k => ∃ m ∈ ms, m.Fills k) c.trace :=
      (hstate.within hcall (fun _ _ heq => Call.noConfusion heq) hreach).1
    rw [hstate.ctx_eq] at hreach
    have hcfg := (run_programmed kind ctx addr buffer size).guarantee trivial hreach hhead htrigger
    rw [hcfg, sequenceIndex_configValue]
    constructor
    · rintro ⟨-, hall⟩
      obtain ⟨m, hm, table, len, heq, hlen⟩ := (hwrote _).mp (hall 15 (by decide))
      exact ⟨m, hm, table, len, heq, by omega⟩
    · rintro ⟨m, hm, table, len, heq, hlen⟩
      have hfills : ∀ i < 16, m.Fills (16 * kind.seqIndex.toNat + i) := fun i hi =>
        ⟨table, len, heq, by omega⟩
      have hinside := hstate.inside m hm _ (hfills 15 (by decide))
      refine ⟨by omega, fun i hi => (hwrote _).mpr ⟨m, hm, hfills i hi⟩⟩
  · have hother : ∀ kind addr buffer size, call ≠ .transfer kind addr buffer size :=
      fun kind addr buffer size heq => htransfer ⟨kind, addr, buffer, size, heq⟩
    rw [hstate.ctx_eq] at hreach
    have hfree := every_reach (triggerFree_call hcall hother) hreach hhead
    exact Bool.noConfusion (htrigger.symm.trans hfree)

/-- A new process whose controller is powered up. -/
def powerUp : Stage Bus DeviceAction := ⟨readyContext, ⟨Controller.reset, fun _ => 0#8⟩, []⟩

/-- The 16 bytes of `test_lut` are set up. -/
def testLutPlan : List (Call × List (Tick DeviceAction)) :=
  [(.setupLut 0x40 testLutSize, List.replicate 36 .prog)]

lemma testLutPlan_allowed (b : Stage Bus DeviceAction) :
    ∀ x ∈ testLutPlan, (commands anyAction readyContext powerUp.state).Allowed b x.1 := by
  simp [testLutPlan, commands]

/-- `QSPI_Read` executes the sequence of `test_lut`. -/
theorem executes_installed_iff_read :
    ∃ ms b c, History (commands anyAction readyContext powerUp.state) ms b ∧
      (flexspi anyAction 4096).Reach
        ⟨(Call.transfer .read 0#32 0x100 4#64).run b.ctx, b.state, b.trace⟩ c ∧
      triggers 4096 c.prog.head = true ∧
      Installed 4096 (sequenceIndex (c.state.dev.core.reg Reg.ipcr1)) c.trace := by
  obtain ⟨ms, b, hhistory, htest⟩ := Setting.exists_history
    (w := commands anyAction readyContext powerUp.state) testLutPlan
    (fun ms b => decide (ms.map Made.call = [.setupLut 0x40 testLutSize]) &&
      ((flexspi anyAction 4096).run (List.replicate 15 .prog)
        ⟨(Call.transfer .read 0#32 0x100 4#64).run b.ctx, b.state, b.trace⟩).any
        fun c => triggers 4096 c.prog.head)
    rfl testLutPlan_allowed (by decide +kernel)
  obtain ⟨hcalls, hrun⟩ := (Bool.and_eq_true _ _).mp htest
  obtain ⟨c, hreach, htrigger⟩ := exists_reach_of_run _ hrun
  refine ⟨ms, b, c, hhistory, hreach, htrigger, ?_⟩
  obtain ⟨kind, addr, buffer, size, heq, hiff⟩ :=
    executes_installed_iff hhistory (by decide) hreach htrigger
  have hmem : Call.setupLut 0x40 testLutSize ∈ ms.map Made.call := by
    rw [of_decide_eq_true hcalls]
    exact List.mem_singleton_self _
  obtain ⟨m, hm, hcall⟩ := List.mem_map.mp hmem
  injection heq with hkind
  exact hiff.mpr ⟨m, hm, 0x40, testLutSize, hcall, by rw [← hkind]; decide⟩

/-- **After the table of `main`, `QSPI_ReadSample` executes a sequence nobody has installed.** -/
theorem readSample_executes_uninstalled :
    ¬ ∀ (permits : Permits) (ctx : QspiContext) (s : Bus) (ms : List (Made Bus DeviceAction))
      (b : Stage Bus DeviceAction), History (commands permits ctx s) ms b →
      ∀ call : Call, call ≠ .init ∧ call ≠ .deInit →
      ∀ c : Config bus Bus DeviceAction (QspiContext × Option Int),
        (flexspi permits ctx.flexspi).Reach ⟨call.run b.ctx, b.state, b.trace⟩ c →
        triggers ctx.flexspi c.prog.head = true →
        Installed ctx.flexspi (sequenceIndex (c.state.dev.core.reg Reg.ipcr1)) c.trace := by
  intro hevery
  obtain ⟨ms, b, hhistory, htest⟩ := Setting.exists_history
    (w := commands anyAction readyContext powerUp.state) testLutPlan
    (fun _ b => ((flexspi anyAction 4096).run (List.replicate 15 .prog)
        ⟨(Call.transfer .readSample 0#32 0x100 4#64).run b.ctx, b.state, b.trace⟩).any
        fun c => triggers 4096 c.prog.head &&
          !decide (Installed 4096 (sequenceIndex (c.state.dev.core.reg Reg.ipcr1)) c.trace))
    rfl testLutPlan_allowed (by decide +kernel)
  obtain ⟨c, hreach, hc⟩ := exists_reach_of_run _ htest
  obtain ⟨htrigger, hnot⟩ := (Bool.and_eq_true _ _).mp hc
  have hinstalled := hevery anyAction readyContext powerUp.state ms b hhistory
    (.transfer .readSample 0#32 0x100 4#64) (by decide) c hreach htrigger
  have hfails : ¬ Installed 4096 (sequenceIndex (c.state.dev.core.reg Reg.ipcr1)) c.trace := by
    simpa only [Bool.not_eq_true', decide_eq_false_iff_not] using hnot
  exact hfails hinstalled

end QspiTool
