import QspiTool.Device.Rules
import QspiTool.Driver.Footprint

/-!
# The rule for invariants of the flags

Between the trigger and the final wait a transfer touches `INTR` in two ways only: it polls a
FIFO flag, and it reads the register and writes it back with one more bit (`clear_flags` adds
none).  Everything else it does is away from `INTR` and `IPCMD`.  So an assertion about flags
that survives these two and the accesses away from them survives the whole data phase:
`FlagInvariant.moveData`.
-/

namespace QspiTool

open Words Interaction Machine

/-! ## Accesses away from the flags -/

/-- The access touches neither `INTR` nor `IPCMD`. -/
def Away (fspi : Nat) : Access → Prop
  | .load a => a ≠ fspi + Reg.intr
  | .store a _ => a ≠ fspi + Reg.intr ∧ a ≠ fspi + Reg.ipcmd
  | .read8 _ | .read32 _ | .write8 _ _ | .write32 _ _ => True
  | _ => False

/-- The program makes an access away from the flags. -/
def AwayHead (fspi : Nat) : Head bus → Prop
  | .call o => Away fspi o
  | _ => False

variable {fspi : Nat}

/-- An access away from the flags changes neither the flags nor whether a command runs. -/
lemma exec_away {permits : Permits} {o : Access} (h : Away fspi o) (s : Bus) :
    ((flexspi permits fspi).exec o s).2.dev.intr = s.dev.intr ∧
      ((flexspi permits fspi).exec o s).2.dev.running = s.dev.running := by
  cases o with
  | load a => exact ⟨rfl, rfl⟩
  | read8 a => exact ⟨rfl, rfl⟩
  | read32 a => exact ⟨rfl, rfl⟩
  | write8 a b => exact ⟨rfl, rfl⟩
  | write32 a v => exact ⟨rfl, rfl⟩
  | store a v =>
    obtain ⟨h₁, h₂⟩ := h
    simp only [Reg.intr, Reg.ipcmd] at h₁ h₂
    have hintr : a - fspi ≠ Reg.intr := by simp only [Reg.intr]; omega
    have hcmd : a - fspi ≠ Reg.ipcmd := by simp only [Reg.ipcmd]; omega
    simp [flexspi, Bus.exec, Controller.store, hintr, hcmd]
  | store8 a b => exact h.elim
  | openMem => exact h.elim
  | close fd => exact h.elim
  | mmap size fd offset => exact h.elim
  | munmap a size => exact h.elim
  | pageSize => exact h.elim

lemma away_load {off : Nat} (h : off ≠ Reg.intr) : AwayHead fspi (.call (.load (fspi + off))) :=
  fun heq => h (Nat.add_left_cancel heq)

lemma away_store {off : Nat} (v : Word) (h : off ≠ Reg.intr) (h' : off ≠ Reg.ipcmd) :
    AwayHead fspi (.call (.store (fspi + off) v)) :=
  ⟨fun heq => h (Nat.add_left_cancel heq), fun heq => h' (Nat.add_left_cancel heq)⟩

lemma away_orReg {off : Nat} (m : Word) (h : off ≠ Reg.intr) (h' : off ≠ Reg.ipcmd) :
    (orReg (fspi + off) m).Every (AwayHead fspi) :=
  orReg_every (away_load h) fun v => away_store v h h'

lemma away_of_fill {bound : Nat} {d : Head bus} (h : FillHead fspi bound d) :
    AwayHead fspi d := by
  cases h with
  | read32 a => trivial
  | read8 a => trivial
  | @fill i v hi =>
    refine away_store v ?_ ?_
    · simp only [Reg.tfdr, Reg.intr]
      omega
    · simp only [Reg.tfdr, Reg.ipcmd]
      omega

lemma away_of_fetch {bound : Nat} {d : Head bus} (h : FetchHead fspi bound d) :
    AwayHead fspi d := by
  cases h with
  | @fetch i hi =>
    refine away_load ?_
    simp only [Reg.rfdr, Reg.intr]
    omega
  | write32 a v => trivial
  | write8 a b => trivial

/-- `clear_flags` behind its store to `INTR`. -/
def clearStatus (fspi : Nat) : Driver Unit := do
  let sts0 ← load (fspi + Reg.sts0)
  store (fspi + Reg.sts0) sts0
  let sts1 ← load (fspi + Reg.sts1)
  store (fspi + Reg.sts1) sts1

lemma clearFlags_eq (fspi : Nat) :
    clearFlags fspi = orReg (fspi + Reg.intr) 0#32 >>= fun _ => clearStatus fspi := by
  simp only [clearFlags, orReg, clearStatus, LawfulMonad.bind_assoc, BitVec.or_zero]

lemma clearStatus_away : (clearStatus fspi).Every (AwayHead fspi) :=
  (load_every (away_load (by decide))).bind fun x =>
    (store_every (away_store x (by decide) (by decide))).bind fun _ =>
      (load_every (away_load (by decide))).bind fun y =>
        store_every (away_store y (by decide) (by decide))

/-- `setupCommand` behind its `clear_flags`. -/
def programCommand (fspi : Nat) (xfer : FlexspiTransfer) : Driver Unit := do
  store (fspi + Reg.ipcr0) xfer.deviceAddress
  orReg (fspi + Reg.iptxfcr) 1#32
  orReg (fspi + Reg.iprxfcr) 1#32
  store (fspi + Reg.ipcr1) (configValue xfer)

lemma setupCommand_eq (fspi : Nat) (xfer : FlexspiTransfer) :
    setupCommand fspi xfer = orReg (fspi + Reg.flshcr2 xfer.port.index) (bit 31) >>= fun _ =>
      clearFlags fspi >>= fun _ => programCommand fspi xfer := rfl

/-- The set-up and the trigger of a command. -/
def startCommand (fspi : Nat) (xfer : FlexspiTransfer) : Driver Unit := do
  setupCommand fspi xfer
  orReg (fspi + Reg.ipcmd) 1#32

lemma transferBlocking_eq (fspi : Nat) (xfer : FlexspiTransfer) :
    transferBlocking fspi xfer =
      startCommand fspi xfer >>= fun _ => moveData fspi xfer >>= awaitCommand fspi := by
  simp only [transferBlocking, startCommand, LawfulMonad.bind_assoc]

lemma programCommand_away (xfer : FlexspiTransfer) :
    (programCommand fspi xfer).Every (AwayHead fspi) :=
  (store_every (away_store _ (by decide) (by decide))).bind fun _ =>
    (away_orReg _ (by decide) (by decide)).bind fun _ =>
      (away_orReg _ (by decide) (by decide)).bind fun _ =>
        store_every (away_store _ (by decide) (by decide))

lemma away_flshcr2 (port : FlexspiPort) :
    (orReg (fspi + Reg.flshcr2 port.index) (bit 31)).Every (AwayHead fspi) :=
  away_orReg _ (by cases port <;> decide) (by cases port <;> decide)

/-! ## The rule -/

variable {permits : Permits} {G : Head bus → Assertion bus Bus DeviceAction}
  {J : Assertion bus Bus DeviceAction}

/-- An assertion that the accesses away from the flags keep. -/
structure AwayInvariant (permits : Permits) (fspi : Nat)
    (G : Head bus → Assertion bus Bus DeviceAction) (J : Assertion bus Bus DeviceAction) :
    Prop where
  stable : (flexspi permits fspi).Stable J
  away : ∀ o s t, Away fspi o → J s t → G (.call o) s t ∧
    J ((flexspi permits fspi).exec o s).2 (t ++ [.call o ((flexspi permits fspi).exec o s).1])

/-- An assertion that the waits for FIFO flags and the rewrites of `INTR` keep as well. -/
structure FlagInvariant (permits : Permits) (fspi : Nat)
    (G : Head bus → Assertion bus Bus DeviceAction) (J : Assertion bus Bus DeviceAction) : Prop
    extends AwayInvariant permits fspi G J where
  wait : ∀ flag, flag = txEmpty ∨ flag = rxWatermarkFlag →
    (flexspi permits fspi).Triple G J (waitBit (fspi + Reg.intr) flag) fun _ => J
  rewrite : ∀ m : Word, m.getLsbD cmdDone = false → m.getLsbD cmdError = false →
    (flexspi permits fspi).Triple G J (orReg (fspi + Reg.intr) m) fun _ => J

lemma AwayInvariant.keeps {α : Type} (h : AwayInvariant permits fspi G J) {p : Driver α}
    (hp : p.Every (AwayHead fspi)) : (flexspi permits fspi).Triple G J p fun _ => J := by
  intro s t hs
  induction p generalizing s t with
  | ret a => exact fun _ _ hd => h.stable.drift hd hs
  | abort => exact hp.elim
  | poll w k ih => exact hp.1.elim
  | call o k ih =>
    intro s' t' hd
    obtain ⟨hG, hJ⟩ := h.away o s' t' hp.1 (h.stable.drift hd hs)
    exact ⟨hG, ih _ (hp.2 _) _ _ hJ⟩

namespace FlagInvariant

lemma clearFlags (h : FlagInvariant permits fspi G J) :
    (flexspi permits fspi).Triple G J (clearFlags fspi) fun _ => J := by
  rw [clearFlags_eq]
  exact Triple.bind (h.rewrite 0#32 (by decide) (by decide)) fun _ => h.keeps clearStatus_away

lemma writeLoop (h : FlagInvariant permits fspi G J) (watermark : Watermark) (buffer size : Nat) :
    (flexspi permits fspi).Triple G J (writeLoop fspi watermark buffer size) fun _ => J := by
  induction size using Nat.strongRecOn generalizing buffer with
  | ind size ih =>
    rw [QspiTool.writeLoop]
    split <;> rename_i hsize
    · exact Triple.ret h.stable fun _ _ => id
    · refine Triple.bind ?_ fun b => ih _ (writeRest_lt watermark hsize) b
      refine Triple.bind (h.wait txEmpty (.inl rfl)) fun _ => Triple.bind h.clearFlags fun _ => ?_
      have hchunk : (writeChunk fspi watermark buffer size).Every (AwayHead fspi) :=
        (writeChunk_every watermark buffer size).mono fun _ => away_of_fill
      refine Triple.bind (h.keeps hchunk) fun b => ?_
      exact Triple.bind (h.rewrite _ (by decide) (by decide)) fun _ =>
        Triple.ret h.stable fun _ _ => id

lemma readLoop (h : FlagInvariant permits fspi G J) (watermark : Watermark) (buffer size : Nat) :
    (flexspi permits fspi).Triple G J (readLoop fspi watermark buffer size) fun _ => J := by
  induction size using Nat.strongRecOn generalizing buffer with
  | ind size ih =>
    rw [QspiTool.readLoop]
    split <;> rename_i hsize
    · exact Triple.ret h.stable fun _ _ => id
    · refine Triple.bind ?_ fun b => ih _ (readRest_lt watermark hsize) b
      refine Triple.bind (h.wait rxWatermarkFlag (.inr rfl)) fun _ =>
        Triple.bind h.clearFlags fun _ => ?_
      have hchunk : (readChunk fspi watermark buffer size).Every (AwayHead fspi) :=
        (readChunk_every watermark buffer size).mono fun _ => away_of_fetch
      refine Triple.bind (h.keeps hchunk) fun b => ?_
      exact Triple.bind (h.rewrite _ (by decide) (by decide)) fun _ =>
        Triple.ret h.stable fun _ _ => id

/-- **The rule.**  An invariant of the flags is an invariant of the data phase. -/
theorem moveData (h : FlagInvariant permits fspi G J) (habort : ∀ s t, J s t → G .abort s t)
    (xfer : FlexspiTransfer) :
    (flexspi permits fspi).Triple G J (moveData fspi xfer) fun r s t => J s t ∧ r = 0 := by
  have hret : (flexspi permits fspi).Triple G J (pure (0 : Int)) fun r s t => J s t ∧ r = 0 :=
    Triple.ret (stable_and h.stable fun _ _ _ _ hr _ => hr) fun _ _ hs => ⟨hs, rfl⟩
  have hcheck : (flexspi permits fspi).Triple G J (check (xfer.dataSize.toNat ≤ 32 * 32))
      fun _ => J :=
    (Triple.check h.stable fun s t hs _ => habort s t hs).post fun _ _ _ hs => hs.1
  have hwrite : (flexspi permits fspi).Triple G J
      (writeBlocking fspi xfer.data xfer.dataSize.toNat) fun r s t => J s t ∧ r = 0 :=
    Triple.bind hcheck fun _ =>
      Triple.bind (h.keeps (load_every (away_load (by decide)))) fun v =>
        Triple.bind (h.writeLoop _ _ _) fun _ => hret
  have hread : (flexspi permits fspi).Triple G J
      (readBlocking fspi xfer.data xfer.dataSize.toNat) fun r s t => J s t ∧ r = 0 :=
    Triple.bind hcheck fun _ =>
      Triple.bind (h.keeps (load_every (away_load (by decide)))) fun v =>
        Triple.bind (h.keeps (away_orReg _ (by decide) (by decide))) fun _ =>
          Triple.bind (h.readLoop _ _ _) fun _ => hret
  unfold QspiTool.moveData
  cases xfer.cmdType with
  | write => exact hwrite
  | config => exact hwrite
  | read => exact hread
  | command => exact Triple.abort h.stable habort

end FlagInvariant

/-! ## The result of a transfer

`write_blocking` and `read_blocking` return 0 on every path, and nothing else sets the result, so a
transfer that returns, returns 0. -/

/-- Nothing is asked of the flags. -/
lemma flagInvariant_true :
    FlagInvariant permits fspi noGuarantee fun _ _ => True where
  stable := stable_true
  away _ _ _ _ _ := ⟨trivial, trivial⟩
  wait _ _ := Triple.any _
  rewrite _ _ _ := Triple.any _

lemma moveData_result (xfer : FlexspiTransfer) :
    (flexspi permits fspi).Triple noGuarantee J (moveData fspi xfer) fun r _ _ => r = 0 :=
  (flagInvariant_true.moveData (fun _ _ _ => trivial) xfer).conseq (fun _ _ _ => trivial)
    fun _ _ _ => And.right

lemma awaitCommand_result :
    (flexspi permits fspi).Triple noGuarantee J (awaitCommand fspi 0) fun r _ _ => r = 0 := by
  rw [awaitCommand, if_pos rfl]
  exact Triple.bind (Triple.any _) fun _ => Triple.bind (Triple.any _) fun _ =>
    Triple.ret (stable_const _) fun _ _ _ => rfl

/-- A transfer that returns, returns 0: no status register enters the result. -/
lemma transferBlocking_result (xfer : FlexspiTransfer) :
    (flexspi permits fspi).Triple noGuarantee J (transferBlocking fspi xfer)
      fun r _ _ => r = 0 := by
  refine Triple.bind (Triple.any _) fun _ => Triple.bind (Triple.any _) fun _ => ?_
  refine Triple.bind (moveData_result xfer) fun r => ?_
  rintro s t rfl
  exact awaitCommand_result (J := fun _ _ => True) s t trivial

/-- So does every public transfer. -/
lemma run_result (kind : Transfer) (ctx : QspiContext) (addr : Word) (buffer : Nat)
    (size : BitVec 64) :
    (flexspi permits ctx.flexspi).Triple noGuarantee (fun _ _ => True)
      (kind.run ctx addr buffer size) fun r _ _ => r = 0 := by
  have hlogged : ∀ xfer, (flexspi permits ctx.flexspi).Triple noGuarantee (fun _ _ => True)
      (loggedTransfer ctx.flexspi xfer) fun r _ _ => r = 0 := by
    intro xfer
    refine Triple.bind (transferBlocking_result xfer) fun r => ?_
    rintro s t rfl
    exact Triple.bind (P := fun _ _ => True) (Triple.any _) (fun _ => Triple.bind (Triple.any _)
      fun _ => Triple.bind (Triple.any _) fun _ => Triple.ret (stable_const _) fun _ _ _ => rfl)
      s t trivial
  cases kind with
  | write lutIndex => exact hlogged _
  | read => exact Triple.bind (Triple.any _) fun _ => hlogged _
  | readSample => exact Triple.bind (Triple.any _) fun _ => hlogged _

end QspiTool
