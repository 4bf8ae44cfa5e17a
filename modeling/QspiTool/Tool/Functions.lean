import QspiTool.Tool.Honest

/-!
# The functions of the tool are honest

One lemma for each function of `Tool/Logged.lean`: it is the function of the driver with its log,
and it leaves the context as the operations say.
-/

namespace QspiTool

open Words Interaction Machine Oracle View

variable {T : Terms} {P : View → Prop} {α : Type} {fspi : Nat}

/-! ## Accesses -/

lemma routine_orReg (a : Nat) (m : Word) : (orReg a m).Every Routine :=
  orReg_every trivial fun _ => trivial

lemma routine_of_flagHead {d : Head bus} (h : FlagHead fspi d) : Routine d := by
  cases h <;> trivial

lemma routine_of_transferHead {d : Head bus} (h : TransferHead fspi d) : Routine d := by
  cases h with
  | flag h => exact routine_of_flagHead h
  | loadControl h => trivial
  | storeControl v h => trivial
  | write h => cases h with
    | flag h => exact routine_of_flagHead h
    | wait => trivial
    | chunk h => cases h <;> trivial
  | read h => cases h with
    | flag h => exact routine_of_flagHead h
    | wait => trivial
    | chunk h => cases h <;> trivial
  | done => trivial

lemma orReg_honest (hP : Lasting P) (a : Nat) (m : Word) :
    Honest T P (liftM (orReg a m)) (orReg a m) fun _ => P :=
  honest_routine hP (routine_orReg a m)

lemma store_honest (hP : Lasting P) (a : Nat) (v : Word) :
    Honest T P (liftM (store a v)) (store a v) fun _ w =>
      P w ∧ w.last = some ⟨.store a v, ()⟩ :=
  honest_access hP (.store a v) trivial

lemma load_honest (hP : Lasting P) (a : Nat) :
    Honest T P (liftM (load a)) (load a) fun v w => P w ∧ w.last = some ⟨.load a, v⟩ :=
  honest_access hP (.load a) trivial

/-! ## `QSPI_Init` -/

/-- The FlexSPI bank is not mapped yet. -/
structure BankUnmapped (ctx : QspiContext) (w : View) : Prop where
  knows : Knows ctx w
  down : ctx.initDone = false
  unattached : w.attached = false
  page : w.pageSize = ctx.pageSize
  whole : ctx.pageSize % 4096 = 0

/-- The FlexSPI bank is mapped. -/
structure BankMapped (ctx : QspiContext) (w : View) : Prop where
  initDone : w.initDone = true
  flexspi : w.registers .flexspi = ctx.flexspi
  page : w.pageSize = ctx.pageSize
  whole : ctx.pageSize % 4096 = 0

lemma lasting_bankUnmapped (ctx : QspiContext) : Lasting (BankUnmapped ctx) := fun _ _ h =>
  ⟨lasting_knows ctx _ _ h.knows, h.down, h.unattached, h.page, h.whole⟩

lemma lasting_bankMapped (ctx : QspiContext) : Lasting (BankMapped ctx) := fun _ _ h =>
  ⟨h.initDone, h.flexspi, h.page, h.whole⟩

/-- Another bank is mapped, or not. -/
lemma BankMapped.step {ctx ctx' : QspiContext} {w : View} (h : BankMapped ctx w) (bank : Bank)
    (hbank : bank ≠ .flexspi) (hflexspi : ctx'.flexspi = ctx.flexspi)
    (hpage : ctx'.pageSize = ctx.pageSize) (fd : Int) (map : Nat) :
    BankMapped ctx' (w.step ⟨.mmap (bank.size ctx.pageSize) fd
      (pageBase bank.base ctx.pageSize), map⟩) := by
  have hsize : bank.size ctx.pageSize ≠ Reg.size := by
    have hwhole := h.whole
    cases bank with
    | flexspi => exact absurd rfl hbank
    | ccm => exact (by decide : pageSize64K ≠ Reg.size)
    | iomuxc =>
      simp only [Bank.size, Reg.size]
      omega
  by_cases hmap : map = mapFailed
  · subst hmap
    rw [step_failed]
    exact ⟨h.initDone, h.flexspi.trans hflexspi.symm, h.page.trans hpage.symm, hpage ▸ h.whole⟩
  · simp only [View.step, if_neg hmap, Bank.size.eq_1 w.pageSize, if_neg hsize]
    have hkept : ∀ b : Bank, b ≠ .flexspi → BankMapped ctx' { w.mapped b map with
        last := some ⟨.mmap (bank.size ctx.pageSize) fd (pageBase bank.base ctx.pageSize), map⟩ } :=
      fun b hb => ⟨h.initDone,
        (w.mapped_registers_ne hb.symm map).trans (h.flexspi.trans hflexspi.symm),
        h.page.trans hpage.symm, hpage ▸ h.whole⟩
    split
    · exact hkept .ccm (by decide)
    · exact hkept .iomuxc (by decide)

lemma requestFlexspiMemory_honest (ctx : QspiContext) :
    Honest T (BankUnmapped ctx) (Logged.requestFlexspiMemory ctx) (requestFlexspiMemory ctx)
      fun r w => (r.2 ≠ 0 → BankUnmapped r.1 w ∧ Message.requestFailed.Fits w) ∧
        (r.2 = 0 → BankMapped r.1 w ∧ Message.iomuxStarts.Fits w) := by
  refine Honest.mapMemory_bind .flexspi (fun w hw => hw.page) rfl ?_ fun map hmap => ?_
  · refine honest_pure ?_
    rintro _ ⟨w, hw, rfl⟩
    refine ⟨fun _ => ?_, fun h => absurd (show (-1 : Int) = 0 from h) (by decide)⟩
    rw [step_failed]
    refine ⟨⟨⟨hw.knows.initDone, hw.knows.flexspi⟩, hw.down, hw.unattached, hw.page, hw.whole⟩,
      ctx.fd, ?_⟩
    change some _ = some _
    rw [hw.page]
    rfl
  · refine honest_pure ?_
    rintro _ ⟨w, hw, rfl⟩
    refine ⟨fun h => absurd rfl h, fun _ => ?_⟩
    simp only [View.step, if_neg hmap, Bank.size, if_true]
    refine ⟨⟨rfl, ?_, hw.page, hw.whole⟩, ctx.fd, map, hmap, ?_⟩
    · exact (w.mapped_registers .flexspi map).trans (by rw [hw.page]; rfl)
    · exact congrArg (fun p => some (⟨.mmap Reg.size ctx.fd (pageBase flexspiBase p), map⟩ :
        Deed bus)) hw.page.symm

lemma clockInit_honest (ctx : QspiContext) (mux pre post : Word) :
    Honest T (BankMapped ctx) (Logged.clockInit ctx mux pre post) (clockInit ctx mux pre post)
      BankMapped := by
  refine .check_bind fun _ => ?_
  refine Honest.mapMemory_bind .ccm (fun w hw => hw.page) rfl ?_ fun map hmap => ?_
  · refine honest_pure ?_
    rintro _ ⟨w, hw, rfl⟩
    refine hw.step .ccm (by decide) ?_ ?_ _ _ <;> rfl
  · -- from here on the CCM registers are where they have been mapped
    have hP : Lasting fun w => BankMapped { ctx with mapCcm := map } w ∧
        w.registers .ccm = map + pageOffset ccmBase ctx.pageSize := fun w last h =>
      ⟨lasting_bankMapped _ w last h.1, h.2⟩
    have hphys : ∀ off (w : View), (BankMapped { ctx with mapCcm := map } w ∧
        w.registers .ccm = map + pageOffset ccmBase ctx.pageSize) →
        ∃ bank off', ccmBase + off = Bank.base bank + off' ∧
          map + pageOffset ccmBase ctx.pageSize + off = w.registers bank + off' :=
      fun off w h => ⟨.ccm, off, rfl, by rw [h.2]⟩
    refine Honest.pre (P := fun w => BankMapped { ctx with mapCcm := map } w ∧
      w.registers .ccm = map + pageOffset ccmBase ctx.pageSize) ?_ ?_
    · refine ((store_honest hP _ _).post fun _ _ h => h.1).bind fun _ =>
        Honest.logRegister_bind hP (hphys _) fun _ => ?_
      refine ((store_honest hP _ _).post fun _ _ h => h.1).bind fun _ =>
        (orReg_honest hP _ _).bind fun _ => ?_
      exact Honest.logRegister_bind hP (hphys _) fun _ => honest_pure fun w h => h.1
    · rintro _ ⟨w, hw, rfl⟩
      refine ⟨?_, ?_⟩
      · refine hw.step .ccm (by decide) ?_ ?_ _ _ <;> rfl
      · have hsize : Bank.ccm.size ctx.pageSize ≠ Reg.size := (by decide : pageSize64K ≠ Reg.size)
        have hccm : Bank.ccm.size ctx.pageSize = Bank.ccm.size w.pageSize ∧
            pageBase Bank.ccm.base ctx.pageSize = pageBase ccmBase w.pageSize :=
          ⟨rfl, by rw [hw.page]; rfl⟩
        simp only [View.step, if_neg hmap, Bank.size.eq_1 w.pageSize, if_neg hsize, if_pos hccm]
        exact (w.mapped_registers .ccm map).trans (by rw [hw.page]; rfl)

lemma setPads_routine (iomux : Nat) (pads : List Nat) : (setPads iomux pads).Every Routine := by
  induction pads with
  | nil => trivial
  | cons pad pads ih => exact ⟨trivial, fun _ => ih⟩

lemma iomuxInit_honest (ctx : QspiContext) :
    Honest T (BankMapped ctx) (Logged.iomuxInit ctx) (iomuxInit ctx) BankMapped := by
  refine .check_bind fun _ => ?_
  refine Honest.mapMemory_bind .iomuxc (fun w hw => hw.page) rfl ?_ fun map hmap => ?_
  · refine honest_pure ?_
    rintro _ ⟨w, hw, rfl⟩
    refine hw.step .iomuxc (by decide) ?_ ?_ _ _ <;> rfl
  · refine Honest.pre (P := BankMapped { ctx with mapIomux := map }) ?_ ?_
    · exact (honest_routine (lasting_bankMapped _) (setPads_routine _ _)).bind fun _ =>
        honest_pure fun _ => id
    · rintro _ ⟨w, hw, rfl⟩
      refine hw.step .iomuxc (by decide) ?_ ?_ _ _ <;> rfl

/-- `QSPI_Init` has come to its end. -/
structure Begun (ctx : QspiContext) (w : View) : Prop where
  knows : Knows ctx w
  unattached : ctx.initDone = false → w.attached = false

lemma bringUp_honest (ctx : QspiContext) :
    Honest T (fun w => BankMapped ctx w ∧ Message.iomuxStarts.Fits w) (Logged.bringUp ctx)
      (bringUp ctx) Begun := by
  refine .say_bind rfl (fun w h => h.2) ?_
  refine ((iomuxInit_honest ctx).pre fun w h => h.1).bind fun ctx => ?_
  refine .say_bind rfl (fun _ _ => trivial) ?_
  refine (orReg_honest (lasting_bankMapped ctx) _ _).bind fun _ => ?_
  refine (clockInit_honest ctx _ _ _).bind fun ctx => ?_
  have hP := lasting_bankMapped ctx
  refine (orReg_honest hP _ _).bind fun _ => ?_
  refine ((store_honest hP _ _).post fun _ _ h => h.1).bind fun _ => ?_
  refine ((load_honest hP _).post fun _ _ h => h.1).bind fun mcr0 => ?_
  refine ((store_honest hP _ _).post fun _ _ h => h.1).bind fun _ => ?_
  refine honest_pure fun w h => ⟨⟨h.initDone, h.flexspi⟩, ?_⟩
  rintro ⟨⟩

lemma qspiInit_honest (ctx : QspiContext) :
    Honest T (Knows ctx) (Logged.qspiInit ctx) (qspiInit ctx) Begun := by
  refine (honest_op .pageSize (fun _ => id) (Q := fun p w => w.initDone = false ∧
    w.attached = false ∧ w.pageSize = (show Nat from p) ∧ w.registers .flexspi = ctx.flexspi)
    fun p w h => ⟨rfl, rfl, rfl, h.flexspi⟩).bind fun pageSize => ?_
  refine .check_bind fun _ => .check_bind fun hwhole => ?_
  refine .say_bind rfl (fun _ _ => trivial) ?_
  refine Honest.pre (P := fun w => BankUnmapped
    { ctx with fd := -1, pageSize := pageSize, initDone := false } w) ?_
    fun w h => ⟨⟨h.1, h.2.2.2⟩, rfl, h.2.1, h.2.2.1, hwhole⟩
  refine Honest.openMem_bind (lasting_bankUnmapped _) (fun fd _ => pure _)
    (fun fd hfd => if_pos hfd) ?_ ?_
  · intro fd hfd
    rw [if_pos (by exact hfd)]
    exact honest_pure fun w h => ⟨⟨h.knows.initDone, h.knows.flexspi⟩, fun _ => h.unattached⟩
  · intro fd hfd
    rw [if_neg (Int.not_lt.mpr hfd), if_neg (Int.not_lt.mpr hfd)]
    refine .say_bind rfl (fun w h => ⟨fd, hfd, h.2⟩) ?_
    refine ((requestFlexspiMemory_honest _).pre fun w h => ?_).bind fun r => ?_
    · exact ⟨⟨h.1.knows.initDone, h.1.knows.flexspi⟩, h.1.down, h.1.unattached, h.1.page,
        h.1.whole⟩
    obtain ⟨ctx', result⟩ := r
    by_cases hresult : result ≠ 0
    · simp only [if_pos hresult]
      refine .say_bind rfl (fun w h => (h.1 hresult).2) ?_
      refine (honest_op (.close _) (fun _ => id) (Q := fun _ w => BankUnmapped ctx' w)
        fun _ w h => ?_).bind fun _ => ?_
      · have hdown := (h.1 hresult).1
        exact ⟨⟨hdown.down.symm, hdown.knows.flexspi⟩, hdown.down, hdown.unattached, hdown.page,
          hdown.whole⟩
      · exact honest_pure fun w h => ⟨⟨h.knows.initDone, h.knows.flexspi⟩, fun _ => h.unattached⟩
    · simp only [if_neg hresult]
      exact (bringUp_honest ctx').pre fun w h => h.2 (not_not.mp hresult)

/-! ## The other calls -/

lemma copyBytes_routine (dst src n i : Nat) : (copyBytes dst src n i).Every Routine := by
  induction n generalizing i with
  | zero => trivial
  | succ n ih => exact ⟨trivial, fun b => ⟨trivial, fun _ => ih (i + 1)⟩⟩

lemma qspiSetupLut_honest {ctx : QspiContext} (hP : Lasting P) (hknows : ∀ w, P w → Knows ctx w)
    (lut len : Nat) : Honest T P (Logged.qspiSetupLut ctx lut len) (qspiSetupLut ctx lut len)
      fun _ => P := by
  refine .check_bind fun _ => .check_bind fun _ => .check_bind fun _ => ?_
  refine .say_bind rfl (fun _ _ => trivial) ?_
  have hunlock : (unlockLut ctx.flexspi).Every Routine :=
    ⟨trivial, fun _ => ⟨trivial, fun _ => trivial⟩⟩
  refine (honest_routine hP hunlock).bind fun _ => ?_
  refine (honest_routine hP (copyBytes_routine _ lut len 0)).bind fun _ => ?_
  rw [lockLut, lift_bind]
  refine Honest.bind_ret (Q := fun _ w => P w ∧
    w.last = some ⟨.store (ctx.flexspi + Reg.lutcr) lockerLock, ()⟩) ?_ fun _ => ?_
  · exact ((store_honest hP _ _).post fun _ _ h => h.1).bind fun _ => store_honest hP _ _
  · refine (honest_say rfl fun w h => ?_).post fun _ _ h => h.1
    exact h.2.trans (by rw [(hknows w h.1).flexspi])

/-- A register of the FlexSPI bank. -/
lemma flexspi_phys {ctx : QspiContext} (off : Nat) (w : View) (h : Knows ctx w) :
    ∃ bank off', flexspiBase + off = Bank.base bank + off' ∧
      ctx.flexspi + off = w.registers bank + off' :=
  ⟨.flexspi, off, rfl, by rw [h.flexspi]⟩

lemma qspiDeInit_honest (ctx : QspiContext) :
    Honest T (Knows ctx) (Logged.qspiDeInit ctx) (qspiDeInit ctx) Knows := by
  have hunmap : ∀ a size, Honest T (Knows ctx) (liftM (munmap a size)) (munmap a size)
      fun _ => Knows ctx :=
    fun a size => honest_op (.munmap a size) (fun _ => id) fun _ w h => ⟨h.initDone, h.flexspi⟩
  unfold Logged.qspiDeInit qspiDeInit
  by_cases hinit : ctx.initDone = false
  · rw [if_pos hinit, if_pos hinit]
    exact .say_bind rfl (fun w h => h.initDone.trans hinit) (honest_pure fun _ => id)
  · rw [if_neg hinit, if_neg hinit]
    refine (hunmap _ _).bind fun _ => (hunmap _ _).bind fun _ => (hunmap _ _).bind fun _ => ?_
    refine (hunmap _ _).bind fun _ => ?_
    refine (honest_op (.close ctx.fd) (fun _ => id) (Q := fun _ w => w.initDone = false ∧
      w.registers .flexspi = ctx.flexspi ∧ w.last = some ⟨.close ctx.fd, ()⟩)
      fun _ w h => ⟨rfl, h.flexspi, rfl⟩).bind fun _ => ?_
    exact .say_bind rfl (fun w h => ⟨ctx.fd, h.2.2⟩) (honest_pure fun w h => ⟨h.1, h.2.1⟩)

/-! ## Transfers -/

lemma setupCommand_honest (hP : Lasting P) (xfer : FlexspiTransfer) :
    Honest T P (Logged.setupCommand fspi xfer) (setupCommand fspi xfer) fun _ => P := by
  have hstore : ∀ a v, Honest T P (liftM (store a v)) (store a v) fun _ => P := fun a v =>
    (store_honest hP a v).post fun _ _ h => h.1
  refine (orReg_honest hP _ _).bind fun _ => ?_
  refine (honest_routine hP (clearFlags_every.mono fun d hd => routine_of_flagHead hd)).bind
    fun _ => ?_
  refine (hstore _ _).bind fun _ => (orReg_honest hP _ _).bind fun _ => ?_
  refine (orReg_honest hP _ _).bind fun _ => ?_
  cases xfer.cmdType with
  | command => exact hstore _ _
  | _ => exact .say_bind rfl (fun _ _ => trivial) (hstore _ _)

lemma moveData_honest (hP : Lasting P) (xfer : FlexspiTransfer) :
    Honest T P (Logged.moveData fspi xfer) (moveData fspi xfer) fun _ => P := by
  have hdata : ∀ {p : Driver Int} {c : Prop},
      p.Every (fun d => DataHead fspi d ∨ d = .abort ∧ c) → p.Every Routine := by
    intro p c hp
    refine hp.mono fun d hd => ?_
    rcases hd with hd | ⟨rfl, -⟩
    · exact routine_of_transferHead hd.transfer
    · trivial
  unfold Logged.moveData moveData
  cases xfer.cmdType with
  | command => exact honest_routine hP (p := .abort) trivial
  | read =>
    refine .say_bind rfl (fun _ _ => trivial) ?_
    refine (honest_routine hP (hdata (readBlocking_data _ _))).bind_ret fun r => ?_
    exact .say_bind rfl (fun _ _ => trivial) (honest_pure fun _ => id)
  | write => exact honest_routine hP (hdata (writeBlocking_data _ _))
  | config => exact honest_routine hP (hdata (writeBlocking_data _ _))

lemma transferBlocking_honest (hP : Lasting P) (xfer : FlexspiTransfer) :
    Honest T P (Logged.transferBlocking fspi xfer) (transferBlocking fspi xfer) fun _ => P := by
  refine (setupCommand_honest hP xfer).bind fun _ => (orReg_honest hP _ _).bind fun _ => ?_
  refine (moveData_honest hP xfer).bind fun result => ?_
  refine .say_bind rfl (fun _ _ => trivial) ?_
  exact honest_routine hP ((awaitCommand_data result).mono fun d hd =>
    routine_of_transferHead hd.transfer)

lemma runTransfer_honest (kind : Transfer) (ctx : QspiContext) (addr : Word) (buffer : Nat)
    (size : BitVec 64) : Honest T (Knows ctx) (Logged.runTransfer kind ctx addr buffer size)
      (loggedTransfer ctx.flexspi (kind.descriptor addr buffer size)) fun _ => Knows ctx := by
  have hP := lasting_knows ctx
  refine .say_bind rfl (fun _ _ => trivial) ((transferBlocking_honest hP _).bind fun ret => ?_)
  exact Honest.logRegister_bind hP (flexspi_phys _) fun _ =>
    Honest.logRegister_bind hP (flexspi_phys _) fun _ =>
      Honest.logRegister_bind hP (flexspi_phys _) fun _ => honest_pure fun _ => id

/-- No transfer fails. -/
lemma loggedTransfer_returns (fspi : Nat) (xfer : FlexspiTransfer) :
    (loggedTransfer fspi xfer).Returns (· = 0) := by
  have hmove : (moveData fspi xfer).Returns (· = 0) := by
    have hwrite : (writeBlocking fspi xfer.data xfer.dataSize.toNat).Returns (· = 0) :=
      .of_bind fun _ => .of_bind fun _ => .of_bind fun _ => rfl
    have hread : (readBlocking fspi xfer.data xfer.dataSize.toNat).Returns (· = 0) :=
      .of_bind fun _ => .of_bind fun _ => .of_bind fun _ => .of_bind fun _ => rfl
    unfold moveData
    cases xfer.cmdType with
    | write => exact hwrite
    | config => exact hwrite
    | read => exact hread
    | command => trivial
  have htransfer : (transferBlocking fspi xfer).Returns (· = 0) := by
    refine .of_bind fun _ => .of_bind fun _ => hmove.bind ?_
    rintro r rfl
    rw [awaitCommand, if_pos rfl]
    exact .of_bind fun _ => .of_bind fun _ => rfl
  refine htransfer.bind ?_
  rintro r rfl
  exact .of_bind fun _ => .of_bind fun _ => .of_bind fun _ => rfl

/-! ## Sequences of calls -/

end QspiTool
