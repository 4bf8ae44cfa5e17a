import QspiTool.Driver.Footprint
import QspiTool.Interaction.Fair
import QspiTool.Properties.Initialized
import QspiTool.Properties.Leaks
import QspiTool.Properties.LiveMappings

/-!
# How the program ends

`main` from its start to its end, whatever `open`, `mmap` and the registers answer.  It ends as
soon as its waits are answered, in one of two ways: with exit status 0, when the FlexSPI registers
have been granted, or at an assertion.  The branch that returns `EXIT_FAILURE` is never taken: a
`QSPI_Init` that has failed leaves the pointer `NULL`, and `QSPI_SetupLut` asserts that it is not,
before `main` asks `QSPI_IsInitialized`.  Either way nothing of the kernel's is left behind.
-/

namespace QspiTool

open Words Interaction Machine

variable {page : PageSize} {cs : List Syscall} {α : Type}

/-- No assertion fails. -/
abbrev noAbort : Head bus → Assertion bus Process HostAction := fun d _ _ => d ≠ .abort

/-! ## No assertion of `QSPI_Init` fails -/

lemma call_ne_abort (o : Access) : (Head.call o : Head bus) ≠ .abort := by
  rintro ⟨⟩

lemma check_passes {P : Assertion bus Process HostAction} (hP : (process page).Stable P)
    {c : Prop} [Decidable c] (hc : c) :
    (process page).Triple noAbort P (check c) fun _ => P :=
  (Triple.check hP fun _ _ _ hn => absurd hc hn).post fun _ _ _ => And.left

lemma op_passes (o : Access) :
    (process page).Triple noAbort (fun _ _ => True) (Prog.op (S := bus) o) fun _ _ _ => True :=
  Triple.op stable_true (fun _ => stable_true) (fun _ _ _ => call_ne_abort o) fun _ _ _ => trivial

lemma every_passes {p : Driver α} (hp : p.Every (· ≠ .abort)) :
    (process page).Triple noAbort (fun _ _ => True) p fun _ _ _ => True :=
  Triple.of_every hp fun _ _ _ => id

/-- The kernel does not map the first page. -/
lemma mmapAnswer_ne_zero (s : Process) (size offset : Nat) :
    s.mmapAnswer page size offset ≠ 0 := by
  unfold Process.mmapAnswer
  split <;> rename_i hcan
  · simp only [Kernel.canMap, Bool.and_eq_true, decide_eq_true_eq] at hcan
    exact Nat.ne_of_gt hcan.1.1.1.2
  · decide

lemma mapMemory_passes {fd : Int} {base size pageSize : Nat} (hfd : 0 ≤ fd) (hsize : 0 < size)
    (hpage : 0 < pageSize) :
    (process page).Triple noAbort (fun _ _ => True) (mapMemory fd base size pageSize)
      fun r _ _ => r.1 ≠ 0 := by
  refine (check_passes stable_true hfd).bind fun _ => ?_
  refine (check_passes stable_true hsize).bind fun _ => ?_
  refine (check_passes stable_true hpage).bind fun _ => ?_
  refine Triple.bind (Q := fun (map : Nat) _ _ => map ≠ 0) ?_ fun map => ?_
  · exact Triple.op stable_true (fun _ => stable_const _) (fun _ _ _ => call_ne_abort _)
      fun s _ _ => mmapAnswer_ne_zero s size _
  · split
    · exact Triple.ret (stable_const _) fun _ _ => id
    · exact Triple.ret (stable_const _) fun _ _ => id

/-- The context asks the kernel with a descriptor and a page size. -/
def Asking (page : PageSize) (ctx : QspiContext) : Prop := 0 ≤ ctx.fd ∧ ctx.pageSize = page.bytes

lemma Asking.pos {ctx : QspiContext} (h : Asking page ctx) : 0 < ctx.pageSize := by
  rw [h.2]
  exact page.bytes_pos

lemma requestFlexspiMemory_passes {ctx : QspiContext} (hctx : Asking page ctx) :
    (process page).Triple noAbort (fun _ _ => True) (requestFlexspiMemory ctx) fun r _ _ =>
      (Asking page r.1 ∧ r.1.initDone = ctx.initDone) ∧ (r.2 = 0 → r.1.flexspi ≠ 0) := by
  refine (mapMemory_passes hctx.1 (by decide) hctx.pos).bind fun r => ?_
  obtain ⟨map, result⟩ := r
  dsimp only
  split
  · refine Triple.ret (stable_const _) fun _ _ _ => ⟨⟨hctx, rfl⟩, ?_⟩
    rintro ⟨⟩
  · refine Triple.ret (stable_const _) fun _ _ hmap => ⟨⟨hctx, rfl⟩, fun _ => ?_⟩
    change map + pageOffset flexspiBase ctx.pageSize ≠ 0
    omega

lemma setPads_passes (iomux : Nat) (pads : List Nat) :
    (setPads iomux pads).Every (· ≠ .abort) := by
  induction pads with
  | nil => trivial
  | cons pad pads ih => exact ⟨call_ne_abort _, fun _ => ih⟩

/-- What `iomux_init` and `clock_init` keep. -/
def SamePlace (ctx ctx' : QspiContext) : Prop :=
  ctx'.fd = ctx.fd ∧ ctx'.pageSize = ctx.pageSize ∧ ctx'.flexspi = ctx.flexspi

lemma iomuxInit_passes {ctx : QspiContext} (hctx : Asking page ctx) :
    (process page).Triple noAbort (fun _ _ => True) (iomuxInit ctx)
      fun ctx' _ _ => SamePlace ctx ctx' := by
  have hret : ∀ map : Nat, (process page).Triple noAbort (fun _ _ => True)
      (.ret { ctx with mapIomux := map } : Driver QspiContext)
      fun ctx' _ _ => SamePlace ctx ctx' :=
    fun map => Triple.ret (stable_const _) fun _ _ _ => ⟨rfl, rfl, rfl⟩
  refine (check_passes stable_true hctx.1).bind fun _ => ?_
  refine ((mapMemory_passes hctx.1 hctx.pos hctx.pos).post fun _ _ _ _ => trivial).bind fun r => ?_
  dsimp only
  split
  · exact hret r.1
  · exact (every_passes (setPads_passes _ _)).bind fun _ => hret r.1

lemma orReg_passes (a : Nat) (m : Word) : (orReg a m).Every (· ≠ .abort) :=
  orReg_every (call_ne_abort _) fun _ => call_ne_abort _

lemma clockInit_passes {ctx : QspiContext} (hctx : Asking page ctx) (mux pre post : Word) :
    (process page).Triple noAbort (fun _ _ => True) (clockInit ctx mux pre post)
      fun ctx' _ _ => SamePlace ctx ctx' := by
  have hret : ∀ map : Nat, (process page).Triple noAbort (fun _ _ => True)
      (.ret { ctx with mapCcm := map } : Driver QspiContext)
      fun ctx' _ _ => SamePlace ctx ctx' :=
    fun map => Triple.ret (stable_const _) fun _ _ _ => ⟨rfl, rfl, rfl⟩
  refine (check_passes stable_true hctx.1).bind fun _ => ?_
  refine ((mapMemory_passes hctx.1 (by decide) hctx.pos).post fun _ _ _ _ => trivial).bind
    fun r => ?_
  dsimp only
  split
  · exact hret r.1
  · refine (op_passes _).bind fun _ => (op_passes _).bind fun _ => (op_passes _).bind fun _ => ?_
    refine (every_passes (orReg_passes _ _)).bind fun _ => (op_passes _).bind fun _ => ?_
    exact hret r.1

lemma bringUp_passes {ctx : QspiContext} (hctx : Asking page ctx) (hne : ctx.flexspi ≠ 0) :
    (process page).Triple noAbort (fun _ _ => True) (bringUp ctx)
      fun ctx' _ _ => ctx'.flexspi ≠ 0 := by
  have hpass : ∀ (p : Driver Unit) (c : Prop), p.Every (· ≠ .abort) →
      (process page).Triple noAbort (fun _ _ => c) p fun _ _ _ => c :=
    fun p c hp s t hc => ((every_passes hp).post fun _ _ _ _ => hc) s t trivial
  refine (iomuxInit_passes hctx).bind fun ctx₁ => ?_
  refine (hpass _ (SamePlace ctx ctx₁) (orReg_passes _ _)).bind fun _ => ?_
  apply (Triple.of_pure (P := fun _ _ => True) ?_).pre fun _ _ hs => ⟨trivial, hs⟩
  rintro ⟨hfd, hpage, hflexspi⟩
  have hctx₁ : Asking page ctx₁ := ⟨by rw [hfd]; exact hctx.1, by rw [hpage]; exact hctx.2⟩
  refine (clockInit_passes hctx₁ _ _ _).bind fun ctx₂ => ?_
  refine (hpass _ (SamePlace ctx₁ ctx₂) (orReg_passes _ _)).bind fun _ => ?_
  apply (Triple.of_pure (P := fun _ _ => True) ?_).pre fun _ _ hs => ⟨trivial, hs⟩
  rintro ⟨-, -, hflexspi₂⟩
  refine (op_passes _).bind fun _ => (op_passes _).bind fun _ => (op_passes _).bind fun _ => ?_
  refine Triple.ret (stable_const _) fun _ _ _ => ?_
  change ctx₂.flexspi ≠ 0
  rwa [hflexspi₂, hflexspi]

/-- An initialised context points to its registers. -/
lemma qspiInit_passes (ctx : QspiContext) :
    (process page).Triple noAbort (fun _ _ => True) (qspiInit ctx)
      fun ctx' _ _ => ctx'.initDone = true → ctx'.flexspi ≠ 0 := by
  unfold qspiInit
  refine Triple.bind (Q := fun (size : Nat) _ _ => size = page.bytes) ?_ fun size => ?_
  · exact Triple.op stable_true (fun _ => stable_const _) (fun _ _ _ => call_ne_abort _)
      fun _ _ _ => rfl
  apply (Triple.of_pure (P := fun _ _ => True) ?_).pre fun _ _ hs => ⟨trivial, hs⟩
  rintro rfl
  refine (check_passes stable_true page.bytes_pos).bind fun _ => ?_
  refine (check_passes stable_true (Nat.mod_eq_zero_of_dvd page.dvd_bytes)).bind fun _ => ?_
  refine (op_passes _).bind fun fd => ?_
  dsimp only
  split <;> rename_i hfd
  · exact Triple.ret (stable_const _) fun _ _ _ h => Bool.noConfusion h
  · have hasking : Asking page { ctx with fd := fd, pageSize := page.bytes, initDone := false } :=
      ⟨Int.not_lt.mp hfd, rfl⟩
    refine (requestFlexspiMemory_passes hasking).bind fun r => ?_
    apply (Triple.of_pure (P := fun _ _ => True) ?_).pre fun _ _ hs => ⟨trivial, hs⟩
    rintro ⟨⟨hctx, hdown⟩, hflexspi⟩
    split <;> rename_i hresult
    · refine (op_passes _).bind fun _ => Triple.ret (stable_const _) fun _ _ _ hinit => ?_
      have hfalse : false = true := hdown.symm.trans hinit
      cases hfalse
    · exact (bringUp_passes hctx (hflexspi (not_not.mp hresult))).post fun _ _ _ hne _ => hne

/-! ## What `main` asks of the kernel -/

/-- The registers have not been granted. -/
def InitOutcome.Failed : InitOutcome → Prop
  | noMemory _ | noRegisters _ => True
  | ready _ _ _ _ => False

/-- An assertion fails only after a `QSPI_Init` that has failed, and nothing has been asked of the
kernel since. -/
def StopsFailed (page : PageSize) (d : Head bus) : Assertion bus Process HostAction := fun _ t =>
  d = .abort → ∃ o : InitOutcome, o.Possible ∧ o.Failed ∧ syscalls t = o.calls page

/-- No system calls and no failing assertions. -/
def Mute (d : Head bus) : Prop :=
  d ≠ .abort ∧ ∀ o, d = .call o → ∀ r : o.Res, syscall? (.call o r) = none

lemma mute_op {o : Access} (h : ∀ r : o.Res, syscall? (.call o r) = none) : Mute (.call o) := by
  refine ⟨call_ne_abort o, ?_⟩
  rintro o' ho
  obtain rfl := Head.call.inj ho
  exact h

lemma mute_poll (w : BitWait) : Mute (.poll w) := by
  refine ⟨by rintro ⟨⟩, ?_⟩
  rintro o ⟨⟩

variable {fspi : Nat}

lemma mute_of_flagHead {d : Head bus} (h : FlagHead fspi d) : Mute d := by
  cases h <;> exact mute_op fun _ => rfl

lemma mute_of_transferHead {d : Head bus} (h : TransferHead fspi d) : Mute d := by
  cases h with
  | flag h => exact mute_of_flagHead h
  | loadControl h => exact mute_op fun _ => rfl
  | storeControl v h => exact mute_op fun _ => rfl
  | write h =>
    cases h with
    | flag h => exact mute_of_flagHead h
    | wait => exact mute_poll _
    | chunk h => cases h <;> exact mute_op fun _ => rfl
  | read h =>
    cases h with
    | flag h => exact mute_of_flagHead h
    | wait => exact mute_poll _
    | chunk h => cases h <;> exact mute_op fun _ => rfl
  | done => exact mute_poll _

lemma mute_of_lutHead {d : Head bus} (h : LutHead fspi d) : Mute d := by
  cases h <;> exact mute_op fun _ => rfl

lemma mute_issued {p : Driver α} (hp : p.Every Mute) :
    (process page).Triple (StopsFailed page) (Issued cs) p fun _ => Issued cs := by
  refine Triple.invariant hp (stable_onCalls _) ?_ ?_ ?_
  · rintro d s t hd - rfl
    exact absurd rfl hd.1
  · rintro o s t ho rfl
    change syscalls (t ++ _) = syscalls t
    rw [syscalls_snoc, ho.2 o rfl]
    exact List.append_nil _
  · rintro w s t - rfl
    change syscalls (t ++ _) = syscalls t
    rw [syscalls_snoc]
    exact List.append_nil _

lemma qspiDeInit_passes (ctx : QspiContext) : (qspiDeInit ctx).Every (· ≠ .abort) := by
  unfold qspiDeInit
  split
  · trivial
  · exact ⟨call_ne_abort _, fun _ => ⟨call_ne_abort _, fun _ => ⟨call_ne_abort _, fun _ =>
      ⟨call_ne_abort _, fun _ => ⟨call_ne_abort _, fun _ => trivial⟩⟩⟩⟩⟩

/-- The system calls of a `main` that returns: those of a `QSPI_Init` that has been granted the
registers, then those of the `QSPI_DeInit` behind it. -/
def InitOutcome.MainCalls (page : PageSize) (ds : List Syscall) (o : InitOutcome) : Prop :=
  o.Possible ∧ ¬ o.Failed ∧ ds = o.calls page ++ deInitCalls (o.context page .zero)

/-- **`main`.** -/
lemma main_issued {testLut : Nat} (hlut : testLut ≠ 0) :
    (process page).Triple (StopsFailed page) (Issued []) (main .zero testLut)
      fun v => OnCalls fun ds => v = 0 ∧ ∃ o : InitOutcome, o.MainCalls page ds := by
  have hstop : ∀ (d : Head bus) (s : Process) (t : HostTrace), d ≠ .abort →
      StopsFailed page d s t := fun _ _ _ hd habort => absurd habort hd
  refine Triple.bind (Q := fun _ => Issued []) ?_ fun _ => ?_
  · exact Triple.ret (stable_onCalls _) fun _ _ => id
  have hcalls : (process page).Triple Owned (Issued []) (qspiInit .zero) _ := qspiInit_issued .zero
  have hinit := (hcalls.and (qspiInit_passes .zero)).allow fun d s t hd => hstop d s t hd.2
  refine Triple.bind (hinit.pre fun s t hs => ⟨hs, trivial⟩) fun ctx => ?_
  apply (Triple.exists_pre (P := fun (o : InitOutcome) s t => Issued (o.calls page) s t ∧
    o.Possible ∧ ctx = o.context page .zero ∧ (ctx.initDone = true → ctx.flexspi ≠ 0))
    fun o => Triple.of_pure ?_).pre
  · rintro s t ⟨⟨o, hpossible, hctx, hcalls⟩, hflexspi⟩
    exact ⟨o, hcalls, hpossible, hctx, hflexspi⟩
  rintro ⟨hpossible, rfl, hflexspi⟩
  -- the pointer is still `NULL` when `QSPI_Init` has failed
  have hnull : o.Failed →
      (process page).Triple (StopsFailed page) (Issued (o.calls page))
        (Prog.abort : Driver Int) fun v => OnCalls fun ds =>
          v = 0 ∧ ∃ o : InitOutcome, o.MainCalls page ds :=
    fun hfailed => Triple.abort (stable_onCalls _) fun s t hs _ => ⟨o, hpossible, hfailed, hs⟩
  cases o with
  | noMemory fd =>
    rw [qspiSetupLut_of_null rfl]
    exact hnull trivial
  | noRegisters fd =>
    rw [qspiSetupLut_of_null rfl]
    exact hnull trivial
  | ready fd fspi iomux ccm =>
    have hne := hflexspi rfl
    refine Triple.bind (mute_issued ((qspiSetupLut_every _ _ _).mono fun d hd => ?_)) fun _ => ?_
    · rcases hd with hd | ⟨-, hnot⟩
      · exact mute_of_lutHead hd
      · exact absurd ⟨hne, hlut, by decide⟩ hnot
    rw [if_neg (by rintro ⟨⟩)]
    refine Triple.bind (mute_issued ((loggedTransfer_every _).mono fun d hd => ?_)) fun _ => ?_
    · rcases hd with hd | ⟨-, hnot⟩
      · exact mute_of_transferHead hd
      · exact absurd ⟨by decide, by decide⟩ hnot
    refine Triple.bind (((qspiDeInit_issued _ fun _ => ?_).every (qspiDeInit_passes _)).allow
      fun d s t hd => hstop d s t hd.2) fun ctx' => ?_
    · simp [InitOutcome.context, InitOutcome.calls, held, heldNext, hpossible.1]
    · refine Triple.ret (stable_onCalls _) fun s t hs => ⟨rfl, .ready fd fspi iomux ccm, ?_⟩
      exact ⟨hpossible, id, hs.2⟩

/-! ## How `main` ends -/

/-- What the outcomes leave of the kernel's is given back. -/
lemma mainCalls_untouched {k : Kernel} (hk : k.Untouched) {o : InitOutcome} {ds : List Syscall}
    (h : o.MainCalls page ds) (hgrants : k.GrantsAll page ds) :
    (k.afterAll page ds).Untouched := by
  obtain ⟨hpossible, -, rfl⟩ := h
  rw [Kernel.grantsAll_append] at hgrants
  rw [Kernel.afterAll_append]
  have hinit := InitOutcome.accounted (l := ⟨.zero, k, []⟩) hk hpossible hgrants.1
  apply hinit.deInit.down
  unfold deInitContext
  split <;> rename_i hdone
  · exact hdone
  · rfl

lemma failed_untouched {k : Kernel} (hk : k.Untouched) {o : InitOutcome} (hpossible : o.Possible)
    (hfailed : o.Failed) (hgrants : k.GrantsAll page (o.calls page)) :
    (k.afterAll page (o.calls page)).Untouched := by
  apply (InitOutcome.accounted (l := ⟨.zero, k, []⟩) hk hpossible hgrants).down
  cases o with
  | noMemory fd => rfl
  | noRegisters fd => rfl
  | ready fd fspi iomux ccm => exact hfailed.elim

lemma registersGranted_mainCalls {o : InitOutcome} {ds : List Syscall}
    (h : o.MainCalls page ds) : RegistersGranted ds := by
  obtain ⟨hpossible, hready, rfl⟩ := h
  cases o with
  | noMemory fd => exact absurd trivial hready
  | noRegisters fd => exact absurd trivial hready
  | ready fd fspi iomux ccm =>
    exact ⟨⟨fd, rfl, hpossible.1⟩, fspi, rfl, hpossible.2⟩

lemma not_registersGranted_failed {o : InitOutcome} (hpossible : o.Possible)
    (hfailed : o.Failed) : ¬ RegistersGranted (o.calls page) := by
  rintro ⟨⟨fd, hopens, hpos⟩, a, hmaps, ha⟩
  cases o with
  | noMemory fd' => cases hmaps
  | noRegisters fd' =>
    obtain rfl := Option.some.inj hmaps
    exact ha rfl
  | ready fd' fspi iomux ccm => exact hfailed.elim

/-- **How `main` ends.**  A run in which the waits are answered comes to an end.  With exit status 0
when the FlexSPI registers have been granted, at an assertion otherwise; never with
`EXIT_FAILURE`.  In both cases `main` has given back every page and every descriptor it got. -/
theorem main_ends {testLut : Nat} (hlut : testLut ≠ 0) {s : Process} (hs : s.kernel.Untouched)
    {r : (process page).Run ⟨main .zero testLut, s, []⟩} (hfair : r.Fair) :
    (∀ n v, (r.cfg n).prog = .ret v → v = 0) ∧
    ∃ n, (r.cfg n).state.kernel.Untouched ∧
      ((r.cfg n).prog = .ret 0 ∧ RegistersGranted (syscalls (r.cfg n).trace) ∨
        (r.cfg n).prog = .abort ∧ ¬ RegistersGranted (syscalls (r.cfg n).trace)) := by
  have hissued : (process page).Triple _ _ (main .zero testLut) _ := main_issued hlut
  have hstart : Issued [] s [] := rfl
  have hreturned : ∀ n v, (r.cfg n).prog = .ret v →
      v = 0 ∧ ∃ o : InitOutcome, o.MainCalls page (syscalls (r.cfg n).trace) := by
    intro n v hret
    have hreach := r.reach n
    generalize r.cfg n = c at hret hreach ⊢
    obtain ⟨p, s', t'⟩ := c
    obtain rfl := hret
    exact hissued.returns hstart hreach
  refine ⟨fun n v hret => (hreturned n v hret).1, ?_⟩
  obtain ⟨n, hended⟩ := hfair.ends
  obtain ⟨u, htrace, hkernel, hgrants⟩ := reach_kernel (r.reach n)
  rw [List.nil_append] at htrace
  rw [← htrace] at hkernel hgrants
  refine ⟨n, ?_⟩
  rw [hkernel]
  rcases hended with hdone | habort
  · obtain ⟨v, hret⟩ := Prog.exists_ret_of_head hdone
    obtain ⟨rfl, o, hcalls⟩ := hreturned n v hret
    exact ⟨mainCalls_untouched hs hcalls hgrants, .inl ⟨hret, registersGranted_mainCalls hcalls⟩⟩
  · have hne : (r.cfg n).prog.head ≠ .done := by
      rw [habort]
      rintro ⟨⟩
    obtain ⟨o, hpossible, hfailed, hcalls⟩ := hissued.guarantee hstart (r.reach n) hne habort
    rw [hcalls] at hgrants ⊢
    exact ⟨failed_untouched hs hpossible hfailed hgrants, .inr ⟨Prog.eq_abort_of_head habort,
      not_registersGranted_failed hpossible hfailed⟩⟩

/-- The schedule in which every register reads as all ones in each turn of the program. -/
def allOnes (n : Nat) : Tick HostAction :=
  if n % 2 = 0 then .env (.setValue (BitVec.allOnes 32)) else .prog

/-- The run of `main` on that schedule, in a new process. -/
def mainRun : (process smallPage).Run ⟨main .zero 0x400, newProcess 3, []⟩ :=
  Run.ofSchedule allOnes _ fun _ _ _ _ h => Option.some_ne_none _ h

/-- It returns after 76 turns. -/
theorem main_ends_zero :
    (mainRun.cfg 152).prog.value? = some 0 ∧ ∃ n, (mainRun.cfg n).state.kernel.Untouched := by
  have hvalue : (mainRun.cfg 152).prog.value? = some 0 := by decide +kernel
  have hfair : mainRun.Fair :=
    Run.fair_of_ended (.inl (by rw [Prog.eq_ret_of_value? hvalue]; rfl))
  obtain ⟨-, n, huntouched, -⟩ := main_ends (by decide) (newProcess_untouched 3) hfair
  exact ⟨hvalue, n, huntouched⟩

end QspiTool
