import QspiTool.Host.Process

/-!
# What `QSPI_Init` and `QSPI_DeInit` ask of the kernel

`QSPI_Init` has three kinds of outcome: `open` fails, the first `mmap` fails, or the context is
initialised, and then the second and the third `mmap` may or may not have failed
(`InitOutcome`).  Each outcome fixes the system calls that are made and the context that is
left, so the two calls are functions of the answers of the kernel (`init_outcome`,
`deInit_outcome`), and what they do to the kernel follows from these lists
(`Host.Process.reach_kernel`).  On the way nothing is closed that the driver does not hold.
-/

namespace QspiTool

open Words Interaction Machine

variable {page : PageSize} {cs : List Syscall} {α : Type}

/-! ## Descriptors -/

def heldNext (fds : List Int) : Syscall → List Int
  | .opened fd => if 0 ≤ fd then fd :: fds else fds
  | .closed fd => fds.erase fd
  | .mapped _ _ _ | .unmapped _ _ => fds

/-- The descriptors obtained from `open` and not closed since. -/
def held (cs : List Syscall) : List Int := cs.foldl heldNext []

@[simp] lemma held_append (cs ds : List Syscall) : held (cs ++ ds) = ds.foldl heldNext (held cs) :=
  List.foldl_append

/-- A `close` is of a descriptor that the driver holds. -/
def Owned (d : Head bus) : Assertion bus Process HostAction := fun _ t =>
  ∀ fd, d = .call (.close fd) → fd ∈ held (syscalls t)

/-! ## Assertions about the system calls made -/

def OnCalls (R : List Syscall → Prop) : Assertion bus Process HostAction := fun _ t =>
  R (syscalls t)

/-- Exactly these system calls have been made. -/
abbrev Issued (cs : List Syscall) : Assertion bus Process HostAction := OnCalls (· = cs)

lemma stable_onCalls (R : List Syscall → Prop) : (process page).Stable (OnCalls R) := by
  intro a s s' t hs _
  change R (syscalls (t ++ [.act a]))
  rw [syscalls_snoc]
  exact (List.append_nil (syscalls t)).symm ▸ hs

/-- Register accesses and waits. -/
def Silent (d : Head bus) : Prop :=
  ∃ a, touched d = some a

lemma silent_op {o : Access} (h : Silent (.call o)) (r : o.Res) :
    syscall? (.call o r) = none ∧ ∀ fd, o ≠ .close fd := by
  obtain ⟨a, ha⟩ := h
  cases o with
  | load _ => exact ⟨rfl, nofun⟩
  | store _ _ => exact ⟨rfl, nofun⟩
  | store8 _ _ => exact ⟨rfl, nofun⟩
  | _ => cases ha

/-- One operation. -/
lemma op_issued {o : Access} (hclose : ∀ fd, o = .close fd → fd ∈ held cs) :
    (process page).Triple Owned (Issued cs) (Prog.op (S := bus) o) fun r =>
      Issued (cs ++ (syscall? (.call o r)).toList) := by
  refine Triple.op (stable_onCalls _) (fun _ => stable_onCalls _) ?_ ?_
  · rintro s t rfl fd hfd
    exact hclose fd (Head.call.inj hfd)
  · rintro s t rfl
    exact syscalls_snoc t _

/-- Programs that only access registers. -/
lemma silent_issued {p : Driver α} (hp : p.Every Silent) :
    (process page).Triple Owned (Issued cs) p fun _ => Issued cs := by
  refine Triple.invariant hp (stable_onCalls _) ?_ ?_ ?_
  · intro d s t hd _ fd hfd
    rw [hfd] at hd
    exact absurd rfl ((silent_op hd ()).2 fd)
  · rintro o s t ho rfl
    change syscalls (t ++ _) = syscalls t
    rw [syscalls_snoc, (silent_op ho _).1]
    exact List.append_nil _
  · rintro w s t _ rfl
    change syscalls (t ++ _) = syscalls t
    rw [syscalls_snoc]
    exact List.append_nil _

lemma check_issued (c : Prop) [Decidable c] :
    (process page).Triple Owned (Issued cs) (check c) fun _ s t => Issued cs s t ∧ c :=
  Triple.check (stable_onCalls _) fun _ _ _ _ _ h => nomatch h

lemma orReg_silent (a : Nat) (m : Word) : (orReg a m).Every Silent :=
  ⟨⟨a, rfl⟩, fun _ => ⟨⟨a, rfl⟩, fun _ => trivial⟩⟩

lemma setPads_silent (iomux : Nat) (pads : List Nat) : (setPads iomux pads).Every Silent := by
  induction pads with
  | nil => trivial
  | cons pad pads ih => exact ⟨⟨iomux + pad, rfl⟩, fun _ => ih⟩

/-! ## The steps of `QSPI_Init` -/

lemma mapMemory_issued (fd : Int) (base size pageSize : Nat) :
    (process page).Triple Owned (Issued cs) (mapMemory fd base size pageSize) fun r =>
      OnCalls fun ds => ds = cs ++ [.mapped r.1 size (pageBase base pageSize)] ∧
        r.2 = if r.1 = mapFailed then -1 else 0 := by
  unfold mapMemory
  refine (check_issued _).bind fun _ => Triple.of_pure fun _ => ?_
  refine (check_issued _).bind fun _ => Triple.of_pure fun _ => ?_
  refine (check_issued _).bind fun _ => Triple.of_pure fun _ => ?_
  refine (op_issued (o := .mmap size fd (pageBase base pageSize)) nofun).bind fun map => ?_
  by_cases hmap : map = mapFailed
  · rw [if_pos hmap]
    exact Triple.ret (stable_onCalls _) fun s t hs => ⟨hs, (if_pos hmap).symm⟩
  · rw [if_neg hmap]
    exact Triple.ret (stable_onCalls _) fun s t hs => ⟨hs, (if_neg hmap).symm⟩

lemma requestFlexspiMemory_issued (ctx : QspiContext) :
    (process page).Triple Owned (Issued cs) (requestFlexspiMemory ctx) fun r =>
      OnCalls fun ds => ∃ map,
        ds = cs ++ [.mapped map Reg.size (pageBase flexspiBase ctx.pageSize)] ∧
        r = if map = mapFailed then ({ ctx with mapFspi := mapFailed }, -1)
          else ({ ctx with
            mapFspi := map
            flexspi := map + pageOffset flexspiBase ctx.pageSize }, 0) := by
  unfold requestFlexspiMemory
  refine (mapMemory_issued ctx.fd flexspiBase Reg.size ctx.pageSize).bind fun r => ?_
  obtain ⟨map, result⟩ := r
  refine Triple.of_pure (P := Issued _) fun hresult => ?_
  dsimp only at hresult ⊢
  by_cases hmap : map = mapFailed
  · rw [if_pos hmap] at hresult
    rw [hmap, hresult, if_pos (by decide)]
    exact Triple.ret (stable_onCalls _) fun s t hs => ⟨mapFailed, hs, (if_pos rfl).symm⟩
  · rw [if_neg hmap] at hresult
    rw [hresult, if_neg (by decide)]
    exact Triple.ret (stable_onCalls _) fun s t hs => ⟨map, hs, (if_neg hmap).symm⟩

/-- `iomux_init` forgets whether its `mmap` has succeeded. -/
lemma iomuxInit_issued (ctx : QspiContext) :
    (process page).Triple Owned (Issued cs) (iomuxInit ctx) fun ctx' =>
      OnCalls fun ds => ∃ map, ctx' = { ctx with mapIomux := map } ∧
        ds = cs ++ [.mapped map ctx.pageSize (pageBase iomuxcBase ctx.pageSize)] := by
  unfold iomuxInit
  refine (check_issued _).bind fun _ => Triple.of_pure fun _ => ?_
  refine (mapMemory_issued ctx.fd iomuxcBase ctx.pageSize ctx.pageSize).bind fun r => ?_
  obtain ⟨map, result⟩ := r
  refine Triple.of_pure (P := Issued _) fun _ => ?_
  dsimp only
  by_cases hresult : result = 0
  · rw [if_neg fun hne => hne hresult]
    refine (silent_issued (setPads_silent _ _)).bind fun _ => ?_
    exact Triple.ret (stable_onCalls _) fun s t hs => ⟨map, rfl, hs⟩
  · rw [if_pos hresult]
    exact Triple.ret (stable_onCalls _) fun s t hs => ⟨map, rfl, hs⟩

/-- `clock_init` forgets whether its `mmap` has succeeded. -/
lemma clockInit_issued (ctx : QspiContext) (mux pre post : Word) :
    (process page).Triple Owned (Issued cs) (clockInit ctx mux pre post) fun ctx' =>
      OnCalls fun ds => ∃ map, ctx' = { ctx with mapCcm := map } ∧
        ds = cs ++ [.mapped map pageSize64K (pageBase ccmBase ctx.pageSize)] := by
  unfold clockInit
  refine (check_issued _).bind fun _ => Triple.of_pure fun _ => ?_
  refine (mapMemory_issued ctx.fd ccmBase pageSize64K ctx.pageSize).bind fun r => ?_
  obtain ⟨map, result⟩ := r
  refine Triple.of_pure (P := Issued _) fun _ => ?_
  dsimp only
  by_cases hresult : result = 0
  · rw [if_neg fun hne => hne hresult]
    refine (op_issued (o := .store _ _) nofun).bind fun _ => ?_
    refine (op_issued (o := .load _) nofun).bind fun _ => ?_
    refine (op_issued (o := .store _ _) nofun).bind fun _ => ?_
    refine (silent_issued (orReg_silent _ _)).bind fun _ => ?_
    refine (op_issued (o := .load _) nofun).bind fun _ => ?_
    refine Triple.ret (stable_onCalls _) fun s t hs => ⟨map, rfl, ?_⟩
    simpa only [Issued, OnCalls, syscall?, Option.toList_none, List.append_nil] using hs
  · rw [if_pos hresult]
    exact Triple.ret (stable_onCalls _) fun s t hs => ⟨map, rfl, hs⟩

/-- The rest of `QSPI_Init` reaches its end whatever these two calls met. -/
lemma bringUp_issued (ctx : QspiContext) :
    (process page).Triple Owned (Issued cs) (bringUp ctx) fun ctx' =>
      OnCalls fun ds => ∃ iomux ccm,
        ctx' = { ctx with mapIomux := iomux, mapCcm := ccm, initDone := true } ∧
        ds = cs ++ [.mapped iomux ctx.pageSize (pageBase iomuxcBase ctx.pageSize),
          .mapped ccm pageSize64K (pageBase ccmBase ctx.pageSize)] := by
  unfold bringUp
  refine (iomuxInit_issued ctx).bind fun ctx₁ => Triple.exists_pre fun iomux => ?_
  refine Triple.pre (P := fun s t => Issued _ s t ∧ ctx₁ = { ctx with mapIomux := iomux })
    (Triple.of_pure ?_) fun s t hs => ⟨hs.2, hs.1⟩
  rintro rfl
  refine (silent_issued (orReg_silent _ _)).bind fun _ => ?_
  refine (clockInit_issued { ctx with mapIomux := iomux } _ _ _).bind fun ctx₂ =>
    Triple.exists_pre fun ccm => ?_
  refine Triple.pre (P := fun s t =>
    Issued _ s t ∧ ctx₂ = { ctx with mapIomux := iomux, mapCcm := ccm })
    (Triple.of_pure ?_) fun s t hs => ⟨hs.2, hs.1⟩
  rintro rfl
  refine (silent_issued (orReg_silent _ _)).bind fun _ => ?_
  refine (op_issued (o := .store _ _) nofun).bind fun _ => ?_
  refine (op_issued (o := .load _) nofun).bind fun mcr0 => ?_
  refine (op_issued (o := .store _ _) nofun).bind fun _ => ?_
  refine Triple.ret (stable_onCalls _) fun s t hs => ⟨iomux, ccm, rfl, ?_⟩
  simpa only [Issued, OnCalls, syscall?, Option.toList_none, List.append_nil, List.append_assoc,
    List.singleton_append] using hs

/-! ## Outcomes of `QSPI_Init` -/

/-- How a `QSPI_Init` can go, with the answers it has met. -/
inductive InitOutcome
  /-- `open` has failed. -/
  | noMemory (fd : Int)
  /-- The first `mmap` has failed. -/
  | noRegisters (fd : Int)
  /-- The context is initialised; the other two `mmap`s may have failed. -/
  | ready (fd : Int) (fspi iomux ccm : Nat)

namespace InitOutcome

variable (page : PageSize)

/-- The system calls made. -/
def calls : InitOutcome → List Syscall
  | noMemory fd => [.opened fd]
  | noRegisters fd =>
      [.opened fd, .mapped mapFailed Reg.size (pageBase flexspiBase page.bytes), .closed fd]
  | ready fd fspi iomux ccm =>
      [.opened fd, .mapped fspi Reg.size (pageBase flexspiBase page.bytes),
        .mapped iomux page.bytes (pageBase iomuxcBase page.bytes),
        .mapped ccm pageSize64K (pageBase ccmBase page.bytes)]

/-- The context left. -/
def context (ctx : QspiContext) : InitOutcome → QspiContext
  | noMemory fd => { ctx with fd := fd, pageSize := page.bytes, initDone := false }
  | noRegisters _ =>
      { ctx with fd := -1, pageSize := page.bytes, initDone := false, mapFspi := mapFailed }
  | ready fd fspi iomux ccm =>
      { ctx with
        fd := fd
        pageSize := page.bytes
        initDone := true
        flexspi := fspi + pageOffset flexspiBase page.bytes
        mapFspi := fspi
        mapCcm := ccm
        mapIomux := iomux }

/-- The answers are those that lead there. -/
def Possible : InitOutcome → Prop
  | noMemory fd => fd < 0
  | noRegisters fd => 0 ≤ fd
  | ready fd fspi _ _ => 0 ≤ fd ∧ fspi ≠ mapFailed

end InitOutcome

lemma sysconfPageSize_issued :
    (process page).Triple Owned (Issued cs) sysconfPageSize fun size s t =>
      Issued cs s t ∧ size = page.bytes := by
  refine Triple.op (stable_onCalls _) (fun _ => stable_and (stable_onCalls _)
    (stable_onCalls fun _ => _ = page.bytes)) (fun _ _ _ _ h => nomatch h) ?_
  rintro s t rfl
  exact ⟨(syscalls_snoc t _).trans (List.append_nil _), rfl⟩

lemma qspiInit_issued (ctx : QspiContext) :
    (process page).Triple Owned (Issued cs) (qspiInit ctx) fun ctx' =>
      OnCalls fun ds => ∃ o : InitOutcome, o.Possible ∧ ctx' = o.context page ctx ∧
        ds = cs ++ o.calls page := by
  unfold qspiInit
  refine sysconfPageSize_issued.bind fun size => Triple.of_pure ?_
  rintro rfl
  refine (check_issued _).bind fun _ => Triple.of_pure fun _ => ?_
  refine (check_issued _).bind fun _ => Triple.of_pure fun _ => ?_
  refine (op_issued (o := .openMem) nofun).bind fun fd => ?_
  dsimp only
  by_cases hfd : (show Int from fd) < 0
  · rw [if_pos hfd]
    exact Triple.ret (stable_onCalls _) fun s t hs => ⟨.noMemory fd, hfd, rfl, hs⟩
  · rw [if_neg hfd]
    have hpos : 0 ≤ (show Int from fd) := Int.not_lt.mp hfd
    refine (requestFlexspiMemory_issued _).bind fun r => Triple.exists_pre fun fspi => ?_
    refine Triple.of_pure (P := Issued _) fun hr => ?_
    by_cases hmap : fspi = mapFailed
    · rw [if_pos hmap] at hr
      rw [hr, hmap]
      dsimp only
      rw [if_pos (by decide)]
      refine Triple.bind (op_issued (o := .close fd) ?_) fun _ => ?_
      · rintro fd' hfd'
        obtain rfl := Access.close.inj hfd'
        simp [syscall?, heldNext, hpos]
      refine Triple.ret (stable_onCalls _) fun s t hs => ⟨.noRegisters fd, hpos, rfl, ?_⟩
      simpa only [InitOutcome.calls, Issued, OnCalls, syscall?, Option.toList_some,
        List.append_assoc, List.cons_append, List.nil_append] using hs
    · rw [if_neg hmap] at hr
      rw [hr]
      dsimp only
      rw [if_neg (by decide)]
      refine (bringUp_issued _).post fun ctx' s t hs => ?_
      obtain ⟨iomux, ccm, rfl, hcalls⟩ := hs
      refine ⟨.ready fd fspi iomux ccm, ⟨hpos, hmap⟩, rfl, ?_⟩
      simpa only [InitOutcome.calls, Issued, OnCalls, syscall?, Option.toList_some,
        List.append_assoc, List.cons_append, List.nil_append] using hcalls

/-! ## `QSPI_DeInit` -/

/-- The system calls of a `QSPI_DeInit`. -/
def deInitCalls (ctx : QspiContext) : List Syscall :=
  if ctx.initDone = false then []
  else [.unmapped ctx.mapIomux pageSize64K, .unmapped ctx.mapFspi Reg.size,
    .unmapped ctx.mapCcm pageSize64K, .unmapped ctx.mapRdc pageSize64K, .closed ctx.fd]

/-- The context a `QSPI_DeInit` leaves. -/
def deInitContext (ctx : QspiContext) : QspiContext :=
  if ctx.initDone = false then ctx else { ctx with fd := -1, initDone := false }

lemma qspiDeInit_issued (ctx : QspiContext) (hfd : ctx.initDone = true → ctx.fd ∈ held cs) :
    (process page).Triple Owned (Issued cs) (qspiDeInit ctx) fun ctx' =>
      OnCalls fun ds => ctx' = deInitContext ctx ∧ ds = cs ++ deInitCalls ctx := by
  unfold qspiDeInit deInitContext deInitCalls
  by_cases hinit : ctx.initDone = false
  · simp only [if_pos hinit, List.append_nil]
    exact Triple.ret (stable_onCalls _) fun s t hs => ⟨rfl, hs⟩
  · simp only [if_neg hinit]
    refine (op_issued (o := .munmap _ _) nofun).bind fun _ => ?_
    refine (op_issued (o := .munmap _ _) nofun).bind fun _ => ?_
    refine (op_issued (o := .munmap _ _) nofun).bind fun _ => ?_
    refine (op_issued (o := .munmap _ _) nofun).bind fun _ => ?_
    refine (op_issued (o := .close _) ?_).bind fun _ => ?_
    · rintro fd hfd'
      obtain rfl := Access.close.inj hfd'
      simp only [held_append, syscall?, Option.toList_some, List.foldl_cons, List.foldl_nil,
        heldNext]
      exact hfd (Bool.not_eq_false _ ▸ hinit)
    refine Triple.ret (stable_onCalls _) fun s t hs => ⟨rfl, ?_⟩
    simpa only [Issued, OnCalls, syscall?, Option.toList_some, List.append_assoc,
      List.cons_append, List.nil_append] using hs

/-! ## The kernel after a successful `QSPI_Init` -/

/-- The descriptor is the driver's, and the mappings that have succeeded are live. -/
lemma ready_kernel {k : Kernel} {fd : Int} {fspi iomux ccm : Nat}
    (hpossible : (InitOutcome.ready fd fspi iomux ccm).Possible)
    (hgrants : k.GrantsAll page ((InitOutcome.ready fd fspi iomux ccm).calls page)) :
    (k.afterAll page ((InitOutcome.ready fd fspi iomux ccm).calls page)).descriptors fd =
        .driver ∧
      (k.afterAll page ((InitOutcome.ready fd fspi iomux ccm).calls page)).Maps page fspi Reg.size
        (pageBase flexspiBase page.bytes) ∧
      (iomux ≠ mapFailed →
        (k.afterAll page ((InitOutcome.ready fd fspi iomux ccm).calls page)).Maps page iomux
          page.bytes (pageBase iomuxcBase page.bytes)) ∧
      (ccm ≠ mapFailed →
        (k.afterAll page ((InitOutcome.ready fd fspi iomux ccm).calls page)).Maps page ccm
          pageSize64K (pageBase ccmBase page.bytes)) := by
  obtain ⟨-, -, hiomux, hccm, -⟩ := hgrants
  simp only [InitOutcome.calls, Kernel.afterAll_cons, Kernel.afterAll_nil]
  refine ⟨?_, ?_, fun hne => ?_, fun hne => ?_⟩
  · simp [Kernel.after, hpossible.1, apply_ite Kernel.descriptors]
  · exact ((Kernel.maps_after_mapped _ hpossible.2 _ _).after_mapped hiomux).after_mapped hccm
  · exact (Kernel.maps_after_mapped _ hne _ _).after_mapped hccm
  · exact Kernel.maps_after_mapped _ hne _ _

/-! ## Lifecycles -/

/-- The rest of the process leaves the driver's pages and descriptors alone. -/
def Kernel.Elsewhere (k k' : Kernel) : Prop :=
  (∀ p frame, k'.pages p = .device frame ↔ k.pages p = .device frame) ∧
  ∀ fd, k'.descriptors fd = .driver ↔ k.descriptors fd = .driver

/-- And it leaves the devices alone. -/
def Process.Elsewhere (s s' : Process) : Prop :=
  s'.cells = s.cells ∧ s.kernel.Elsewhere s'.kernel

/-- The driver holds nothing. -/
def Kernel.Untouched (k : Kernel) : Prop :=
  (∀ p, ¬ k.Owns p) ∧ ∀ fd, k.descriptors fd ≠ .driver

/-- Calls of `QSPI_Init` and `QSPI_DeInit` from the zeroed context on. -/
def lifecycle (page : PageSize) : Setting Process HostAction where
  machine := process page
  Start b := b.ctx = .zero ∧ b.trace = [] ∧ b.state.kernel.Untouched
  Elsewhere := Process.Elsewhere
  Allowed _ call := call = .init ∨ call = .deInit

/-- What matters between two calls: the context, the kernel, and the system calls so far. -/
structure Life where
  ctx : QspiContext
  kernel : Kernel
  calls : List Syscall

def Stage.life (b : Stage Process HostAction) : Life :=
  ⟨b.ctx, b.state.kernel, syscalls b.trace⟩

/-- One call, as a function of the answers of the kernel. -/
inductive LifeStep (page : PageSize) (l : Life) : Call → Life → Prop
  | init (o : InitOutcome) (hpossible : o.Possible)
      (hgrants : l.kernel.GrantsAll page (o.calls page)) :
      LifeStep page l .init ⟨o.context page l.ctx, l.kernel.afterAll page (o.calls page),
        l.calls ++ o.calls page⟩
  | deInit :
      LifeStep page l .deInit ⟨deInitContext l.ctx, l.kernel.afterAll page (deInitCalls l.ctx),
        l.calls ++ deInitCalls l.ctx⟩

/-- An initialised context holds its descriptor. -/
def Life.Holding (l : Life) : Prop := l.ctx.initDone = true → l.ctx.fd ∈ held l.calls

/-- Before a `QSPI_Init` or `QSPI_DeInit` that finds the descriptor held, nothing else is closed. -/
lemma call_owned {call : Call} (hcall : call = .init ∨ call = .deInit) {ctx : QspiContext}
    (hfd : ctx.initDone = true → ctx.fd ∈ held cs) :
    (process page).Triple Owned (Issued cs) (call.run ctx) fun _ _ _ => True := by
  have hreturn : ∀ r : QspiContext × Option Int, (process page).Triple Owned
      (fun _ _ => True) (.ret r) fun _ _ _ => True := fun r =>
    Triple.ret stable_true fun _ _ _ => trivial
  rcases hcall with rfl | rfl
  · exact ((qspiInit_issued ctx).post fun _ _ _ _ => trivial).bind fun _ => hreturn _
  · exact ((qspiDeInit_issued ctx hfd).post fun _ _ _ _ => trivial).bind fun _ => hreturn _

/-- A `QSPI_Init` that has returned has had one of the outcomes. -/
lemma outcome_of_reach {b b' : Stage Process HostAction} {r : Option Int}
    (h : (process page).Reach ⟨Call.init.run b.ctx, b.state, b.trace⟩
      ⟨.ret (b'.ctx, r), b'.state, b'.trace⟩) :
    ∃ o : InitOutcome, o.Possible ∧ b'.ctx = o.context page b.ctx ∧
      syscalls b'.trace = syscalls b.trace ++ o.calls page :=
  ((qspiInit_issued b.ctx).bind fun ctx' => Triple.ret
    (Q := fun r => OnCalls fun ds => ∃ o : InitOutcome, o.Possible ∧
      r.1 = o.context page b.ctx ∧ ds = syscalls b.trace ++ o.calls page)
    (a := (ctx', (none : Option Int))) (stable_onCalls _) fun _ _ hs => hs).returns rfl h

/-- **The calls are functions of the answers.** -/
theorem lifeStep_of_reach {call : Call} (hcall : call = .init ∨ call = .deInit)
    {b b' : Stage Process HostAction} (hfd : b.life.Holding) {r : Option Int}
    (h : (process page).Reach ⟨call.run b.ctx, b.state, b.trace⟩
      ⟨.ret (b'.ctx, r), b'.state, b'.trace⟩) :
    LifeStep page b.life call b'.life := by
  obtain ⟨u, htrace, hkernel, hgrants⟩ := reach_kernel h
  dsimp only at htrace hkernel hgrants
  have hcalls : ∀ {ds}, syscalls b'.trace = syscalls b.trace ++ ds → syscalls u = ds := by
    intro ds hds
    rw [htrace, syscalls_append] at hds
    exact List.append_cancel_left hds
  obtain ⟨ctx', s', t'⟩ := b'
  rcases hcall with rfl | rfl
  · obtain ⟨o, hpossible, rfl, hds⟩ := outcome_of_reach h
    rw [hcalls hds] at hkernel hgrants
    have hlife := LifeStep.init (l := b.life) o hpossible hgrants
    dsimp only at hds hkernel
    simp only [Stage.life, hds, hkernel]
    exact hlife
  · have hpost := ((qspiDeInit_issued b.ctx hfd).bind fun ctx' => Triple.ret
      (Q := fun r => OnCalls fun ds => r.1 = deInitContext b.ctx ∧
        ds = syscalls b.trace ++ deInitCalls b.ctx)
      (a := (ctx', (none : Option Int))) (stable_onCalls _) fun _ _ hs => hs).returns rfl h
    obtain ⟨rfl, hds⟩ := hpost
    rw [hcalls hds] at hkernel
    dsimp only at hds hkernel
    simp only [Stage.life, hds, hkernel]
    exact LifeStep.deInit (l := b.life)

lemma LifeStep.holding {l l' : Life} {call : Call} (h : LifeStep page l call l') : l'.Holding := by
  cases h with
  | init o hpossible =>
    intro hinit
    cases o with
    | noMemory fd => cases hinit
    | noRegisters fd => cases hinit
    | ready fd fspi iomux ccm =>
      simp [InitOutcome.context, InitOutcome.calls, heldNext, hpossible.1]
  | deInit =>
    intro hinit
    by_cases hdone : l.ctx.initDone = false
    · simp [deInitContext, hdone] at hinit
    · simp [deInitContext, hdone] at hinit

lemma lifecycle_holding {ms : List (Made Process HostAction)} {b : Stage Process HostAction}
    (h : History (lifecycle page) ms b) : b.life.Holding := by
  refine h.invariant (I := fun b => b.life.Holding) ?_ (fun _ _ hb _ => hb) ?_
  · rintro b ⟨hctx, -, -⟩ hinit
    simp only [Stage.life, hctx] at hinit
    cases hinit
  · intro b b' call r hb hcall hreach
    exact (lifeStep_of_reach hcall hb hreach).holding

/-- **The lifecycle rule.** -/
theorem lifecycle_induction {I : List (Made Process HostAction) → Life → Prop}
    (hstart : ∀ k : Kernel, k.Untouched → I [] ⟨.zero, k, []⟩)
    (helsewhere : ∀ ms (l : Life) k, I ms l → l.kernel.Elsewhere k → I ms { l with kernel := k })
    (hcall : ∀ ms (m : Made Process HostAction), I ms m.before.life →
      LifeStep page m.before.life m.call m.after.life → I (ms ++ [m]) m.after.life)
    {ms : List (Made Process HostAction)} {b : Stage Process HostAction}
    (h : History (lifecycle page) ms b) : I ms b.life := by
  induction h with
  | start h =>
    obtain ⟨hctx, htrace, hkernel⟩ := h
    simp only [Stage.life, hctx, htrace, syscalls_nil]
    exact hstart _ hkernel
  | elsewhere _ hmove ih => exact helsewhere _ _ _ ih hmove.2
  | call call hb hallowed hreach ih =>
    exact hcall _ ⟨call, _, _⟩ ih (lifeStep_of_reach hallowed (lifecycle_holding hb) hreach)

/-- The system calls of a call that has returned. -/
def Made.calls (m : Made Process HostAction) : List Syscall :=
  m.after.life.calls.drop m.before.life.calls.length

lemma Made.calls_eq {m : Made Process HostAction} {ds : List Syscall}
    (h : m.after.life.calls = m.before.life.calls ++ ds) : m.calls = ds := by
  rw [Made.calls, h, List.drop_left]

/-- Each call of a lifecycle is such a step. -/
lemma lifeStep_of_mem {ms : List (Made Process HostAction)} {b : Stage Process HostAction}
    (h : History (lifecycle page) ms b) {m : Made Process HostAction} (hm : m ∈ ms) :
    LifeStep page m.before.life m.call m.after.life := by
  obtain ⟨ms', r, hbefore, hallowed, hreach⟩ := h.made hm
  exact lifeStep_of_reach hallowed (lifecycle_holding hbefore) hreach

/-! ## A lifecycle to look at -/

/-- A process whose first three descriptors are taken, where `open` answers `fd`. -/
def newProcess (fd : Int) : Process where
  kernel := {
    pages := fun _ => .free
    descriptors := fun fd => if 0 ≤ fd ∧ fd < 3 then .other else .nobody }
  cells := fun _ => 0#32
  fd := fd
  place := 0x10000
  value := 0#32

lemma newProcess_untouched (fd : Int) : (newProcess fd).kernel.Untouched := by
  refine ⟨fun p => ?_, fun fd' => ?_⟩
  · rintro ⟨frame, hframe⟩
    cases hframe
  · simp only [newProcess]
    split <;> exact nofun

/-- The zeroed context of a new process. -/
def newStage (fd : Int) : Stage Process HostAction := ⟨.zero, newProcess fd, []⟩

lemma start_newStage (page : PageSize) (fd : Int) : (lifecycle page).Start (newStage fd) :=
  ⟨rfl, rfl, newProcess_untouched fd⟩

/-- A `QSPI_Init` in which `open` answers `fd` and the mappings go to the given places; the second
and the third fail where the place is 0. -/
def initSchedule (fd : Int) (fspi iomux ccm : Nat) : Call × List (Tick HostAction) :=
  (.init, [.env (.setFd fd), .env (.setPlace fspi)] ++ List.replicate 3 .prog ++
    [.env (.setPlace iomux)] ++ List.replicate (if iomux = 0 then 3 else 9) .prog ++
    [.env (.setPlace ccm)] ++ List.replicate (if ccm = 0 then 6 else 12) .prog)

def deInitSchedule : Call × List (Tick HostAction) := (.deInit, List.replicate 5 .prog)

end QspiTool
