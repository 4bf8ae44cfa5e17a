import QspiTool.Host.Holdings

/-!
# What is left over

`QSPI_Init` overwrites the handles of the context without looking at them, so a `QSPI_Init` on an
initialised context loses the descriptor and the mappings of the one before: no later call names
them, and the descriptor stays open for good (`LifeStep.lost`).  While every `QSPI_Init` is made on
a context that is not initialised, everything acquired and not released is named by the context
(`Accounted`), and nothing is left once the context is not initialised.

What the driver closes is its own in any case.  The kernel and the trace agree at every point on
which descriptors are the driver's (`Tracks`), an initialised context holds its descriptor
(`Life.Holding`), and so every `close` is of a descriptor the driver holds.
-/

namespace QspiTool

open Words Interaction Machine

variable {page : PageSize}

/-- The mappings the context names, with the lengths they are asked for with. -/
def QspiContext.regions (page : PageSize) (ctx : QspiContext) : List (Nat × Nat) :=
  [(ctx.mapFspi, Reg.size), (ctx.mapIomux, page.bytes), (ctx.mapCcm, pageSize64K)]

/-- Everything acquired and not released is named by the context, and nothing is left when it is
not initialised. -/
structure NoLeak (page : PageSize) (l : Life) : Prop where
  fd (fd : Int) : l.kernel.descriptors fd = .driver → fd = l.ctx.fd
  pages (p : Nat) : l.kernel.Owns p → ∃ r ∈ l.ctx.regions page, page.covers r.1 r.2 p = true
  down : l.ctx.initDone = false → l.kernel.Untouched

/-! ## Lifecycles that keep account -/

/-- As `NoLeak`, and the mappings named are whole pages. -/
structure Accounted (page : PageSize) (l : Life) : Prop where
  fd (fd : Int) : l.kernel.descriptors fd = .driver → fd = l.ctx.fd
  pages (p : Nat) : l.kernel.Owns p →
    ∃ r ∈ l.ctx.regions page, r.1 % page.bytes = 0 ∧ page.covers r.1 r.2 p = true
  down : l.ctx.initDone = false → l.kernel.Untouched

lemma Accounted.noLeak {l : Life} (h : Accounted page l) : NoLeak page l where
  fd := h.fd
  pages p hp := by
    obtain ⟨r, hr, -, hcovers⟩ := h.pages p hp
    exact ⟨r, hr, hcovers⟩
  down := h.down

lemma Kernel.Untouched.accounted {l : Life} (h : l.kernel.Untouched) : Accounted page l where
  fd fd hfd := absurd hfd (h.2 fd)
  pages p hp := absurd hp (h.1 p)
  down _ := h

lemma Accounted.elsewhere {l : Life} {k : Kernel} (h : Accounted page l)
    (hmove : l.kernel.Elsewhere k) :
    Accounted page { l with kernel := k } := by
  have howns : ∀ p, k.Owns p → l.kernel.Owns p := fun p ⟨frame, hframe⟩ =>
    ⟨frame, (hmove.1 p frame).mp hframe⟩
  refine ⟨fun fd hfd => h.fd fd ((hmove.2 fd).mp hfd), fun p hp => h.pages p (howns p hp),
    fun hdown => ⟨fun p hp => (h.down hdown).1 p (howns p hp), fun fd hfd => ?_⟩⟩
  exact (h.down hdown).2 fd ((hmove.2 fd).mp hfd)

/-- From a kernel in which the driver holds nothing. -/
lemma InitOutcome.accounted {l : Life} (h : l.kernel.Untouched) {o : InitOutcome}
    (hpossible : o.Possible) (hgrants : l.kernel.GrantsAll page (o.calls page)) :
    Accounted page ⟨o.context page l.ctx, l.kernel.afterAll page (o.calls page),
      l.calls ++ o.calls page⟩ := by
  cases o with
  | noMemory fd =>
    apply Kernel.Untouched.accounted
    have hneg : ¬ 0 ≤ fd := Int.not_le.mpr hpossible
    simpa only [calls, Kernel.afterAll_cons, Kernel.afterAll_nil, Kernel.after, if_neg hneg] using h
  | noRegisters fd =>
    apply Kernel.Untouched.accounted
    refine ⟨fun p hp => ?_, fun fd' => ?_⟩
    · simp only [calls, Kernel.afterAll_cons, Kernel.afterAll_nil, Kernel.owns_after_closed,
        Kernel.owns_after_mapped, Kernel.owns_after_opened, ne_eq, not_true, false_and,
        or_false] at hp
      exact h.1 p hp
    · have hpos : 0 ≤ fd := hpossible
      simp only [calls, Kernel.afterAll_cons, Kernel.afterAll_nil, Kernel.after, if_pos hpos,
        if_true]
      by_cases heq : fd' = fd
      · simp [heq]
      · simp [heq, h.2 fd']
  | ready fd fspi iomux ccm =>
    obtain ⟨-, hfspi, hiomux, hccm, -⟩ := hgrants
    refine ⟨fun fd' hfd' => ?_, fun p hp => ?_, fun hinit => Bool.noConfusion hinit⟩
    · by_contra hne
      have hne' : fd' ≠ fd := hne
      simp [calls, Kernel.after, hpossible.1, hne', h.2 fd', apply_ite Kernel.descriptors] at hfd'
    · simp only [calls, Kernel.afterAll_cons, Kernel.afterAll_nil, Kernel.owns_after_mapped,
        Kernel.owns_after_opened] at hp
      rcases hp with ((hp | ⟨hne, hcovers⟩) | ⟨hne, hcovers⟩) | ⟨hne, hcovers⟩
      · exact absurd hp (h.1 p)
      · exact ⟨(fspi, Reg.size), by simp [QspiContext.regions, context],
          hfspi.aligned hne, hcovers⟩
      · exact ⟨(iomux, page.bytes), by simp [QspiContext.regions, context],
          hiomux.aligned hne, hcovers⟩
      · exact ⟨(ccm, pageSize64K), by simp [QspiContext.regions, context],
          hccm.aligned hne, hcovers⟩

/-- `QSPI_DeInit` unmaps at least the pages its context names. -/
lemma deInit_owns {k : Kernel} {ctx : QspiContext} (hinit : ¬ ctx.initDone = false) {p : Nat}
    (hp : (k.afterAll page (deInitCalls ctx)).Owns p) :
    k.Owns p ∧ ∀ r ∈ ctx.regions page, ¬ (r.1 % page.bytes = 0 ∧ page.covers r.1 r.2 p = true) := by
  simp only [deInitCalls, if_neg hinit, Kernel.afterAll_cons, Kernel.afterAll_nil,
    Kernel.owns_after_closed, Kernel.owns_after_unmapped] at hp
  obtain ⟨⟨⟨⟨howns, hiomux⟩, hfspi⟩, hccm⟩, -⟩ := hp
  refine ⟨howns, fun r hr => ?_⟩
  simp only [QspiContext.regions, List.mem_cons, List.not_mem_nil, or_false] at hr
  rcases hr with rfl | rfl | rfl
  · exact hfspi
  · -- the first page is among the 64 KB
    rintro ⟨halign, hcovers⟩
    refine hiomux ⟨halign, ?_⟩
    obtain ⟨hfirst, hlast⟩ := PageSize.covers_iff.mp hcovers
    refine PageSize.covers_iff.mpr ⟨hfirst, ?_⟩
    obtain ⟨q, hq⟩ := Nat.dvd_of_mod_eq_zero halign
    dsimp only at hlast hq ⊢
    rw [hq, ← Nat.mul_succ, Nat.mul_comm] at hlast
    have hp : p ≤ q := Nat.le_of_lt_succ (Nat.lt_of_mul_lt_mul_left hlast)
    have hmul := Nat.mul_le_mul_left page.bytes hp
    have hlength : 0 < pageSize64K := by decide
    rw [Nat.mul_comm p, hq]
    omega
  · exact hccm

lemma Accounted.deInit {l : Life} (h : Accounted page l) :
    Accounted page ⟨deInitContext l.ctx, l.kernel.afterAll page (deInitCalls l.ctx),
      l.calls ++ deInitCalls l.ctx⟩ := by
  apply Kernel.Untouched.accounted
  by_cases hinit : l.ctx.initDone = false
  · simpa only [deInitCalls, if_pos hinit, Kernel.afterAll_nil] using h.down hinit
  · refine ⟨fun p hp => ?_, fun fd hfd => ?_⟩
    · obtain ⟨howns, hnot⟩ := deInit_owns hinit hp
      obtain ⟨r, hr, hregion⟩ := h.pages p howns
      exact hnot r hr hregion
    · simp only [deInitCalls, if_neg hinit, Kernel.afterAll_cons, Kernel.afterAll_nil] at hfd
      by_cases heq : fd = l.ctx.fd
      · simp [Kernel.after, heq] at hfd
      · refine heq (h.fd fd ?_)
        simpa [Kernel.after, heq, apply_ite Kernel.descriptors] using hfd

/-! ## Lifecycles that have lost a descriptor -/

/-- The driver holds a descriptor that the context does not name. -/
def Lost (l : Life) : Prop := ∃ fd, l.kernel.descriptors fd = .driver ∧ fd ≠ l.ctx.fd

/-- No call closes a descriptor that the context does not name, and `QSPI_Init` names a new one. -/
lemma LifeStep.lost {l l' : Life} {call : Call} (h : LifeStep page l call l')
    (htracks : Tracks l.kernel l.calls) {fd : Int} (hfd : l.kernel.descriptors fd = .driver)
    (hother : call = .init ∨ fd ≠ l.ctx.fd) : Lost l' := by
  have hpos : 0 ≤ fd := htracks.pos fd ((htracks.driver fd).mpr hfd)
  refine ⟨fd, ?_⟩
  cases h with
  | init o hpossible hgrants =>
    -- the kernel has not given `fd` away again
    have hnew : ∀ fd', (0 ≤ fd' → l.kernel.descriptors fd' = .nobody) → 0 ≤ fd' → fd ≠ fd' := by
      rintro fd' hfree hpos' rfl
      rw [hfree hpos'] at hfd
      cases hfd
    cases o with
    | noMemory fd' =>
      have hneg : fd' < 0 := hpossible
      have hne : fd ≠ fd' := by omega
      refine ⟨?_, hne⟩
      simpa [InitOutcome.calls, Kernel.after, Int.not_le.mpr hneg] using hfd
    | noRegisters fd' =>
      have hpos' : 0 ≤ fd' := hpossible
      have hne := hnew fd' hgrants.1 hpos'
      refine ⟨?_, fun heq => ?_⟩
      · simpa [InitOutcome.calls, Kernel.after, hpos', hne] using hfd
      · change fd = -1 at heq
        omega
    | ready fd' fspi iomux ccm =>
      have hne := hnew fd' hgrants.1 hpossible.1
      refine ⟨?_, hne⟩
      simpa [InitOutcome.calls, Kernel.after, hpossible.1, apply_ite Kernel.descriptors, hne]
        using hfd
  | deInit =>
    have hne := hother.resolve_left fun hcall => Call.noConfusion hcall
    by_cases hinit : l.ctx.initDone = false
    · simp only [deInitCalls, deInitContext, if_pos hinit, Kernel.afterAll_nil]
      exact ⟨hfd, hne⟩
    · simp only [deInitCalls, deInitContext, if_neg hinit, Kernel.afterAll_cons,
        Kernel.afterAll_nil]
      refine ⟨?_, by omega⟩
      simpa [Kernel.after, apply_ite Kernel.descriptors, hne] using hfd

/-! ## Lifecycles without a leak -/

/-- Each `QSPI_Init` has been called on a context that was not initialised. -/
def InitsWhenDown (ms : List (Made Process HostAction)) : Prop :=
  ∀ m ∈ ms, m.call = .init → m.before.ctx.initDone = false

lemma initsWhenDown_snoc {ms : List (Made Process HostAction)} {m : Made Process HostAction} :
    InitsWhenDown (ms ++ [m]) ↔
      InitsWhenDown ms ∧ (m.call = .init → m.before.life.ctx.initDone = false) := by
  simp only [InitsWhenDown, List.forall_mem_append, List.forall_mem_singleton]
  exact Iff.rfl

/-- What a lifecycle amounts to. -/
structure Balance (page : PageSize) (ms : List (Made Process HostAction)) (l : Life) : Prop where
  tracks : Tracks l.kernel l.calls
  holding : l.Holding
  accounted : InitsWhenDown ms → Accounted page l
  lost : ¬ InitsWhenDown ms → Lost l

lemma Balance.step {ms : List (Made Process HostAction)} {m : Made Process HostAction}
    (h : Balance page ms m.before.life)
    (hstep : LifeStep page m.before.life m.call m.after.life) :
    Balance page (ms ++ [m]) m.after.life where
  tracks := hstep.tracks h.tracks
  holding := hstep.holding
  accounted := by
    intro hinits
    obtain ⟨hbefore, hlast⟩ := initsWhenDown_snoc.mp hinits
    generalize hl : m.after.life = l at hstep
    cases hcall : m.call with
    | init =>
      rw [hcall] at hstep
      cases hstep with
      | init o hpossible hgrants =>
        have huntouched := (h.accounted hbefore).down (hlast hcall)
        exact InitOutcome.accounted huntouched hpossible hgrants
    | deInit =>
      rw [hcall] at hstep
      cases hstep with
      | deInit => exact (h.accounted hbefore).deInit
    | setupLut lut len => rw [hcall] at hstep; cases hstep
    | busy => rw [hcall] at hstep; cases hstep
    | transfer kind addr buffer size => rw [hcall] at hstep; cases hstep
  lost := by
    intro hinits
    by_cases hbefore : InitsWhenDown ms
    · -- this call was the first `QSPI_Init` on an initialised context
      have hlast : m.call = .init ∧ m.before.life.ctx.initDone = true := by
        by_contra hnot
        refine hinits (initsWhenDown_snoc.mpr ⟨hbefore, fun hcall => ?_⟩)
        exact Bool.eq_false_iff.mpr fun hdone => hnot ⟨hcall, hdone⟩
      have hfd := (h.tracks.driver _).mp (h.holding hlast.2)
      exact hstep.lost h.tracks hfd (.inl hlast.1)
    · obtain ⟨fd, hfd, hne⟩ := h.lost hbefore
      exact hstep.lost h.tracks hfd (.inr hne)

lemma lifecycle_balance {ms : List (Made Process HostAction)} {b : Stage Process HostAction}
    (h : History (lifecycle page) ms b) : Balance page ms b.life := by
  refine lifecycle_induction ?_ ?_ (fun _ _ hb hstep => hb.step hstep) h
  · intro k hk
    exact ⟨hk.tracks, fun hinit => absurd hinit Bool.false_ne_true, fun _ => hk.accounted,
      fun hnot => absurd (List.forall_mem_nil _) hnot⟩
  · intro ms l k hb hmove
    refine ⟨hb.tracks.elsewhere hmove, hb.holding,
      fun hinits => (hb.accounted hinits).elsewhere hmove, fun hinits => ?_⟩
    obtain ⟨fd, hfd, hne⟩ := hb.lost hinits
    exact ⟨fd, (hmove.2 fd).mpr hfd, hne⟩

/-- **When nothing leaks.**  After any sequence of `QSPI_Init` and `QSPI_DeInit`, exactly when no
`QSPI_Init` of it was called on an initialised context. -/
theorem no_leak_iff {ms : List (Made Process HostAction)} {b : Stage Process HostAction}
    (h : History (lifecycle page) ms b) : NoLeak page b.life ↔ InitsWhenDown ms := by
  have hbalance := lifecycle_balance h
  constructor
  · intro hnoleak
    by_contra hinits
    obtain ⟨fd, hfd, hne⟩ := hbalance.lost hinits
    exact hne (hnoleak.fd fd hfd)
  · exact fun hinits => (hbalance.accounted hinits).noLeak

theorem no_leak_iff_again :
    ∃ ms b, History (lifecycle smallPage) ms b ∧ ms.length = 3 ∧ b.ctx.initDone = true ∧
      NoLeak smallPage b.life := by
  obtain ⟨ms, b, hhistory, htest⟩ := Setting.exists_history (w := lifecycle smallPage)
    [initSchedule 3 0x10000 0x20000 0x30000, deInitSchedule,
      initSchedule 3 0x10000 0x20000 0]
    (fun ms b => decide (ms.length = 3) && b.ctx.initDone && ms.all fun m =>
      decide (Made.call m = .init → m.before.ctx.initDone = false))
    (start_newStage smallPage 3) (by simp [lifecycle, initSchedule, deInitSchedule])
    (by decide +kernel)
  simp only [Bool.and_eq_true, decide_eq_true_eq, List.all_eq_true] at htest
  obtain ⟨⟨hlength, hinit⟩, hdown⟩ := htest
  exact ⟨ms, b, hhistory, hlength, hinit, (no_leak_iff hhistory).mpr hdown⟩

/-- **A second `QSPI_Init` leaks the descriptor of the first.** -/
theorem second_init_leaks :
    ¬ ∀ (page : PageSize) (ms : List (Made Process HostAction)) (b : Stage Process HostAction),
      History (lifecycle page) ms b → NoLeak page b.life := by
  intro hevery
  obtain ⟨ms, b, hhistory, htest⟩ := Setting.exists_history (w := lifecycle smallPage)
    [initSchedule 3 0x10000 0x20000 0x30000, initSchedule 4 0x40000 0x50000 0x60000]
    (fun _ b => decide (b.state.kernel.descriptors 3 = .driver) && decide (b.ctx.fd = 4))
    (start_newStage smallPage 3) (by simp [lifecycle, initSchedule]) (by decide +kernel)
  simp only [Bool.and_eq_true, decide_eq_true_eq] at htest
  have heq : 3 = b.ctx.fd := (hevery smallPage ms b hhistory).fd 3 htest.1
  rw [htest.2] at heq
  exact absurd heq (by decide)

/-! ## Whose descriptors are closed -/

/-- The driver has opened `fd` and not closed it since, and the kernel agrees. -/
structure HoldsFd (fd : Int) (s : Process) (t : HostTrace) : Prop where
  pos : 0 ≤ fd
  opened : fd ∈ held (syscalls t)
  once : (held (syscalls t)).Nodup
  driver : s.kernel.descriptors fd = .driver

lemma Tracks.holdsFd {s : Process} {t : HostTrace} (h : Tracks s.kernel (syscalls t)) {fd : Int}
    (hfd : fd ∈ held (syscalls t)) : HoldsFd fd s t where
  pos := h.pos fd hfd
  opened := hfd
  once := h.once
  driver := (h.driver fd).mp hfd

/-- **The driver closes its own descriptors only.**  Whatever `open` and `mmap` answer, at every
point of every sequence of `QSPI_Init` and `QSPI_DeInit` a descriptor about to be closed is one
that the driver has opened and not closed since, and so is the descriptor of an initialised
context. -/
theorem closes_own_descriptors {ms : List (Made Process HostAction)}
    {b : Stage Process HostAction} (h : History (lifecycle page) ms b) :
    (∀ call : Call, call = .init ∨ call = .deInit → ∀ c,
      (process page).Reach ⟨call.run b.ctx, b.state, b.trace⟩ c →
      ∀ fd, c.prog.head = .call (.close fd) → HoldsFd fd c.state c.trace) ∧
    (b.ctx.initDone = true → HoldsFd b.ctx.fd b.state b.trace) := by
  have htracks : Tracks b.state.kernel (syscalls b.trace) := lifecycle_tracks h
  have hholding : b.ctx.initDone = true → b.ctx.fd ∈ held (syscalls b.trace) :=
    lifecycle_holding h
  constructor
  · intro call hcall c hreach fd hclose
    -- what has happened inside the call so far keeps the kernel and the trace in step
    obtain ⟨u, htrace, hkernel, hgrants⟩ := reach_kernel hreach
    have htracks' : Tracks c.state.kernel (syscalls c.trace) := by
      rw [htrace, hkernel, syscalls_append]
      exact htracks.afterAll hgrants
    have hdone : c.prog.head ≠ .done := by
      rw [hclose]
      exact nofun
    have howned := (call_owned hcall hholding).guarantee rfl hreach hdone
    exact htracks'.holdsFd (howned fd hclose)
  · intro hinit
    exact htracks.holdsFd (hholding hinit)

theorem closes_own_descriptors_reused :
    ∃ ms b, History (lifecycle smallPage) ms b ∧ b.ctx.initDone = true ∧
      HoldsFd 3 b.state b.trace := by
  obtain ⟨ms, b, hhistory, htest⟩ := Setting.exists_history (w := lifecycle smallPage)
    [initSchedule 3 0x10000 0x20000 0x30000, deInitSchedule,
      initSchedule 3 0x10000 0x20000 0x30000]
    (fun _ b => b.ctx.initDone && decide (b.ctx.fd = 3))
    (start_newStage smallPage 3) (by simp [lifecycle, initSchedule, deInitSchedule])
    (by decide +kernel)
  obtain ⟨hinit, hfd⟩ := (Bool.and_eq_true _ _).mp htest
  have hholds := (closes_own_descriptors hhistory).2 hinit
  rw [of_decide_eq_true hfd] at hholds
  exact ⟨ms, b, hhistory, hinit, hholds⟩

end QspiTool
