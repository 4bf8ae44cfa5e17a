import QspiTool.Host.Holdings

/-!
# What `QSPI_DeInit` unmaps

On an initialised context `QSPI_DeInit` makes four `munmap`s.  `map_rdc` is never set, so the last
one takes the first 64 KB of the address space, which no mapping of the driver covers; and the first
one takes 64 KB from `map_iomux` on, where `iomux_init` has mapped one page.  So it unmaps what is
not the driver's exactly when there is something in these two ranges, and it never keeps to one
mapping for each `munmap` (`deInit_unmaps_own_iff`).
-/

namespace QspiTool

open Words Interaction Machine

variable {page : PageSize}

/-! ## Mappings and unmappings -/

/-- The driver has mapped `size` bytes at `a`, and no `munmap` has touched them since. -/
def LiveMapping (page : PageSize) (cs : List Syscall) (a size : Nat) : Prop :=
  ∃ cs₁ offset cs₂, cs = cs₁ ++ .mapped a size offset :: cs₂ ∧ a ≠ mapFailed ∧
    ∀ a' size', .unmapped a' size' ∈ cs₂ → a' % page.bytes = 0 →
      ∀ p, ¬ (page.covers a size p = true ∧ page.covers a' size' p = true)

/-- Unmapping `size` bytes at `a` unmaps exactly one live mapping, with its own length. -/
def UnmapsOne (page : PageSize) (cs : List Syscall) (a size : Nat) : Prop :=
  LiveMapping page cs a size ∧
    ∀ a' size', LiveMapping page cs a' size' →
      (∃ p, page.covers a size p = true ∧ page.covers a' size' p = true) → a' = a ∧ size' = size

/-- The call leaves the pages that are not the driver's as they are. -/
def Spares (m : Made Process HostAction) : Prop :=
  ∀ p, ¬ m.before.state.kernel.Owns p →
    m.after.state.kernel.pages p = m.before.state.kernel.pages p

/-- Each `munmap` of the call unmaps exactly one live mapping, and nothing else changes. -/
def UnmapsOwn (page : PageSize) (m : Made Process HostAction) : Prop :=
  (∀ cs a size cs', m.calls = cs ++ .unmapped a size :: cs' →
    UnmapsOne page (syscalls m.before.trace ++ cs) a size) ∧ Spares m

/-- Nobody else has a page in the first 64 KB, nor in the 64 KB from `map_iomux` on. -/
def NoNeighbours (page : PageSize) (ctx : QspiContext) (k : Kernel) : Prop :=
  ∀ p, k.pages p = .other → page.covers 0 pageSize64K p = false ∧
    (ctx.mapIomux ≠ mapFailed → page.covers ctx.mapIomux pageSize64K p = false)

/-! ## The handle that is never mapped -/

lemma mapFailed_unaligned (page : PageSize) : mapFailed % page.bytes ≠ 0 := by
  intro h
  have hdvd : 4096 ∣ mapFailed := Nat.dvd_trans page.dvd_bytes (Nat.dvd_of_mod_eq_zero h)
  exact absurd hdvd (by decide)

lemma Kernel.GrantsAll.ne_zero {k : Kernel} {cs : List Syscall} (h : k.GrantsAll page cs)
    {a size offset : Nat} (hmem : .mapped a size offset ∈ cs) : a ≠ 0 := by
  induction cs generalizing k with
  | nil => cases hmem
  | cons c cs ih =>
    obtain ⟨hc, hcs⟩ := h
    rcases List.mem_cons.mp hmem with rfl | hmem
    · rcases hc with rfl | ⟨hpos, -⟩
      · decide
      · exact Nat.ne_of_gt hpos
    · exact ih hcs hmem

/-- `map_rdc` is `NULL`, and nothing has been mapped there. -/
structure RdcNull (l : Life) : Prop where
  rdc : l.ctx.mapRdc = 0
  never (size offset : Nat) : .mapped 0 size offset ∉ l.calls

lemma LifeStep.rdcNull {l l' : Life} {call : Call} (h : LifeStep page l call l')
    (hl : RdcNull l) : RdcNull l' := by
  have hgranted : ∀ {ds : List Syscall}, l.kernel.GrantsAll page ds →
      ∀ size offset, .mapped 0 size offset ∉ l.calls ++ ds := by
    intro ds hds size offset hmem
    rcases List.mem_append.mp hmem with hmem | hmem
    · exact hl.never size offset hmem
    · exact hds.ne_zero hmem rfl
  cases h with
  | init o _ hgrants =>
    refine ⟨?_, hgranted hgrants⟩
    cases o <;> exact hl.rdc
  | deInit =>
    refine ⟨?_, hgranted (grantsAll_deInitCalls _ _)⟩
    simp only [deInitContext]
    split <;> exact hl.rdc

lemma lifecycle_rdcNull {ms : List (Made Process HostAction)} {b : Stage Process HostAction}
    (h : History (lifecycle page) ms b) : RdcNull b.life :=
  lifecycle_induction (I := fun _ l => RdcNull l) (fun _ _ => ⟨rfl, fun _ _ => List.not_mem_nil⟩)
    (fun _ _ _ hl _ => ⟨hl.rdc, hl.never⟩) (fun _ _ hl hstep => hstep.rdcNull hl) h

lemma not_liveMapping_null {l : Life} (h : RdcNull l) {cs : List Syscall}
    (hcs : ∀ size offset, .mapped 0 size offset ∉ cs) (size : Nat) :
    ¬ LiveMapping page (l.calls ++ cs) 0 size := by
  rintro ⟨cs₁, offset, cs₂, heq, -, -⟩
  have hmem : .mapped 0 size offset ∈ l.calls ++ cs := by
    rw [heq]
    simp
  rcases List.mem_append.mp hmem with hmem | hmem
  · exact h.never size offset hmem
  · exact hcs size offset hmem

/-! ## The pages after `QSPI_DeInit` -/

lemma after_unmapped_pages {k : Kernel} {a size p : Nat} :
    (k.after page (.unmapped a size)).pages p =
      if a % page.bytes = 0 ∧ page.covers a size p = true then .free else k.pages p := by
  by_cases ha : a % page.bytes = 0
  · simp [Kernel.after, ha]
  · simp [Kernel.after, ha]

lemma ite_free_eq_other {c : Prop} [Decidable c] {q : Page} :
    (if c then Page.free else q) = .other ↔ ¬ c ∧ q = .other := by
  by_cases hc : c
  · simp [hc]
  · simp [hc]

/-- A page of somebody else is spared unless one of the four ranges covers it. -/
lemma deInit_other {ctx : QspiContext} {k : Kernel} (hinit : ¬ ctx.initDone = false)
    (hrdc : ctx.mapRdc = 0) {p : Nat} (hp : k.pages p = .other) :
    (k.afterAll page (deInitCalls ctx)).pages p = .other ↔
      ¬ page.covers 0 pageSize64K p = true ∧
      ¬ (ctx.mapCcm % page.bytes = 0 ∧ page.covers ctx.mapCcm pageSize64K p = true) ∧
      ¬ (ctx.mapFspi % page.bytes = 0 ∧ page.covers ctx.mapFspi Reg.size p = true) ∧
      ¬ (ctx.mapIomux % page.bytes = 0 ∧ page.covers ctx.mapIomux pageSize64K p = true) := by
  simp only [deInitCalls, if_neg hinit, hrdc, Kernel.afterAll_cons, Kernel.afterAll_nil,
    Kernel.after_closed_pages, after_unmapped_pages, ite_free_eq_other, hp, Nat.zero_mod, true_and,
    and_true]

lemma deInit_free {ctx : QspiContext} {k : Kernel} {p : Nat} (hp : k.pages p = .free) :
    (k.afterAll page (deInitCalls ctx)).pages p = .free := by
  unfold deInitCalls
  split
  · exact hp
  · simp only [Kernel.afterAll_cons, Kernel.afterAll_nil, Kernel.after_closed_pages,
      after_unmapped_pages, hp, ite_self]

/-! ## What `QSPI_DeInit` unmaps -/

/-- An initialised context names its mappings, which cover no page of anybody else. -/
structure Named (page : PageSize) (ctx : QspiContext) (k : Kernel) : Prop where
  fspi (p : Nat) : page.covers ctx.mapFspi Reg.size p = true → k.Owns p
  ccm (p : Nat) : ctx.mapCcm % page.bytes = 0 → page.covers ctx.mapCcm pageSize64K p = true →
    k.Owns p
  iomux : ctx.mapIomux % page.bytes = 0 ↔ ctx.mapIomux ≠ mapFailed

lemma lifecycle_named {ms : List (Made Process HostAction)} {b : Stage Process HostAction}
    (h : History (lifecycle page) ms b) (hinit : b.ctx.initDone = true) :
    Named page b.ctx b.state.kernel := by
  rcases lifecycle_settles h with ⟨hdown, -⟩ | ⟨fd, fspi, iomux, ccm, hready⟩
  · exact absurd (hdown.symm.trans hinit) Bool.false_ne_true
  · obtain ⟨ctx, hctx⟩ := hready.context
    change Named page b.life.ctx b.life.kernel
    rw [hctx]
    refine ⟨fun p hp => hready.fspi_live.owns hp, fun p halign hp => ?_, fun halign => ?_,
      hready.iomux_aligned⟩
    · refine (hready.ccm_live fun hfailed => ?_).owns hp
      change ccm % page.bytes = 0 at halign
      rw [hfailed] at halign
      exact mapFailed_unaligned page halign
    · rintro hfailed
      rw [hfailed] at halign
      exact mapFailed_unaligned page halign

/-- `QSPI_DeInit` leaves everybody else's pages alone exactly when none of them is in the two ranges
that it has not mapped. -/
lemma spares_iff {m : Made Process HostAction} {k : Kernel} {ctx : QspiContext}
    (hbefore : m.before.life.kernel = k ∧ m.before.life.ctx = ctx)
    (hafter : m.after.life.kernel = k.afterAll page (deInitCalls ctx))
    (hinit : ¬ ctx.initDone = false) (hrdc : ctx.mapRdc = 0) (hnamed : Named page ctx k) :
    Spares m ↔ NoNeighbours page ctx k := by
  obtain ⟨rfl, rfl⟩ := hbefore
  have howns : ∀ {p}, m.before.life.kernel.pages p = .other → ¬ m.before.life.kernel.Owns p := by
    rintro p hp ⟨frame, hframe⟩
    rw [hp] at hframe
    cases hframe
  constructor
  · intro hspares p hp
    have hsame : m.after.life.kernel.pages p = m.before.life.kernel.pages p :=
      hspares p (howns hp)
    rw [hafter, hp] at hsame
    obtain ⟨hnull, -, -, hiomux⟩ := (deInit_other hinit hrdc hp).mp hsame
    refine ⟨Bool.eq_false_iff.mpr hnull, fun hne => Bool.eq_false_iff.mpr fun hcovers => ?_⟩
    exact hiomux ⟨hnamed.iomux.mpr hne, hcovers⟩
  · intro hnone p hp
    change m.after.life.kernel.pages p = m.before.life.kernel.pages p
    rw [hafter]
    cases hpage : m.before.life.kernel.pages p with
    | free => exact deInit_free hpage
    | device frame => exact absurd ⟨frame, hpage⟩ hp
    | other =>
      obtain ⟨hnull, hiomux⟩ := hnone p hpage
      refine (deInit_other hinit hrdc hpage).mpr ⟨Bool.eq_false_iff.mp hnull, ?_, ?_, ?_⟩
      · rintro ⟨halign, hcovers⟩
        exact howns hpage (hnamed.ccm p halign hcovers)
      · rintro ⟨-, hcovers⟩
        exact howns hpage (hnamed.fspi p hcovers)
      · rintro ⟨halign, hcovers⟩
        rw [hiomux (hnamed.iomux.mp halign)] at hcovers
        cases hcovers

/-- **When `QSPI_DeInit` unmaps only what the driver has mapped.**  Each `munmap` unmaps exactly one
live mapping, and nobody else's pages change, exactly when the context is not initialised and there
is no `munmap` at all.  On an initialised context nobody else's pages change exactly when nobody
else has a page in the first 64 KB or in the 64 KB from `map_iomux` on. -/
theorem deInit_unmaps_own_iff {ms : List (Made Process HostAction)}
    {b : Stage Process HostAction} (h : History (lifecycle page) ms b)
    {m : Made Process HostAction} (hm : m ∈ ms) (hcall : m.call = .deInit) :
    (UnmapsOwn page m ↔ m.before.ctx.initDone = false) ∧
    (m.before.ctx.initDone = true →
      (Spares m ↔ NoNeighbours page m.before.ctx m.before.state.kernel)) := by
  obtain ⟨ms', r, hbefore, -, -⟩ := h.made hm
  have hnull := lifecycle_rdcNull hbefore
  obtain ⟨hkernel, hcalls⟩ :
      m.after.life.kernel = m.before.life.kernel.afterAll page (deInitCalls m.before.life.ctx) ∧
      m.calls = deInitCalls m.before.life.ctx := by
    have hstep := lifeStep_of_mem h hm
    rw [hcall] at hstep
    generalize hl : m.after.life = l at hstep
    cases hstep with
    | deInit => exact ⟨rfl, Made.calls_eq (congrArg Life.calls hl)⟩
  constructor
  · constructor
    · rintro ⟨hone, -⟩
      by_contra hinit
      have hup : ¬ m.before.life.ctx.initDone = false := hinit
      have hdeInit : m.calls = [.unmapped m.before.ctx.mapIomux pageSize64K,
          .unmapped m.before.ctx.mapFspi Reg.size, .unmapped m.before.ctx.mapCcm pageSize64K] ++
          .unmapped 0 pageSize64K :: [.closed m.before.ctx.fd] := by
        rw [hcalls, deInitCalls, if_neg hup, hnull.rdc]
        rfl
      refine not_liveMapping_null hnull ?_ _ (hone _ 0 _ _ hdeInit).1
      simp
    · intro hinit
      have hnone : m.calls = [] := by
        rw [hcalls, deInitCalls]
        exact if_pos hinit
      refine ⟨fun cs a size cs' heq => ?_, fun p _ => ?_⟩
      · rw [hnone] at heq
        cases cs <;> cases heq
      · change m.after.life.kernel.pages p = m.before.life.kernel.pages p
        rw [hkernel, ← hcalls, hnone, Kernel.afterAll_nil]
  · intro hinit
    refine spares_iff ⟨rfl, rfl⟩ hkernel ?_ hnull.rdc (lifecycle_named hbefore hinit)
    rw [Bool.not_eq_false]
    exact hinit

/-- A process with a page of somebody else at `0x21000`. -/
def crowdedStage : Stage Process HostAction where
  ctx := .zero
  state := { newProcess 3 with
    kernel := { (newProcess 3).kernel with
      pages := fun p => if p = 0x21 then .other else .free } }
  trace := []

lemma start_crowdedStage : (lifecycle smallPage).Start crowdedStage := by
  refine ⟨rfl, rfl, fun p => ?_, (newProcess_untouched 3).2⟩
  rintro ⟨frame, hframe⟩
  simp only [crowdedStage] at hframe
  split at hframe <;> cases hframe

theorem deInit_unmaps_own_iff_sparse :
    ∃ ms b m, History (lifecycle smallPage) ms b ∧ m ∈ ms ∧ m.call = .deInit ∧
      m.before.ctx.initDone = true ∧ ¬ UnmapsOwn smallPage m ∧
      (Spares m ↔ NoNeighbours smallPage m.before.ctx m.before.state.kernel) := by
  obtain ⟨ms, b, hhistory, htest⟩ := Setting.exists_history (w := lifecycle smallPage)
    [initSchedule 3 0x10000 0x20000 0x30000, deInitSchedule]
    (fun ms _ => ms.any fun m => decide (Made.call m = .deInit) && m.before.ctx.initDone)
    (start_newStage smallPage 3) (by simp [lifecycle, initSchedule, deInitSchedule])
    (by decide +kernel)
  obtain ⟨m, hm, htest⟩ := List.any_eq_true.mp htest
  simp only [Bool.and_eq_true, decide_eq_true_eq] at htest
  obtain ⟨hcall, hinit⟩ := htest
  obtain ⟨hown, hspares⟩ := deInit_unmaps_own_iff hhistory hm hcall
  refine ⟨ms, b, m, hhistory, hm, hcall, hinit, fun hunmaps => ?_, hspares hinit⟩
  rw [hown.mp hunmaps] at hinit
  cases hinit

/-- **`QSPI_DeInit` unmaps the page behind the one it has mapped.** -/
theorem deInit_unmaps_neighbour :
    ¬ ∀ (page : PageSize) (ms : List (Made Process HostAction)) (b : Stage Process HostAction),
      History (lifecycle page) ms b → ∀ m ∈ ms, m.call = .deInit → UnmapsOwn page m := by
  intro hevery
  obtain ⟨ms, b, hhistory, htest⟩ := Setting.exists_history (w := lifecycle smallPage)
    [initSchedule 3 0x10000 0x20000 0x30000, deInitSchedule]
    (fun ms _ => ms.any fun m => decide (Made.call m = .deInit) &&
      decide (m.before.state.kernel.pages 0x21 = .other) &&
      decide (m.after.state.kernel.pages 0x21 = .free))
    start_crowdedStage (by simp [lifecycle, initSchedule, deInitSchedule]) (by decide +kernel)
  obtain ⟨m, hm, htest⟩ := List.any_eq_true.mp htest
  simp only [Bool.and_eq_true, decide_eq_true_eq] at htest
  obtain ⟨⟨hcall, hbefore⟩, hafter⟩ := htest
  have hnot : ¬ m.before.state.kernel.Owns 0x21 := by
    rintro ⟨frame, hframe⟩
    rw [hbefore] at hframe
    cases hframe
  have hsame := (hevery smallPage ms b hhistory m hm hcall).2 0x21 hnot
  rw [hbefore, hafter] at hsame
  cases hsame

end QspiTool
