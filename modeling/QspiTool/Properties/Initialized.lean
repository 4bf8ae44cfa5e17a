import QspiTool.Host.Holdings

/-!
# What an initialised context stands for

`QSPI_Init` sets `init_done` once `open` and the mapping of the FlexSPI registers have succeeded:
`iomux_init` and `clock_init` are `void` functions that return when their `mmap` has failed, and
`QSPI_Init` goes on.  So an initialised context has its registers and its descriptor, and it has
all three mappings exactly when the two that nobody looks at have succeeded as well
(`initialized_iff`).
-/

namespace QspiTool

open Words Interaction Machine

variable {page : PageSize}

/-- `open` and all three `mmap`s have succeeded. -/
def AllGranted (cs : List Syscall) : Prop :=
  (∃ fd, opensOf cs = [fd] ∧ 0 ≤ fd) ∧ (mapsOf cs).length = 3 ∧ mapFailed ∉ mapsOf cs

/-- The descriptor is open and the three mappings are live. -/
structure FullyUp (page : PageSize) (ctx : QspiContext) (k : Kernel) : Prop where
  fd_open : k.descriptors ctx.fd = .driver
  fspi : ctx.mapFspi ≠ mapFailed ∧
    k.Maps page ctx.mapFspi Reg.size (pageBase flexspiBase page.bytes)
  iomux : ctx.mapIomux ≠ mapFailed ∧
    k.Maps page ctx.mapIomux page.bytes (pageBase iomuxcBase page.bytes)
  ccm : ctx.mapCcm ≠ mapFailed ∧
    k.Maps page ctx.mapCcm pageSize64K (pageBase ccmBase page.bytes)

/-- Initialised means fully initialised. -/
def InitializedFully (page : PageSize) (ms : List (Made Process HostAction)) (l : Life) : Prop :=
  (qspiIsInitialized l.ctx = true ↔ LastInit ms AllGranted) ∧
    (l.ctx.initDone = true → FullyUp page l.ctx l.kernel)

/-! ## What an initialised context stands for -/

lemma AllGranted.registers {cs : List Syscall} (h : AllGranted cs) : RegistersGranted cs := by
  obtain ⟨hopen, hlength, hfailed⟩ := h
  refine ⟨hopen, ?_⟩
  cases hmaps : mapsOf cs with
  | nil =>
    rw [hmaps] at hlength
    cases hlength
  | cons a as =>
    refine ⟨a, rfl, ?_⟩
    rintro rfl
    exact hfailed (hmaps ▸ List.mem_cons_self)

lemma LastInit.mono {ms : List (Made Process HostAction)} {met met' : List Syscall → Prop}
    (h : LastInit ms met) (hmet : ∀ cs, met cs → met' cs) : LastInit ms met' := by
  obtain ⟨m, hm, hcall, hcs⟩ := h
  exact ⟨m, hm, hcall, hmet _ hcs⟩

namespace Ready

variable {ms : List (Made Process HostAction)} {l : Life} {fd : Int} {fspi iomux ccm : Nat}

lemma registers (h : Ready page ms l fd fspi iomux ccm) : LastInit ms RegistersGranted := by
  refine h.last.mono ?_
  rintro _ rfl
  exact ⟨⟨fd, rfl, h.possible.1⟩, fspi, rfl, h.possible.2⟩

lemma all_iff (h : Ready page ms l fd fspi iomux ccm) :
    LastInit ms AllGranted ↔ iomux ≠ mapFailed ∧ ccm ≠ mapFailed := by
  constructor
  · rintro ⟨m, hm, -, -, -, hfailed⟩
    obtain ⟨m', hm', -, hcalls⟩ := h.last
    obtain rfl := Option.some.inj (hm.symm.trans hm')
    rw [hcalls] at hfailed
    simp only [mapsOf, InitOutcome.calls, List.filterMap_cons, List.filterMap_nil, List.mem_cons,
      List.not_mem_nil, or_false, not_or] at hfailed
    exact ⟨Ne.symm hfailed.2.1, Ne.symm hfailed.2.2⟩
  · rintro ⟨hiomux, hccm⟩
    refine h.last.mono ?_
    rintro _ rfl
    refine ⟨⟨fd, rfl, h.possible.1⟩, rfl, ?_⟩
    simp only [mapsOf, InitOutcome.calls, List.filterMap_cons, List.filterMap_nil, List.mem_cons,
      List.not_mem_nil, or_false, not_or]
    exact ⟨Ne.symm h.possible.2, Ne.symm hiomux, Ne.symm hccm⟩

lemma fullyUp_iff (h : Ready page ms l fd fspi iomux ccm) :
    FullyUp page l.ctx l.kernel ↔ iomux ≠ mapFailed ∧ ccm ≠ mapFailed := by
  obtain ⟨ctx, hctx⟩ := h.context
  constructor
  · intro hup
    have hiomux := hup.iomux.1
    have hccm := hup.ccm.1
    rw [hctx] at hiomux hccm
    exact ⟨hiomux, hccm⟩
  · rintro ⟨hiomux, hccm⟩
    rw [hctx]
    exact ⟨h.fd_open, ⟨h.possible.2, h.fspi_live⟩, ⟨hiomux, h.iomux_live hiomux⟩,
      ⟨hccm, h.ccm_live hccm⟩⟩

end Ready

/-- **When initialised means fully initialised.**  After any sequence of `QSPI_Init` and
`QSPI_DeInit`, exactly when the last call is not a `QSPI_Init` that has mapped the FlexSPI registers
and missed one of the other two mappings. -/
theorem initialized_iff {ms : List (Made Process HostAction)} {b : Stage Process HostAction}
    (h : History (lifecycle page) ms b) :
    InitializedFully page ms b.life ↔
      (LastInit ms RegistersGranted → LastInit ms AllGranted) := by
  rcases lifecycle_settles h with ⟨hinit, hregisters⟩ | ⟨fd, fspi, iomux, ccm, hready⟩
  · refine iff_of_true ⟨iff_of_false ?_ ?_, ?_⟩ fun hlast => absurd hlast hregisters
    · rw [qspiIsInitialized, hinit]
      exact Bool.false_ne_true
    · exact fun hall => hregisters (hall.mono fun _ => AllGranted.registers)
    · intro hdone
      rw [hinit] at hdone
      cases hdone
  · constructor
    · rintro ⟨-, hup⟩ -
      exact hready.all_iff.mpr (hready.fullyUp_iff.mp (hup hready.initDone))
    · intro hall
      have hgranted := hall hready.registers
      refine ⟨iff_of_true hready.initDone hgranted, fun _ => ?_⟩
      exact hready.fullyUp_iff.mpr (hready.all_iff.mp hgranted)

theorem initialized_iff_once :
    ∃ ms b, History (lifecycle smallPage) ms b ∧ b.ctx.initDone = true ∧
      InitializedFully smallPage ms b.life := by
  obtain ⟨ms, b, hhistory, htest⟩ := Setting.exists_history (w := lifecycle smallPage)
    [initSchedule 3 0x10000 0x20000 0x30000]
    (fun ms b => b.ctx.initDone && ms.getLast?.any fun m => decide (Made.call m = .init) &&
      decide (opensOf m.calls = [3]) && decide (mapsOf m.calls = [0x10000, 0x20000, 0x30000]))
    (start_newStage smallPage 3) (by simp [lifecycle, initSchedule]) (by decide +kernel)
  obtain ⟨hinit, hlast⟩ := (Bool.and_eq_true _ _).mp htest
  obtain ⟨m, hm, hmet⟩ := (Option.any_eq_true _ _).mp hlast
  simp only [Bool.and_eq_true, decide_eq_true_eq] at hmet
  obtain ⟨⟨hcall, hopens⟩, hmaps⟩ := hmet
  refine ⟨ms, b, hhistory, hinit, (initialized_iff hhistory).mpr fun _ => ⟨m, hm, hcall, ?_⟩⟩
  exact ⟨⟨3, hopens, by decide⟩, by rw [hmaps]; rfl, by rw [hmaps]; decide⟩

/-- **An initialised context without a clock controller.**  The third `mmap` fails and `QSPI_Init`
reports success. -/
theorem initialized_without_clock :
    ¬ ∀ (page : PageSize) (ms : List (Made Process HostAction)) (b : Stage Process HostAction),
      History (lifecycle page) ms b → InitializedFully page ms b.life := by
  intro hevery
  obtain ⟨ms, b, hhistory, htest⟩ := Setting.exists_history (w := lifecycle smallPage)
    [initSchedule 3 0x10000 0x20000 0]
    (fun _ b => b.ctx.initDone && decide (b.ctx.mapCcm = mapFailed))
    (start_newStage smallPage 3) (by simp [lifecycle, initSchedule]) (by decide +kernel)
  obtain ⟨hinit, hccm⟩ := (Bool.and_eq_true _ _).mp htest
  exact ((hevery smallPage ms b hhistory).2 hinit).ccm.1 (of_decide_eq_true hccm)

end QspiTool
