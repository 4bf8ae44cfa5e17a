import QspiTool.Host.Calls
import QspiTool.Host.Clock

/-!
# What the public calls do to the clocks

Between two calls a live pointer shows the FlexSPI registers with the module enabled, and the gate
and the root are as the history of the mappings says (`Steady`).  `QSPI_Init` disables the module,
sets the gate and the root if it can map the clock controller, and enables the module again whether
it could or not; the other calls stay away from the three cells.  So each call keeps this, and what
it does on the way is proper (`call_steady`).
-/

namespace QspiTool

open Words Interaction Machine

variable {page : PageSize} {α : Type} {R U : Facts} {a x : Nat}

/-! ## The steps of `QSPI_Init` -/

/-- The FlexSPI registers are shown at `fspi`. -/
structure Facing (page : PageSize) (fspi : Nat) (k : Kernel) (cells : Nat → Word)
    (cs : List Syscall) : Prop where
  wired : Wired page cells cs
  regs : k.Shows page fspi flexspiBase 4096
  aligned : fspi % 4 = 0

/-- They are, and the module is disabled. -/
def FacingOff (page : PageSize) (fspi : Nat) : Facts := fun k cells cs =>
  Facing page fspi k cells cs ∧ Disabled cells

/-- Between the mapping of the clock controller and the enabling of the clock root. -/
structure Clocking (page : PageSize) (fspi ccm : Nat) (k : Kernel) (cells : Nat → Word)
    (cs : List Syscall) : Prop where
  regs : k.Shows page fspi flexspiBase 4096
  aligned : fspi % 4 = 0
  disabled : Disabled cells
  clocked : Clocked page cs
  ccm : k.Shows page ccm ccmBase 65536

variable {fspi : Nat}

lemma Facing.after_mapped {k : Kernel} {cells : Nat → Word} {cs : List Syscall}
    (h : Facing page fspi k cells cs) {map size offset : Nat}
    (hgrants : k.Grants page (.mapped map size offset))
    (hc : ∀ a, Syscall.mapped map size offset ≠
      .mapped a pageSize64K (pageBase ccmBase page.bytes)) :
    Facing page fspi (k.after page (.mapped map size offset)) cells
      (cs ++ [.mapped map size offset]) where
  wired := h.wired.snoc hc
  regs := h.regs.mono hgrants.keeps
  aligned := h.aligned

/-- A store to a register that is none of the three cells. -/
lemma Facing.update {k : Kernel} {cells : Nat → Word} {cs : List Syscall}
    (h : Facing page fspi k cells cs) (hx : x ≠ gateCell ∧ x ≠ rootCell) (v : Word) :
    Facing page fspi k (Function.update cells x v) cs where
  wired := h.wired.update hx v
  regs := h.regs
  aligned := h.aligned

lemma legal_flexspi (hR : ∀ k cells cs, R k cells cs → Wired page cells cs) {off : Nat}
    (hoff : off ≠ Reg.ipcmd) : Legal page R (flexspiBase + off) where
  wired h _ := hR _ _ _ h
  root _ hx := by
    have hlt : rootCell < flexspiBase := by decide
    omega
  trigger _ hx := absurd (Nat.add_left_cancel hx) hoff

/-- Below the FlexSPI registers only the clock root is restricted. -/
lemma legal_below (hx : x < flexspiBase)
    (hroot : x = rootCell → ∀ k cells cs, R k cells cs → Disabled cells) : Legal page R x where
  wired _ := fun ⟨off, _, hoff⟩ => by omega
  root h hx := hroot hx _ _ _ h
  trigger _ hx' := by omega

/-- The pads lie in front of the clock controller. -/
lemma setPads_on {iomux : Nat} {pads : List Nat} (hpads : ∀ pad ∈ pads, pad < 4096) :
    (process page).Triple (Proper page)
      (On fun k cells cs => Facing page fspi k cells cs ∧ k.Shows page iomux iomuxcBase 4096)
      (setPads iomux pads)
      fun _ => On fun k cells cs =>
        Facing page fspi k cells cs ∧ k.Shows page iomux iomuxcBase 4096 := by
  induction pads with
  | nil => exact ret_on ()
  | cons pad pads ih =>
    have hpad := hpads pad List.mem_cons_self
    have hlt : iomuxcBase + 4096 < gateCell ∧ gateCell < rootCell ∧ rootCell < flexspiBase := by
      decide
    refine Triple.bind ?_ fun _ => ih fun pad' hpad' => hpads pad' (List.mem_cons_of_mem _ hpad')
    refine store_on (legal_below (x := iomuxcBase + pad) (by omega) fun hx => by omega) ?_ ?_
    · exact fun k cells cs hs => hs.2 pad hpad
    · exact fun k cells cs hs => ⟨hs.1.update ⟨by omega, by omega⟩ _, hs.2⟩

/-- With pages of 64 KB the mapping of the pads is as long as that of the clock controller, and its
offset is another. -/
lemma iomux_ne_ccm (map a : Nat) :
    Syscall.mapped map page.bytes (pageBase iomuxcBase page.bytes) ≠
      .mapped a pageSize64K (pageBase ccmBase page.bytes) := by
  intro heq
  injection heq with _ hsize hoffset
  rw [hsize] at hoffset
  exact absurd hoffset (by decide)

lemma iomuxInit_on (ctx : QspiContext) (hpage : ctx.pageSize = page.bytes) :
    (process page).Triple (Proper page) (On (Facing page fspi)) (iomuxInit ctx) fun ctx' s t =>
      On (Facing page fspi) s t ∧ ∃ map, ctx' = { ctx with mapIomux := map } := by
  have hret : ∀ map, (process page).Triple (Proper page) (On (Facing page fspi))
      (.ret { ctx with mapIomux := map } : Driver QspiContext) fun ctx' s t =>
      On (Facing page fspi) s t ∧ ∃ map, ctx' = { ctx with mapIomux := map } := fun map =>
    Triple.ret (stable_and_const (stable_on _) _) fun s t hs => ⟨hs, map, rfl⟩
  unfold iomuxInit
  refine (check_on _).bind fun _ => Triple.of_pure fun _ => ?_
  refine mapMemory_bind (F := Facing page fspi) (U := fun map k cells cs =>
    Facing page fspi k cells cs ∧
      k.Shows page (map + pageOffset iomuxcBase ctx.pageSize) iomuxcBase 4096)
    (fun _ _ _ => id) ctx.fd iomuxcBase ctx.pageSize hpage ?_ ?_ (hret mapFailed) fun map _ => ?_
  · intro k cells cs hs
    rw [hpage]
    exact ⟨hs.wired.snoc (iomux_ne_ccm mapFailed), hs.regs, hs.aligned⟩
  · intro map k cells cs hmap hs hgrants
    rw [hpage] at hgrants ⊢
    refine ⟨hs.after_mapped hgrants (iomux_ne_ccm map), ?_⟩
    exact hgrants.shows hmap (by decide) (by decide) page.bytes_pos (.inl (Nat.le_refl _))
      (by decide)
  · exact (setPads_on (by decide)).bind fun _ => (hret map).pre fun _ _ hs => hs.1

/-- A store to the clock controller, with the module disabled. -/
lemma Clocking.update {ccm : Nat} {k : Kernel} {cells : Nat → Word} {cs : List Syscall}
    (h : Clocking page fspi ccm k cells cs) (hx : x < flexspiBase) (v : Word) :
    Clocking page fspi ccm k (Function.update cells x v) cs where
  regs := h.regs
  aligned := h.aligned
  disabled := by
    have hne : mcr0Cell ≠ x := by
      have hle : flexspiBase ≤ mcr0Cell := by decide
      omega
    rw [Disabled, Function.update_of_ne hne]
    exact h.disabled
  clocked := h.clocked
  ccm := h.ccm

/-- The gate has been set. -/
def Gated (page : PageSize) (fspi ccm : Nat) : Facts := fun k cells cs =>
  Clocking page fspi ccm k cells cs ∧ GateOn cells

lemma Gated.update_root {ccm : Nat} {k : Kernel} {cells : Nat → Word} {cs : List Syscall}
    (h : Gated page fspi ccm k cells cs) (v : Word) :
    Gated page fspi ccm k (Function.update cells rootCell v) cs := by
  refine ⟨h.1.update (by decide) v, ?_⟩
  rw [GateOn, Function.update_of_ne (by decide)]
  exact h.2

lemma rootEnabled_or (cells : Nat → Word) (v : Word) :
    RootEnabled (Function.update cells rootCell (v ||| bit 28)) := by
  rw [RootEnabled, Function.update_self, BitVec.getLsbD_or, getLsbD_bit]
  simp

/-- The registers of the clock controller may be accessed while it is mapped. -/
lemma Clocking.legal {ccm : Nat} (off : Nat) (hoff : off < 65536)
    {R : Facts} (hR : ∀ k cells cs, R k cells cs → Clocking page fspi ccm k cells cs) :
    Legal page R (ccmBase + off) ∧ ∀ k cells cs, R k cells cs → k.phys page (ccm + off) =
      some (ccmBase + off) := by
  have hlt : ccmBase + 65536 < flexspiBase := by decide
  refine ⟨legal_below (by omega) ?_, ?_⟩
  · exact fun _ k cells cs hs => (hR k cells cs hs).disabled
  · exact fun k cells cs hs => (hR k cells cs hs).ccm off hoff

/-- An `mmap` that fails leaves the clock as it was. -/
lemma FacingOff.after_failed {k : Kernel} {cells : Nat → Word} {cs : List Syscall}
    (h : FacingOff page fspi k cells cs) (size offset : Nat) :
    FacingOff page fspi k cells (cs ++ [.mapped mapFailed size offset]) := by
  have hclocked : Clocked page (cs ++ [.mapped mapFailed size offset]) ↔ Clocked page cs := by
    refine clocked_snoc.trans (or_iff_left ?_)
    rintro ⟨a, ha, heq⟩
    injection heq with heq
    exact ha heq.symm
  exact ⟨⟨⟨fun hc => h.1.wired.on (hclocked.mp hc), fun hnot =>
    h.1.wired.off fun hc => hnot (hclocked.mpr hc)⟩, h.1.regs, h.1.aligned⟩, h.2⟩

/-- One that is granted makes the registers of the clock controller accessible. -/
lemma FacingOff.clocking {k : Kernel} {cells : Nat → Word} {cs : List Syscall}
    (h : FacingOff page fspi k cells cs) {map : Nat} (hmap : map ≠ mapFailed)
    (hgrants : k.Grants page (.mapped map pageSize64K (pageBase ccmBase page.bytes))) :
    Clocking page fspi (map + pageOffset ccmBase page.bytes)
      (k.after page (.mapped map pageSize64K (pageBase ccmBase page.bytes))) cells
      (cs ++ [.mapped map pageSize64K (pageBase ccmBase page.bytes)]) where
  regs := h.1.regs.mono hgrants.keeps
  aligned := h.1.aligned
  disabled := h.2
  clocked := clocked_snoc.mpr (.inr ⟨map, hmap, rfl⟩)
  ccm := hgrants.shows hmap (by decide) (by decide) (by decide) (.inr (by decide)) (by decide)

/-- The gate is on and the root enabled. -/
lemma Gated.facingOff {ccm : Nat} {k : Kernel} {cells : Nat → Word} {cs : List Syscall}
    (h : Gated page fspi ccm k cells cs) (hroot : RootEnabled cells) :
    FacingOff page fspi k cells cs :=
  ⟨⟨⟨fun _ => ⟨h.2, hroot⟩, fun hnot => absurd h.1.clocked hnot⟩, h.1.regs, h.1.aligned⟩,
    h.1.disabled⟩

lemma clockInit_on (ctx : QspiContext) (hpage : ctx.pageSize = page.bytes) (mux pre post : Word) :
    (process page).Triple (Proper page) (On (FacingOff page fspi)) (clockInit ctx mux pre post)
      fun ctx' s t => On (FacingOff page fspi) s t ∧ ∃ map, ctx' = { ctx with mapCcm := map } := by
  have hret : ∀ map, (process page).Triple (Proper page) (On (FacingOff page fspi))
      (.ret { ctx with mapCcm := map } : Driver QspiContext) fun ctx' s t =>
      On (FacingOff page fspi) s t ∧ ∃ map, ctx' = { ctx with mapCcm := map } := fun map =>
    Triple.ret (stable_and_const (stable_on _) _) fun s t hs => ⟨hs, map, rfl⟩
  unfold clockInit
  refine (check_on _).bind fun _ => Triple.of_pure fun _ => ?_
  refine mapMemory_bind (fun _ _ _ => id) ctx.fd ccmBase pageSize64K hpage
    (fun k cells cs hs => hs.after_failed _ _)
    (fun map k cells cs hmap hs hgrants => hs.clocking hmap hgrants) (hret mapFailed)
    fun map _ => ?_
  rw [← hpage]
  generalize hccm : map + pageOffset ccmBase ctx.pageSize = ccm
  dsimp only
  rw [if_neg (by decide), hccm]
  -- the gate first, then the root
  obtain ⟨hlegal, hphys⟩ :=
    Clocking.legal ccmCcgr47 (R := Clocking page fspi ccm) (by decide) fun _ _ _ hs => hs
  refine (store_on (U := Gated page fspi ccm) hlegal hphys ?_).bind fun _ => ?_
  · exact fun k cells cs hs => ⟨hs.update (by decide) _, Function.update_self ..⟩
  obtain ⟨hlegal, hphys⟩ := Clocking.legal ccmCcgr47 (R := Gated page fspi ccm)
    (by decide) fun _ _ _ hs => hs.1
  refine (load_on hlegal hphys).bind fun _ => ?_
  obtain ⟨hlegal, hphys⟩ := Clocking.legal qspiClkRoot (R := Gated page fspi ccm)
    (by decide) fun _ _ _ hs => hs.1
  refine (store_on (U := Gated page fspi ccm) hlegal hphys fun _ _ _ hs =>
    hs.update_root _).bind fun _ => ?_
  refine (orReg_on (U := fun k cells cs => Gated page fspi ccm k cells cs ∧ RootEnabled cells)
    hlegal hphys fun v k cells cs hs =>
      ⟨hs.update_root _, rootEnabled_or cells v⟩).bind fun _ => ?_
  obtain ⟨hlegal, hphys⟩ := Clocking.legal qspiClkRoot
    (R := fun k cells cs => Gated page fspi ccm k cells cs ∧ RootEnabled cells)
    (by decide) fun _ _ _ hs => hs.1.1
  refine (load_on hlegal hphys).bind fun _ => ?_
  exact (hret map).pre fun s t hs => Gated.facingOff hs.1 hs.2

lemma disabled_or (cells : Nat → Word) (v : Word) :
    Disabled (Function.update cells mcr0Cell (v ||| bit 1)) := by
  rw [Disabled, Function.update_self, BitVec.getLsbD_or, getLsbD_bit]
  simp

lemma not_disabled_and (cells : Nat → Word) (v : Word) :
    ¬ Disabled (Function.update cells mcr0Cell (v &&& ~~~mcr0Mdis)) := by
  rw [Disabled, Function.update_self, mcr0Mdis, getLsbD_and_not _ _ (by decide), getLsbD_bit]
  simp

/-- With the FlexSPI registers mapped, `QSPI_Init` disables the module while it sets the clocks, and
enables it at the end. -/
lemma bringUp_on (ctx : QspiContext) (hpage : ctx.pageSize = page.bytes) :
    (process page).Triple (Proper page) (On (Facing page ctx.flexspi)) (bringUp ctx) fun ctx' s t =>
      On (fun k cells cs => Facing page ctx.flexspi k cells cs ∧ ¬ Disabled cells) s t ∧
        ctx'.flexspi = ctx.flexspi := by
  have hmcr0 : ∀ {R : Facts}, (∀ k cells cs, R k cells cs → Facing page ctx.flexspi k cells cs) →
      ∀ off < 4096, off ≠ Reg.ipcmd → Legal page R (flexspiBase + off) ∧
        ∀ k cells cs, R k cells cs → k.phys page (ctx.flexspi + off) = some (flexspiBase + off) :=
    fun hR off hoff hne => ⟨legal_flexspi (fun k cells cs hs => (hR k cells cs hs).wired) hne,
      fun k cells cs hs => (hR k cells cs hs).regs off hoff⟩
  unfold bringUp
  refine (iomuxInit_on ctx hpage).bind fun _ => Triple.of_pure ?_
  rintro ⟨mapIomux, rfl⟩
  obtain ⟨hlegal, hphys⟩ := hmcr0 (R := Facing page ctx.flexspi) (fun _ _ _ hs => hs) Reg.mcr0
    (by decide) (by decide)
  refine (orReg_on (U := FacingOff page ctx.flexspi) hlegal hphys fun v k cells cs hs =>
    ⟨hs.update (by decide) _, disabled_or cells v⟩).bind fun _ => ?_
  refine (clockInit_on { ctx with mapIomux := mapIomux } hpage _ _ _).bind fun _ =>
    Triple.of_pure ?_
  rintro ⟨mapCcm, rfl⟩
  obtain ⟨hlegal, hphys⟩ := hmcr0 (R := FacingOff page ctx.flexspi) (fun _ _ _ hs => hs.1) Reg.mcr0
    (by decide) (by decide)
  refine (orReg_on (U := FacingOff page ctx.flexspi) hlegal hphys fun v k cells cs hs =>
    ⟨hs.1.update (by decide) _, disabled_or cells v⟩).bind fun _ => ?_
  obtain ⟨hlegal', hphys'⟩ := hmcr0 (R := FacingOff page ctx.flexspi) (fun _ _ _ hs => hs.1)
    Reg.inten (by decide) (by decide)
  refine (store_on (U := Facing page ctx.flexspi) hlegal' hphys' fun k cells cs hs =>
    hs.1.update (by decide) _).bind fun _ => ?_
  obtain ⟨hlegal, hphys⟩ := hmcr0 (R := Facing page ctx.flexspi) (fun _ _ _ hs => hs) Reg.mcr0
    (by decide) (by decide)
  refine (load_on hlegal hphys).bind fun mcr0 => ?_
  refine (store_on (U := fun k cells cs => Facing page ctx.flexspi k cells cs ∧ ¬ Disabled cells)
    hlegal hphys fun k cells cs hs =>
      ⟨hs.update (by decide) _, not_disabled_and cells mcr0⟩).bind fun _ => ?_
  exact Triple.ret (stable_and_const (stable_on _) _) fun s t hs => ⟨hs, rfl⟩

/-! ## Between two calls -/

/-- What holds between two calls: a live pointer shows the registers, with the module enabled. -/
structure Steady (page : PageSize) (fspi : Nat) (k : Kernel) (cells : Nat → Word)
    (cs : List Syscall) : Prop where
  wired : Wired page cells cs
  pointer : (k.Shows page fspi flexspiBase 4096 ∧ ¬ Disabled cells) ∨ k.Hides page fspi 4096
  aligned : fspi % 4 = 0

/-- A system call that maps nothing. -/
def Syscall.MapsNothing : Syscall → Prop
  | .mapped a _ _ => a = mapFailed
  | .opened _ | .closed _ | .unmapped _ _ => True

lemma Steady.after {k : Kernel} {cells : Nat → Word} {cs : List Syscall}
    (h : Steady page fspi k cells cs) (c : Syscall) (hc : c.MapsNothing) :
    Steady page fspi (k.after page c) cells (cs ++ [c]) := by
  have hpages : ∀ p, (k.after page c).pages p = k.pages p ∨ (k.after page c).pages p = .free := by
    intro p
    cases c with
    | opened fd => exact .inl (by rw [Kernel.after_opened_pages])
    | closed fd => exact .inl rfl
    | mapped map size offset =>
      have hmap : map = mapFailed := hc
      exact .inl (by rw [Kernel.after, if_pos hmap])
    | unmapped map size =>
      by_cases halign : map % page.bytes = 0
      · by_cases hcovers : page.covers map size p = true
        · exact .inr (by simp only [Kernel.after, if_pos halign, if_pos hcovers])
        · exact .inl (by simp only [Kernel.after, if_pos halign, if_neg hcovers])
      · exact .inl (by simp only [Kernel.after, if_neg halign])
  have hclocked : Clocked page (cs ++ [c]) ↔ Clocked page cs := by
    rw [clocked_snoc]
    apply or_iff_left
    rintro ⟨map, hmap, rfl⟩
    exact hmap hc
  refine ⟨⟨fun hon => h.wired.on (hclocked.mp hon), fun hoff => h.wired.off fun hon =>
    hoff (hclocked.mpr hon)⟩, ?_, h.aligned⟩
  rcases h.pointer with ⟨hshows, henabled⟩ | hhides
  · exact (hshows.or_hides (by decide) hpages).imp_left fun hshows => ⟨hshows, henabled⟩
  · exact .inr (hhides.mono hpages)

lemma Facing.steady {k : Kernel} {cells : Nat → Word} {cs : List Syscall}
    (h : Facing page fspi k cells cs) (henabled : ¬ Disabled cells) :
    Steady page fspi k cells cs :=
  ⟨h.wired, .inl ⟨h.regs, henabled⟩, h.aligned⟩

/-- `request_flexspi_memory` shows the registers at a new pointer, or leaves the old one. -/
lemma requestFlexspiMemory_on (ctx : QspiContext) (hpage : ctx.pageSize = page.bytes) :
    (process page).Triple (Proper page) (On (Steady page ctx.flexspi)) (requestFlexspiMemory ctx)
      fun r s t =>
        (On (Steady page ctx.flexspi) s t ∧ r.2 ≠ 0 ∧ r.1.flexspi = ctx.flexspi) ∨
        (On (Facing page r.1.flexspi) s t ∧ r.2 = 0 ∧ r.1.pageSize = page.bytes) := by
  have hstable : ∀ r : QspiContext × Int, (process page).Stable fun s t =>
      (On (Steady page ctx.flexspi) s t ∧ r.2 ≠ 0 ∧ r.1.flexspi = ctx.flexspi) ∨
      (On (Facing page r.1.flexspi) s t ∧ r.2 = 0 ∧ r.1.pageSize = page.bytes) := fun r =>
    stable_on fun k cells cs =>
      (Steady page ctx.flexspi k cells cs ∧ r.2 ≠ 0 ∧ r.1.flexspi = ctx.flexspi) ∨
      (Facing page r.1.flexspi k cells cs ∧ r.2 = 0 ∧ r.1.pageSize = page.bytes)
  unfold requestFlexspiMemory
  refine mapMemory_bind (F := Steady page ctx.flexspi)
    (U := fun map => Facing page (map + pageOffset flexspiBase ctx.pageSize)) (fun _ _ _ => id)
    ctx.fd flexspiBase Reg.size hpage ?_ ?_ ?_ fun map _ => ?_
  · exact fun k cells cs hs => hs.after (.mapped mapFailed _ _) rfl
  · intro map k cells cs hmap hs hgrants
    rw [hpage]
    refine ⟨hs.wired.snoc fun a ha => ?_, ?_, ?_⟩
    · injection ha with _ hsize
      exact absurd hsize (by decide)
    · exact hgrants.shows hmap (by decide) (by decide) (by decide) (.inl (Nat.le_refl _))
        (by decide)
    · obtain ⟨c, hc⟩ := page.dvd_bytes
      have hdiv : map % 4096 = 0 := Nat.mod_eq_zero_of_dvd
        (Nat.dvd_trans ⟨c, hc⟩ (Nat.dvd_of_mod_eq_zero (hgrants.aligned hmap)))
      have hoffset : flexspiBase % page.bytes % 4096 = flexspiBase % 4096 :=
        Nat.mod_mod_of_dvd _ ⟨c, hc⟩
      have hbase : flexspiBase % 4096 = 0 := by decide
      rw [pageOffset_eq]
      omega
  · exact Triple.ret (hstable _) fun s t hs => .inl ⟨hs, (by decide : (-1 : Int) ≠ 0), rfl⟩
  · exact Triple.ret (hstable _) fun s t hs => .inr ⟨hs, rfl, hpage⟩

/-! ## The public calls -/

theorem qspiInit_on (ctx : QspiContext) :
    (process page).Triple (Proper page) (On (Steady page ctx.flexspi)) (qspiInit ctx) fun ctx' =>
      On (Steady page ctx'.flexspi) := by
  unfold qspiInit
  refine Triple.bind (Q := fun size s t => On (Steady page ctx.flexspi) s t ∧ size = page.bytes)
    (Triple.op (stable_on _) (fun _ => stable_and_const (stable_on _) _)
      (fun s t _ => proper_of_none rfl s t) ?_) fun size => Triple.of_pure ?_
  · intro s t hs
    rw [On, syscalls_snoc]
    exact ⟨(List.append_nil (syscalls t)).symm ▸ hs, rfl⟩
  rintro rfl
  refine (check_on _).bind fun _ => Triple.of_pure fun _ => ?_
  refine (check_on _).bind fun _ => Triple.of_pure fun _ => ?_
  refine Triple.bind (Q := fun _ => On (Steady page ctx.flexspi)) ?_ fun fd => ?_
  · exact call_on rfl fun fd k cells cs hs _ => hs.after (.opened fd) trivial
  · dsimp only
    by_cases hfd : (show Int from fd) < 0
    · rw [if_pos hfd]
      exact ret_on (R := Steady page ctx.flexspi)
        { ctx with fd := fd, pageSize := page.bytes, initDone := false }
    · rw [if_neg hfd]
      refine (requestFlexspiMemory_on
        { ctx with fd := fd, pageSize := page.bytes, initDone := false } rfl).bind
          fun r => Triple.or ?_ ?_
      · apply Triple.of_pure
        rintro ⟨hr, hflexspi⟩
        rw [if_pos hr]
        refine Triple.bind (Q := fun _ => On (Steady page ctx.flexspi)) ?_ fun _ => ?_
        · exact call_on rfl fun _ k cells cs hs _ => hs.after (.closed _) trivial
        · dsimp only at hflexspi
          rw [← hflexspi]
          exact ret_on (R := Steady page r.1.flexspi) { r.1 with fd := -1 }
      · apply Triple.of_pure
        rintro ⟨hr, hpage⟩
        rw [if_neg fun hne => hne hr]
        refine (bringUp_on r.1 hpage).post fun ctx' s t hs => ?_
        rw [hs.2]
        exact hs.1.1.steady hs.1.2

/-- `QSPI_DeInit` only takes pages away. -/
theorem qspiDeInit_on (ctx : QspiContext) :
    (process page).Triple (Proper page) (On (Steady page ctx.flexspi)) (qspiDeInit ctx)
      fun ctx' => On (Steady page ctx'.flexspi) := by
  have hunmap : ∀ a size, (process page).Triple (Proper page) (On (Steady page ctx.flexspi))
      (munmap a size) fun _ => On (Steady page ctx.flexspi) := fun a size =>
    call_on rfl fun _ k cells cs hs _ => hs.after (.unmapped a size) trivial
  unfold qspiDeInit
  by_cases hinit : ctx.initDone = false
  · rw [if_pos hinit]
    exact ret_on (R := Steady page ctx.flexspi) ctx
  · rw [if_neg hinit]
    refine (hunmap _ _).bind fun _ => (hunmap _ _).bind fun _ => (hunmap _ _).bind fun _ =>
      (hunmap _ _).bind fun _ => ?_
    refine Triple.bind (Q := fun _ => On (Steady page ctx.flexspi)) ?_ fun _ => ?_
    · exact call_on rfl fun _ k cells cs hs _ => hs.after (.closed _) trivial
    · exact ret_on (R := Steady page ctx.flexspi) { ctx with fd := -1, initDone := false }

/-- Within the first page of the registers, with no store to `MCR0`. -/
def Plain (fspi : Nat) (d : Head bus) : Prop :=
  Within fspi 4096 d ∧ ∀ a, touched d = some a → stored d ≠ none → fspi + 4 ≤ a

lemma plain_load {off : Nat} (h : off < 4096) : Plain fspi (.call (.load (fspi + off))) :=
  ⟨within_load h, fun _ _ hne => absurd rfl hne⟩

lemma plain_store {off : Nat} (h : off < 4096) (hpos : 4 ≤ off) (v : Word) :
    Plain fspi (.call (.store (fspi + off) v)) := by
  refine ⟨within_store h v, fun a ha _ => ?_⟩
  obtain rfl := Option.some.inj ha
  omega

lemma plain_of_flagHead {d : Head bus} (h : FlagHead fspi d) : Plain fspi d := by
  cases h with
  | loadIntr => exact plain_load (by decide)
  | storeIntr v => exact plain_store (by decide) (by decide) v
  | loadStatus hoff =>
    have hlt := hoff.2
    exact plain_load (by omega)
  | storeStatus v hoff =>
    obtain ⟨hle, hlt⟩ := hoff
    exact plain_store (by omega) (by omega) v

lemma plain_of_transferHead {d : Head bus} (h : TransferHead fspi d) : Plain fspi d := by
  refine ⟨within_of_transferHead h, fun a ha hne => ?_⟩
  cases h with
  | flag h => exact (plain_of_flagHead h).2 a ha hne
  | loadControl hoff => exact absurd rfl hne
  | storeControl v hoff =>
    obtain ⟨hle, hlt⟩ := hoff
    exact (plain_store (by omega) (by omega) v : Plain fspi _).2 a ha hne
  | write h =>
    cases h with
    | flag h => exact (plain_of_flagHead h).2 a ha hne
    | wait => exact absurd rfl hne
    | chunk h =>
      cases h with
      | read32 a => cases ha
      | read8 a => cases ha
      | @fill i v hi =>
        exact (plain_store (by simp only [Reg.tfdr]; omega) (by simp only [Reg.tfdr]; omega) v :
          Plain fspi _).2 a ha hne
  | read h =>
    cases h with
    | flag h => exact (plain_of_flagHead h).2 a ha hne
    | wait => exact absurd rfl hne
    | chunk h =>
      cases h with
      | fetch hi => exact absurd rfl hne
      | write32 a v => cases ha
      | write8 a b => cases ha
  | done => exact absurd rfl hne

lemma plain_of_lutHead {d : Head bus} (h : LutHead fspi d) : Plain fspi d := by
  refine ⟨within_of_lutHead h, fun a ha hne => ?_⟩
  cases h with
  | lock v hoff =>
    rcases hoff with rfl | rfl <;>
      exact (plain_store (by decide) (by decide) v : Plain fspi _).2 a ha hne
  | read8 a => cases ha
  | @store8 i b hi =>
    obtain rfl := Option.some.inj ha
    simp only [Reg.lut]
    omega

lemma plain_abort : Plain fspi .abort := ⟨within_abort, nofun⟩

/-- A store behind `MCR0` changes none of the three cells. -/
lemma Steady.setCell {s : Process} {cs : List Syscall}
    (h : Steady page fspi s.kernel s.cells cs) {off : Nat} (hpos : 4 ≤ off) (hoff : off < 4096)
    (f : Word → Word) :
    Steady page fspi (s.setCell page (fspi + off) f).kernel
      (s.setCell page (fspi + off) f).cells cs := by
  have hlt : gateCell < flexspiBase ∧ rootCell < flexspiBase ∧ mcr0Cell < flexspiBase + 4 := by
    decide
  rcases h.pointer with ⟨hshows, henabled⟩ | hhides
  · have hset : s.setCell page (fspi + off) f = { s with
        cells := Function.update s.cells (flexspiBase + off)
          (f (s.cells (flexspiBase + off))) } := by
      simp only [Process.setCell, hshows off hoff]
    rw [hset]
    refine ⟨h.wired.update ⟨by omega, by omega⟩ _, .inl ⟨hshows, ?_⟩, h.aligned⟩
    have hne : mcr0Cell ≠ flexspiBase + off := by omega
    dsimp only
    rw [Disabled, Function.update_of_ne hne]
    exact henabled
  · have hset : s.setCell page (fspi + off) f = s := by
      simp only [Process.setCell, hhides off hoff]
    rw [hset]
    exact h

lemma steady_exec {o : Access} (ho : Plain fspi (.call o)) {s : Process} {t : HostTrace}
    (h : On (Steady page fspi) s t) :
    On (Steady page fspi) ((process page).exec o s).2
      (t ++ [.call o ((process page).exec o s).1]) := by
  obtain ⟨hwithin, hstore⟩ := ho
  have hsame : ∀ s' : Process, s'.kernel = s.kernel → s'.cells = s.cells →
      ∀ e, syscall? e = none → On (Steady page fspi) s' (t ++ [e]) := by
    intro s' hkernel hcells e he
    rw [On, hkernel, hcells, syscalls_snoc, he]
    exact (List.append_nil (syscalls t)).symm ▸ h
  have hcalls : ∀ e, syscall? e = none → syscalls (t ++ [e]) = syscalls t := by
    intro e he
    rw [syscalls_snoc, he]
    exact List.append_nil _
  cases o with
  | store a v =>
    obtain ⟨off, hoff, rfl⟩ := hwithin.1 a rfl
    have hpos := hstore _ rfl (Option.some_ne_none _)
    rw [On, hcalls _ rfl]
    exact h.setCell (by omega) hoff fun _ => v
  | store8 a b =>
    obtain ⟨off, hoff, rfl⟩ := hwithin.1 a rfl
    have hpos := hstore _ rfl (Option.some_ne_none _)
    have haligned := h.aligned
    -- the word is in the same page as the byte
    have hword : 4 * ((fspi + off) / 4) = fspi + 4 * (off / 4) := by omega
    rw [On, hcalls _ rfl]
    change Steady page fspi (s.setCell page (4 * ((fspi + off) / 4)) _).kernel
      (s.setCell page (4 * ((fspi + off) / 4)) _).cells (syscalls t)
    rw [hword]
    exact h.setCell (by omega) (by omega) _
  | openMem => exact hwithin.2.elim
  | mmap size fd offset => exact hwithin.2.elim
  | munmap a size => exact hwithin.2.elim
  | close fd =>
    rw [On, syscalls_snoc]
    exact h.after (.closed fd) trivial
  | load a => exact hsame s rfl rfl _ rfl
  | read8 a => exact hsame s rfl rfl _ rfl
  | read32 a => exact hsame s rfl rfl _ rfl
  | write8 a b => exact hsame s rfl rfl _ rfl
  | write32 a v => exact hsame s rfl rfl _ rfl
  | pageSize => exact hsame s rfl rfl _ rfl

lemma steady_proper {d : Head bus} (hd : Plain fspi d) {s : Process} {t : HostTrace}
    (h : On (Steady page fspi) s t) : Proper page d s t := by
  obtain ⟨hwithin, hstore⟩ := hd
  have hlt : rootCell < flexspiBase := by decide
  have hwrites : ∀ {x}, Writes page d s.kernel x →
      ¬ Disabled s.cells ∧ flexspiBase ≤ x := by
    rintro x ⟨a, ha, hx⟩
    have haligned := h.aligned
    have hword : ∃ off < 4096, a = fspi + off := by
      cases d with
      | call o =>
        cases o with
        | store a' v =>
          obtain rfl := Option.some.inj ha
          exact hwithin.1 _ rfl
        | store8 a' b =>
          obtain ⟨off, hoff, rfl⟩ := hwithin.1 a' rfl
          obtain rfl := Option.some.inj ha
          exact ⟨4 * (off / 4), by omega, by omega⟩
        | _ => cases ha
      | _ => cases ha
    obtain ⟨off, hoff, rfl⟩ := hword
    rcases h.pointer with ⟨hshows, henabled⟩ | hhides
    · obtain rfl := Option.some.inj ((hshows off hoff).symm.trans hx)
      exact ⟨henabled, by omega⟩
    · rw [hhides off hoff] at hx
      cases hx
  refine ⟨fun _ => h.wired, fun hroot => ?_, fun htrigger => (hwrites htrigger).1⟩
  have hle := (hwrites hroot).2
  omega

/-- **Programs that stay behind `MCR0`.** -/
lemma plain_on {φ : Head bus → Prop} {p : Driver α} (hp : p.Every φ)
    (hφ : ∀ d, φ d → Plain fspi d) :
    (process page).Triple (Proper page) (On (Steady page fspi)) p
      fun _ => On (Steady page fspi) := by
  refine Triple.invariant hp (stable_on _) ?_ ?_ ?_
  · exact fun d s t hd hs => steady_proper (hφ d hd) hs
  · exact fun o s t ho hs => steady_exec (hφ _ ho) hs
  · intro w s t _ hs
    rw [On, syscalls_snoc]
    exact (List.append_nil (syscalls t)).symm ▸ hs

/-- **Every public call keeps what holds between the calls.** -/
theorem call_steady (ctx : QspiContext) (call : Call) :
    (process page).Triple (Proper page) (On (Steady page ctx.flexspi)) (call.run ctx) fun r =>
      On (Steady page r.1.flexspi) := by
  have hreturn : ∀ r : QspiContext × Option Int, (process page).Triple (Proper page)
      (On (Steady page r.1.flexspi)) (.ret r) fun r => On (Steady page r.1.flexspi) := fun r =>
    Triple.ret (stable_on _) fun _ _ hs => hs
  cases call with
  | init => exact (qspiInit_on ctx).bind fun ctx' => hreturn (ctx', none)
  | deInit => exact (qspiDeInit_on ctx).bind fun ctx' => hreturn (ctx', none)
  | setupLut lut len =>
    refine (plain_on (qspiSetupLut_every ctx lut len) ?_).bind fun _ => hreturn (ctx, none)
    rintro d (hd | ⟨rfl, -⟩)
    · exact plain_of_lutHead hd
    · exact plain_abort
  | busy =>
    exact (plain_on (qspiBusy_every ctx) fun d => plain_of_flagHead).bind fun r =>
      hreturn (ctx, some r)
  | transfer kind addr buffer size =>
    refine (plain_on (kind.run_every ctx addr buffer size) ?_).bind fun r => hreturn (ctx, some r)
    rintro d (hd | rfl)
    · exact plain_of_transferHead hd
    · exact plain_abort

end QspiTool
