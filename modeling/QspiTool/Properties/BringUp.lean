import QspiTool.Host.ClockCalls
import QspiTool.Host.Lifecycle

/-!
# What `QSPI_Init` does

`QSPI_Init` as a function of the answers of the kernel: the context it leaves, the system calls it
makes, and the value of every register of the machine behind them.  A mapping that fails takes its
own registers with it and no others: without the pads or without the clock controller the call
goes on, enables the module and reports success.
-/

namespace QspiTool

open Words Interaction Machine

variable {page : PageSize} {fspi : Nat}

/-! ## The registers afterwards -/

/-- The physical address of `INTEN`. -/
abbrev intenCell : Nat := flexspiBase + Reg.inten

/-- The physical addresses of the pads. -/
def padCells : List Nat := iomuxcPads.map (iomuxcBase + ·)

/-- What the register at the physical address `x` holds after a `QSPI_Init`. -/
def InitOutcome.register (cells : Nat → Word) : InitOutcome → Nat → Word
  | .noMemory _, x | .noRegisters _, x => cells x
  | .ready _ _ iomux ccm, x =>
      if x = mcr0Cell then cells mcr0Cell &&& ~~~mcr0Mdis
      else if x = intenCell then 0x41#32
      else if ccm ≠ mapFailed ∧ x = rootCell then 0x12000007#32
      else if ccm ≠ mapFailed ∧ x = gateCell then 0x3#32
      else if iomux ≠ mapFailed ∧ x ∈ padCells then padValue
      else cells x

/-! ## The cells, store by store -/

/-- Nothing is asked of the accesses. -/
abbrev anyHead : Head bus → Assertion bus Process HostAction := fun _ _ _ => True

variable {R U : Facts} {a x : Nat}

/-- A register that keeps what is stored reads as its cell. -/
lemma load_cell (hkept : Kept x) (hphys : ∀ k cells cs, R k cells cs → k.phys page a = some x) :
    (process page).Triple anyHead (On R) (load a)
      fun v => On fun k cells cs => R k cells cs ∧ v = cells x := by
  refine Triple.op (stable_on R) (fun _ => stable_on _) (fun _ _ _ => trivial) ?_
  intro s t hs
  have hvalue : s.load page a = s.cells x := by
    simp only [Process.load, hphys _ _ _ hs, if_pos hkept]
  rw [On, syscalls_snoc]
  refine ⟨?_, hvalue⟩
  exact (List.append_nil (syscalls t)).symm ▸ hs

lemma store_cell {v : Word} (hphys : ∀ k cells cs, R k cells cs → k.phys page a = some x)
    (hnext : ∀ k cells cs, R k cells cs → U k (Function.update cells x v) cs) :
    (process page).Triple anyHead (On R) (store a v) fun _ => On U := by
  refine Triple.op (stable_on R) (fun _ => stable_on U) (fun _ _ _ => trivial) ?_
  intro s t hs
  have hset : ((process page).exec (.store a v) s).2 =
      { s with cells := Function.update s.cells x v } := by
    change s.setCell page a (fun _ => v) = _
    simp only [Process.setCell, hphys _ _ _ hs]
  rw [On, syscalls_snoc, hset]
  exact (List.append_nil (syscalls t)).symm ▸ hnext _ _ _ hs

/-- The cells are these, and the FlexSPI registers are mapped. -/
def Cells (page : PageSize) (fspi : Nat) (c : Nat → Word) : Facts := fun k cells _ =>
  cells = c ∧ k.Shows page fspi flexspiBase 4096

variable {c : Nat → Word}

lemma Cells.phys {k : Kernel} {cells : Nat → Word} {cs : List Syscall}
    (h : Cells page fspi c k cells cs) {off : Nat} (hoff : off < 4096) :
    k.phys page (fspi + off) = some (flexspiBase + off) :=
  h.2 off hoff

lemma Cells.after_mapped {k : Kernel} {cells : Nat → Word} {cs : List Syscall}
    (h : Cells page fspi c k cells cs) {map size offset : Nat}
    (hgrants : k.Grants page (.mapped map size offset)) (ds : List Syscall) :
    Cells page fspi c (k.after page (.mapped map size offset)) cells ds :=
  ⟨h.1, h.2.mono hgrants.keeps⟩

/-- `*reg |= m` on a FlexSPI register that keeps what is stored. -/
lemma orReg_cells {off : Nat} (hoff : off < 4096) (hkept : Kept (flexspiBase + off)) (m : Word) :
    (process page).Triple anyHead (On (Cells page fspi c)) (orReg (fspi + off) m) fun _ =>
      On (Cells page fspi
        (Function.update c (flexspiBase + off) (c (flexspiBase + off) ||| m))) := by
  refine Triple.bind (load_cell hkept fun _ _ _ hs => hs.phys hoff) fun v => ?_
  refine store_cell (fun _ _ _ hs => hs.1.phys hoff) fun k cells cs hs => ?_
  obtain ⟨⟨rfl, hshows⟩, rfl⟩ := hs
  exact ⟨rfl, hshows⟩

lemma store_cells {off : Nat} (hoff : off < 4096) (v : Word) :
    (process page).Triple anyHead (On (Cells page fspi c)) (store (fspi + off) v) fun _ =>
      On (Cells page fspi (Function.update c (flexspiBase + off) v)) := by
  refine store_cell (fun _ _ _ hs => hs.phys hoff) fun k cells cs hs => ?_
  obtain ⟨rfl, hshows⟩ := hs
  exact ⟨rfl, hshows⟩

lemma anyHead_of_proper (d : Head bus) : ∀ s t, Proper page d s t → anyHead d s t :=
  fun _ _ _ => trivial

/-! ## The cells of another bank -/

/-- The cells are these, and another bank is mapped too. -/
def CellsAt (page : PageSize) (fspi bank base len : Nat) (c : Nat → Word) : Facts :=
  fun k cells cs => Cells page fspi c k cells cs ∧ k.Shows page bank base len

variable {bank base len off : Nat}

lemma CellsAt.phys {k : Kernel} {cells : Nat → Word} {cs : List Syscall}
    (h : CellsAt page fspi bank base len c k cells cs) (hoff : off < len) :
    k.phys page (bank + off) = some (base + off) :=
  h.2 off hoff

/-- A mapping that is granted makes a bank accessible. -/
lemma Cells.at_mapped {k : Kernel} {cells : Nat → Word} {cs : List Syscall}
    (h : Cells page fspi c k cells cs) {map size pageSize : Nat} (hpage : pageSize = page.bytes)
    (hgrants : k.Grants page (.mapped map size (pageBase base page.bytes))) (hmap : map ≠ mapFailed)
    (hbase : base % 65536 = 0) (hbound : base < 2 ^ 64) (hsize : 0 < size)
    (hlen : len ≤ 4096 ∨ len ≤ size) (hle : len ≤ 65536) (ds : List Syscall) :
    CellsAt page fspi (map + pageOffset base pageSize) base len c
      (k.after page (.mapped map size (pageBase base page.bytes))) cells ds := by
  rw [hpage]
  exact ⟨h.after_mapped hgrants ds, hgrants.shows hmap hbase hbound hsize hlen hle⟩

lemma store_cellsAt (hoff : off < len) (v : Word) :
    (process page).Triple anyHead (On (CellsAt page fspi bank base len c)) (store (bank + off) v)
      fun _ => On (CellsAt page fspi bank base len (Function.update c (base + off) v)) := by
  refine store_cell (fun _ _ _ hs => hs.phys hoff) ?_
  rintro k cells cs ⟨⟨rfl, hregs⟩, hshows⟩
  exact ⟨⟨rfl, hregs⟩, hshows⟩

lemma load_cellsAt (hoff : off < len) (hkept : Kept (base + off)) :
    (process page).Triple anyHead (On (CellsAt page fspi bank base len c)) (load (bank + off))
      fun v s t => On (CellsAt page fspi bank base len c) s t ∧ v = c (base + off) := by
  refine (load_cell hkept fun _ _ _ hs => hs.phys hoff).post ?_
  rintro v s t ⟨hs, rfl⟩
  exact ⟨hs, by rw [hs.1.1]⟩

/-- A load whose value does not matter. -/
lemma look_cellsAt (hoff : off < len) (hkept : Kept (base + off)) :
    (process page).Triple anyHead (On (CellsAt page fspi bank base len c)) (load (bank + off))
      fun _ => On (CellsAt page fspi bank base len c) :=
  (load_cellsAt hoff hkept).post fun _ _ _ => And.left

lemma orReg_cellsAt (hoff : off < len) (hkept : Kept (base + off)) (m : Word) :
    (process page).Triple anyHead (On (CellsAt page fspi bank base len c)) (orReg (bank + off) m)
      fun _ => On (CellsAt page fspi bank base len
        (Function.update c (base + off) (c (base + off) ||| m))) := by
  refine Triple.bind (load_cellsAt hoff hkept) fun v => ?_
  apply Triple.of_pure
  rintro rfl
  exact store_cellsAt hoff _

/-- What a mapping leaves, with the context that holds it. -/
lemma ret_mapped (page : PageSize) (F : Nat → Facts) (ctx : Nat → QspiContext) (map : Nat) :
    (process page).Triple anyHead (On (F map)) (.ret (ctx map) : Driver QspiContext)
      fun ctx' s t => ∃ map, On (F map) s t ∧ ctx' = ctx map :=
  Triple.ret (stable_exists fun _ => stable_and_const (stable_on _) _) fun _ _ hs => ⟨map, hs, rfl⟩

/-! ## The pads -/

/-- The cells after the stores to some pads. -/
def withPads (c : Nat → Word) : List Nat → Nat → Word
  | [] => c
  | pad :: pads => withPads (Function.update c (iomuxcBase + pad) padValue) pads

lemma withPads_apply (c : Nat → Word) (pads : List Nat) (x : Nat) :
    withPads c pads x = if x ∈ pads.map (iomuxcBase + ·) then padValue else c x := by
  induction pads generalizing c with
  | nil => simp [withPads]
  | cons pad pads ih =>
    rw [withPads, ih, List.map_cons]
    by_cases hx : x = iomuxcBase + pad
    · simp [hx]
    · simp [hx]

lemma setPads_cells {iomux : Nat} {pads : List Nat} (hpads : ∀ pad ∈ pads, pad < 4096) :
    (process page).Triple anyHead (On (CellsAt page fspi iomux iomuxcBase 4096 c))
      (setPads iomux pads) fun _ => On (Cells page fspi (withPads c pads)) := by
  induction pads generalizing c with
  | nil => exact Triple.ret (stable_on _) fun _ _ hs => hs.1
  | cons pad pads ih =>
    refine Triple.bind (store_cellsAt (hpads pad List.mem_cons_self) _) fun _ => ?_
    exact ih fun pad' hpad' => hpads pad' (List.mem_cons_of_mem _ hpad')

/-- What `iomux_init` makes of the cells. -/
def padded (iomux : Nat) (c : Nat → Word) : Nat → Word :=
  if iomux = mapFailed then c else withPads c iomuxcPads

lemma iomuxInit_cells (ctx : QspiContext) (hpage : ctx.pageSize = page.bytes) :
    (process page).Triple anyHead (On (Cells page fspi c)) (iomuxInit ctx) fun ctx' s t =>
      ∃ map, On (Cells page fspi (padded map c)) s t ∧ ctx' = { ctx with mapIomux := map } := by
  have hret := ret_mapped page (fun map => Cells page fspi (padded map c))
    fun map => { ctx with mapIomux := map }
  unfold iomuxInit
  refine ((check_on _).allow anyHead_of_proper).bind fun _ => Triple.of_pure fun _ => ?_
  refine mapMemory_bind (F := Cells page fspi c) anyHead_of_proper ctx.fd iomuxcBase ctx.pageSize
    hpage (fun _ _ _ hs => hs) (fun map k cells cs hmap hs hgrants =>
      hs.at_mapped hpage hgrants hmap (by decide) (by decide) (by rw [hpage]; exact page.bytes_pos)
        (.inl (Nat.le_refl 4096)) (by decide) _) ((hret mapFailed).pre ?_) fun map hmap => ?_
  · intro s t hs
    rwa [padded, if_pos rfl]
  · refine Triple.bind (setPads_cells (by decide)) fun _ => (hret map).pre fun s t hs => ?_
    rwa [padded, if_neg hmap]

/-! ## The clock -/

/-- What `clock_init` makes of the cells. -/
def clocked (value : Word) (ccm : Nat) (c : Nat → Word) : Nat → Word :=
  if ccm = mapFailed then c
  else Function.update (Function.update (Function.update c gateCell 0x3#32) rootCell value)
    rootCell (value ||| bit 28)

lemma clockInit_cells (ctx : QspiContext) (hpage : ctx.pageSize = page.bytes)
    (mux pre post : Word) :
    (process page).Triple anyHead (On (Cells page fspi c)) (clockInit ctx mux pre post)
      fun ctx' s t => ∃ map, On (Cells page fspi (clocked (clkRootValue mux pre post) map c)) s t ∧
        ctx' = { ctx with mapCcm := map } := by
  have hret := ret_mapped page
    (fun map => Cells page fspi (clocked (clkRootValue mux pre post) map c))
    fun map => { ctx with mapCcm := map }
  unfold clockInit
  refine ((check_on _).allow anyHead_of_proper).bind fun _ => Triple.of_pure fun _ => ?_
  refine mapMemory_bind (F := Cells page fspi c) anyHead_of_proper ctx.fd ccmBase pageSize64K hpage
    (fun _ _ _ hs => hs) (fun map k cells cs hmap hs hgrants =>
      hs.at_mapped hpage hgrants hmap (by decide) (by decide) (by decide)
        (.inr (Nat.le_refl 65536)) (by decide) _) ((hret mapFailed).pre ?_) fun map hmap => ?_
  · intro s t hs
    rwa [clocked, if_pos rfl]
  · dsimp only
    rw [if_neg (by decide)]
    refine Triple.bind (store_cellsAt (by decide) _) fun _ => ?_
    refine Triple.bind (look_cellsAt (by decide) (by decide)) fun _ => ?_
    refine Triple.bind (store_cellsAt (by decide) _) fun _ => ?_
    refine Triple.bind (orReg_cellsAt (by decide) (by decide) (bit 28)) fun _ => ?_
    refine Triple.bind (look_cellsAt (by decide) (by decide)) fun _ => ?_
    refine (hret map).pre fun s t hs => ?_
    rw [clocked, if_neg hmap]
    rw [Function.update_self] at hs
    exact hs.1

/-! ## The module -/

/-- What `QSPI_Init` makes of the cells once the FlexSPI registers are mapped, store by store. -/
def broughtUp (iomux ccm : Nat) (c : Nat → Word) : Nat → Word :=
  let off := padded iomux c
  let off := Function.update off mcr0Cell (off mcr0Cell ||| mcr0Mdis)
  let on := clocked (clkRootValue 0x2#32 0#32 0x7#32) ccm off
  let on := Function.update on mcr0Cell (on mcr0Cell ||| bit 1)
  let on := Function.update on intenCell (bit 6 ||| bit 0)
  Function.update on mcr0Cell (on mcr0Cell &&& ~~~mcr0Mdis)

lemma bringUp_cells (ctx : QspiContext) (hpage : ctx.pageSize = page.bytes) :
    (process page).Triple anyHead (On (Cells page ctx.flexspi c)) (bringUp ctx) fun ctx' s _ =>
      s.cells = broughtUp ctx'.mapIomux ctx'.mapCcm c ∧ ctx'.initDone = true := by
  have hkept : Kept (flexspiBase + Reg.mcr0) := .inl rfl
  unfold bringUp
  refine (iomuxInit_cells ctx hpage).bind fun ctx₁ => Triple.exists_pre fun iomux => ?_
  apply Triple.of_pure
  rintro rfl
  refine (orReg_cells (by decide) hkept mcr0Mdis).bind fun _ => ?_
  refine (clockInit_cells { ctx with mapIomux := iomux } hpage _ _ _).bind fun ctx₂ =>
    Triple.exists_pre fun ccm => ?_
  apply Triple.of_pure
  rintro rfl
  refine (orReg_cells (by decide) hkept (bit 1)).bind fun _ => ?_
  refine (store_cells (by decide) _).bind fun _ => ?_
  refine Triple.bind (load_cell hkept fun _ _ _ hs => hs.phys (by decide)) fun mcr0 => ?_
  refine Triple.bind (Q := fun _ => On fun _ cells _ => cells = broughtUp iomux ccm c) ?_
    fun _ => ?_
  · refine store_cell (fun _ _ _ hs => hs.1.phys (by decide)) ?_
    rintro k cells cs ⟨⟨rfl, -⟩, rfl⟩
    rfl
  · exact Triple.ret (stable_and_const (stable_on fun _ cells _ => cells = _) _)
      fun s t hs => ⟨hs, rfl⟩

lemma requestFlexspiMemory_cells (ctx : QspiContext) (hpage : ctx.pageSize = page.bytes) :
    (process page).Triple anyHead (On fun _ cells _ => cells = c) (requestFlexspiMemory ctx)
      fun r s t => (On (fun _ cells _ => cells = c) s t ∧ r.2 ≠ 0 ∧ r.1.initDone = ctx.initDone) ∨
        (On (Cells page r.1.flexspi c) s t ∧ r.2 = 0 ∧ r.1.pageSize = page.bytes) := by
  have hstable : ∀ r : QspiContext × Int, (process page).Stable fun s t =>
      (On (fun _ cells _ => cells = c) s t ∧ r.2 ≠ 0 ∧ r.1.initDone = ctx.initDone) ∨
      (On (Cells page r.1.flexspi c) s t ∧ r.2 = 0 ∧ r.1.pageSize = page.bytes) := fun r =>
    stable_on fun k cells cs => (cells = c ∧ r.2 ≠ 0 ∧ r.1.initDone = ctx.initDone) ∨
      (Cells page r.1.flexspi c k cells cs ∧ r.2 = 0 ∧ r.1.pageSize = page.bytes)
  unfold requestFlexspiMemory
  refine mapMemory_bind (F := fun _ cells _ => cells = c)
    (U := fun map => Cells page (map + pageOffset flexspiBase ctx.pageSize) c) anyHead_of_proper
    ctx.fd flexspiBase Reg.size hpage (fun _ _ _ hs => hs) ?_ ?_ fun map _ => ?_
  · intro map k cells cs hmap hs hgrants
    rw [hpage]
    exact ⟨hs, hgrants.shows hmap (by decide) (by decide) (by decide) (.inl (Nat.le_refl _))
      (by decide)⟩
  · exact Triple.ret (hstable _) fun s t hs => .inl ⟨hs, (by decide : (-1 : Int) ≠ 0), rfl⟩
  · exact Triple.ret (hstable _) fun s t hs => .inr ⟨hs, rfl, hpage⟩

/-- The cells that a `QSPI_Init` leaves, by the context it leaves. -/
lemma qspiInit_cells (ctx : QspiContext) :
    (process page).Triple anyHead (On fun _ cells _ => cells = c) (qspiInit ctx) fun ctx' s _ =>
      s.cells = if ctx'.initDone = false then c
        else broughtUp ctx'.mapIomux ctx'.mapCcm c := by
  have hdown : ∀ ctx' : QspiContext, ctx'.initDone = false → (process page).Triple anyHead
      (On fun _ cells _ => cells = c) (.ret ctx' : Driver QspiContext) fun ctx' s _ =>
      s.cells = if ctx'.initDone = false then c else broughtUp ctx'.mapIomux ctx'.mapCcm c := by
    intro ctx' hinit
    refine Triple.ret (stable_on fun _ cells _ => cells = _) fun s t hs => ?_
    rw [if_pos hinit]
    exact hs
  unfold qspiInit
  refine Triple.bind (Q := fun size s t => On (fun _ cells _ => cells = c) s t ∧ size = page.bytes)
    (Triple.op (stable_on _) (fun _ => stable_and_const (stable_on _) _)
      (fun _ _ _ => trivial) fun s t hs => ⟨hs, rfl⟩) fun size => Triple.of_pure ?_
  rintro rfl
  refine ((check_on _).allow anyHead_of_proper).bind fun _ => Triple.of_pure fun _ => ?_
  refine ((check_on _).allow anyHead_of_proper).bind fun _ => Triple.of_pure fun _ => ?_
  refine Triple.bind (Q := fun _ => On fun _ cells _ => cells = c) ?_ fun fd => ?_
  · exact (call_on rfl fun fd k cells cs hs _ => hs).allow anyHead_of_proper
  dsimp only
  by_cases hfd : (show Int from fd) < 0
  · rw [if_pos hfd]
    exact hdown _ rfl
  · rw [if_neg hfd]
    refine (requestFlexspiMemory_cells _ rfl).bind fun r => Triple.or ?_ ?_
    · apply Triple.of_pure
      rintro ⟨hr, hinit⟩
      rw [if_pos hr]
      refine Triple.bind (Q := fun _ => On fun _ cells _ => cells = c) ?_ fun _ => ?_
      · exact (call_on rfl fun _ k cells cs hs _ => hs).allow anyHead_of_proper
      · exact hdown _ hinit
    · apply Triple.of_pure
      rintro ⟨hr, hpage⟩
      rw [if_neg fun hne => hne hr]
      refine (bringUp_cells r.1 hpage).post fun ctx' s t hs => ?_
      rw [if_neg (by rw [hs.2]; rintro ⟨⟩)]
      exact hs.1

/-! ## Register by register -/

lemma mcr0_and_or (v : Word) :
    (v ||| mcr0Mdis ||| bit 1) &&& ~~~mcr0Mdis = v &&& ~~~mcr0Mdis := by
  simp only [mcr0Mdis]
  ext i hi
  simp only [BitVec.getElem_and, BitVec.getElem_or, BitVec.getElem_not]
  cases (bit 1)[i] <;> simp

lemma padded_apply (iomux : Nat) (c : Nat → Word) (x : Nat) : padded iomux c x =
    if iomux ≠ mapFailed ∧ x ∈ padCells then padValue else c x := by
  unfold padded
  split <;> rename_i hmap
  · simp [hmap]
  · rw [withPads_apply]
    simp [hmap, padCells]

lemma clocked_apply (value : Word) (ccm : Nat) (c : Nat → Word) (x : Nat) :
    clocked value ccm c x = if ccm ≠ mapFailed ∧ x = rootCell then value ||| bit 28
      else if ccm ≠ mapFailed ∧ x = gateCell then 0x3#32 else c x := by
  unfold clocked
  split <;> rename_i hmap
  · simp [hmap]
  · simp only [Function.update_apply, ne_eq, hmap, not_false_eq_true, true_and]
    split <;> simp_all

/-- The stores to one register do not meet those to another. -/
lemma broughtUp_apply (fd : Int) (fspi iomux ccm : Nat) (c : Nat → Word) (x : Nat) :
    broughtUp iomux ccm c x = (InitOutcome.ready fd fspi iomux ccm).register c x := by
  have hpad : mcr0Cell ∉ padCells := by decide
  have hmcr0 : padded iomux c mcr0Cell = c mcr0Cell := by
    rw [padded_apply, if_neg fun h => hpad h.2]
  unfold InitOutcome.register broughtUp
  dsimp only
  by_cases hx : x = mcr0Cell
  · have hclocked : ∀ value c, clocked value ccm c mcr0Cell = c mcr0Cell := by
      intro value c
      rw [clocked_apply, if_neg fun h => absurd h.2 (by decide),
        if_neg fun h => absurd h.2 (by decide)]
    rw [hx, if_pos rfl, Function.update_self, Function.update_of_ne (by decide),
      Function.update_self, hclocked, Function.update_self, hmcr0, mcr0_and_or]
  · rw [if_neg hx, Function.update_of_ne hx]
    by_cases hinten : x = intenCell
    · rw [hinten, if_pos rfl, Function.update_self]
      rfl
    · rw [if_neg hinten, Function.update_of_ne hinten, Function.update_of_ne hx, clocked_apply,
        Function.update_of_ne hx, padded_apply]
      rfl

/-- **What `QSPI_Init` does**, for every process and all answers of the kernel: the context, the
calls of `open`, `mmap` and `close`, and each register of the machine are those of its outcome, and
every other register is what it was. -/
theorem init_configures {ctx ctx' : QspiContext} {s s' : Process} {t t' : HostTrace}
    (hreach : (process page).Reach ⟨qspiInit ctx, s, t⟩ ⟨.ret ctx', s', t'⟩) :
    ∃ o : InitOutcome, o.Possible ∧ ctx' = o.context page ctx ∧
      syscalls t' = syscalls t ++ o.calls page ∧ ∀ x, s'.cells x = o.register s.cells x := by
  obtain ⟨o, hpossible, rfl, hcalls⟩ := (qspiInit_issued ctx).returns rfl hreach
  have hcells := (qspiInit_cells ctx).returns rfl hreach
  refine ⟨o, hpossible, rfl, hcalls, fun x => ?_⟩
  rw [hcells]
  cases o with
  | noMemory fd => rfl
  | noRegisters fd => rfl
  | ready fd fspi iomux ccm => exact broughtUp_apply fd fspi iomux ccm s.cells x

/-- Without the mapping of the pads. -/
theorem init_configures_without_pads :
    ∃ ctx' s' t', (process smallPage).Reach ⟨qspiInit .zero, newProcess 3, []⟩ ⟨.ret ctx', s', t'⟩ ∧
      ctx'.initDone = true ∧ s'.cells gateCell = 0x3#32 ∧
      ∃ o : InitOutcome, ∀ x, s'.cells x = o.register (fun _ => 0#32) x := by
  obtain ⟨⟨p, s', t'⟩, hreach, htest⟩ : ∃ c, (process smallPage).Reach
      ⟨qspiInit .zero, newProcess 3, []⟩ c ∧
      (c.prog.value?.any (·.initDone) && decide (c.state.cells gateCell = 0x3#32)) = true :=
    exists_reach_of_run (initSchedule 3 0x10000 0 0x40000).2 (by decide +kernel)
  obtain ⟨hvalue, hgate⟩ := Bool.and_eq_true_iff.mp htest
  obtain ⟨ctx', hctx', hinit⟩ := (Option.any_eq_true _ _).mp hvalue
  obtain rfl := Prog.eq_ret_of_value? hctx'
  obtain ⟨o, -, -, -, hcells⟩ := init_configures hreach
  exact ⟨ctx', s', t', hreach, hinit, of_decide_eq_true hgate, o, hcells⟩

end QspiTool
