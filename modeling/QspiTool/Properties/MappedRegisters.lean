import QspiTool.Host.Banks
import QspiTool.Host.Calls
import QspiTool.Host.Lifecycle

/-!
# Which registers the mappings reach

`map_memory` gives `mmap` the physical base rounded down to a page and the length as it is; its
callers add the offset in the page to the address they get.  So the length is measured from the
start of the page, and that the registers asked for are still covered depends on their alignment:
a base at a multiple of 64 KB starts a page when pages are not larger than that, and otherwise the
64 KB behind it lie in the page of the base.

What `mmap` does is assumed only as far as it is documented (`MapsPages`), for any process; the
process of `Host.Process` is one (`process_mapsPages`).
-/

namespace QspiTool

open Words Interaction Machine

/-! ## What is assumed of `mmap` -/

/-- `size` rounded up to whole pages. -/
def wholePages (size pageSize : Nat) : Nat := (size + pageSize - 1) / pageSize * pageSize

lemma le_wholePages (size : Nat) {pageSize : Nat} (hpage : 0 < pageSize) :
    size ≤ wholePages size pageSize := by
  have hsplit := Nat.div_add_mod (size + pageSize - 1) pageSize
  have hlt := Nat.mod_lt (size + pageSize - 1) hpage
  unfold wholePages
  rw [Nat.mul_comm] at hsplit
  omega

lemma page_le_wholePages {size pageSize : Nat} (hsize : 0 < size) (hpage : 0 < pageSize) :
    pageSize ≤ wholePages size pageSize := by
  have hone : 1 ≤ (size + pageSize - 1) / pageSize := (Nat.one_le_div_iff hpage).mpr (by omega)
  exact Nat.le_mul_of_pos_left pageSize hone

/-- The access does not change what is mapped. -/
def Access.KeepsMappings : Access → Prop
  | .mmap _ _ _ | .munmap _ _ => False
  | _ => True

variable {σ A : Type}

/-- Where `mmap` succeeds with a page-aligned offset, whole pages show the file from that offset
on; `phys` is the physical address that a virtual one shows.  Only `mmap` and `munmap` change
mappings. -/
structure MapsPages (M : Machine bus σ A) (pageSize : Nat) (phys : σ → Nat → Option Nat) :
    Prop where
  mmap : ∀ {size offset map : Nat} {fd : Int} {s s' : σ}, 0 < size → offset % pageSize = 0 →
    M.exec (.mmap size fd offset) s = (map, s') → map ≠ mapFailed →
    ∀ x < wholePages size pageSize, phys s' (map + x) = some (offset + x)
  keep : ∀ (o : Access) (s : σ), o.KeepsMappings → phys (M.exec o s).2 = phys s
  act : ∀ {a : A} {s s' : σ}, M.act a s = some s' → phys s' = phys s

/-! ## `map_memory` -/

variable {M : Machine bus σ A} {phys : σ → Nat → Option Nat} {k : Nat}

/-- The registers from `base` on, as far as `size` was asked for, lie in the mapping at `map` and
are shown at the address that the callers of `map_memory` compute. -/
def Reached (phys : σ → Nat → Option Nat) (base size pageSize map : Nat) : Assertion bus σ A :=
  fun s _ => ∀ x < size, x < 65536 → pageOffset base pageSize + x < wholePages size pageSize ∧
    phys s (map + pageOffset base pageSize + x) = some (base + x)

/-- `mmap` is given a page-aligned offset, and a register access reaches one of the registers
`regs` of the device at `base`. -/
def Reaching (phys : σ → Nat → Option Nat) (base pageSize : Nat) (regs : List Nat) (d : Head bus) :
    Assertion bus σ A := fun s _ =>
  (∀ size fd offset, d = .call (.mmap size fd offset) → offset % pageSize = 0) ∧
    ∀ a, touched d = some a → ∃ o ∈ regs, o + 4 ≤ 65536 ∧
      ∀ i < 4, phys s (a + i) = some (base + o + i)

/-- The environment does not change what is mapped. -/
lemma MapsPages.stable {pageSize : Nat} (hM : MapsPages M pageSize phys)
    (c : (Nat → Option Nat) → Prop) : M.Stable fun s _ => c (phys s) := by
  intro a s s' t h hact
  rwa [hM.act hact]

lemma reaching_abort (base pageSize : Nat) (regs : List Nat) (s : σ) (t : Trace bus A) :
    Reaching phys base pageSize regs .abort s t := by
  constructor
  · rintro size fd offset ⟨⟩
  · rintro a ⟨⟩

/-- A page-aligned mapping reaches the registers asked for. -/
lemma reached_of_shown {base size map : Nat} (hk : 12 ≤ k) (hbase : base % 65536 = 0)
    (hbound : base < 2 ^ 64) (hsize : 0 < size) {s : σ}
    (h : ∀ x < wholePages size (2 ^ k),
      phys s (map + x) = some (pageBase base (2 ^ k) + x)) (t : Trace bus A) :
    Reached phys base size (2 ^ k) map s t := by
  intro x hx hlt
  have hpage := Nat.two_pow_pos k
  have hin : base % 2 ^ k + x < wholePages size (2 ^ k) := by
    rcases register_in_page hk hbase (.inr hx) hlt with hfirst | ⟨hzero, -⟩
    · exact Nat.lt_of_lt_of_le hfirst (page_le_wholePages hsize hpage)
    · rw [hzero, Nat.zero_add]
      exact Nat.lt_of_lt_of_le hx (le_wholePages size hpage)
  have hsum : pageBase base (2 ^ k) + (base % 2 ^ k + x) = base + x := by
    rw [pageBase_two_pow hbound, ← Nat.add_assoc, Nat.div_add_mod]
  rw [pageOffset_two_pow]
  refine ⟨hin, ?_⟩
  rw [Nat.add_assoc, h _ hin, hsum]

lemma pageBase_aligned {base : Nat} (hbound : base < 2 ^ 64) :
    pageBase base (2 ^ k) % 2 ^ k = 0 := by
  rw [pageBase_two_pow hbound, Nat.mul_mod_right]

lemma mapMemory_reached (hM : MapsPages M (2 ^ k) phys) (hk : 12 ≤ k) {base : Nat}
    (hbase : base % 65536 = 0) (hbound : base < 2 ^ 64) (fd : Int) (size : Nat)
    (regs : List Nat) :
    M.Triple (Reaching phys base (2 ^ k) regs) (fun _ _ => True) (mapMemory fd base size (2 ^ k))
      fun r s t => r.2 = 0 → Reached phys base size (2 ^ k) r.1 s t := by
  have hstable : ∀ (c : Prop) (map : Nat),
      M.Stable fun s t => c → Reached phys base size (2 ^ k) map s t := by
    intro c map
    exact hM.stable fun shown => c → ∀ x < size, x < 65536 →
      pageOffset base (2 ^ k) + x < wholePages size (2 ^ k) ∧
        shown (map + pageOffset base (2 ^ k) + x) = some (base + x)
  have hcheck : ∀ (c : Prop) [Decidable c], M.Triple (Reaching phys base (2 ^ k) regs)
      (fun _ _ => True) (check c) fun _ _ _ => True ∧ c := fun c _ =>
    Triple.check stable_true fun s t _ _ => reaching_abort base _ regs s t
  refine Triple.bind (hcheck _) fun _ => Triple.of_pure fun _ => ?_
  refine Triple.bind (hcheck _) fun _ => Triple.of_pure fun hsize => ?_
  refine Triple.bind (hcheck _) fun _ => Triple.of_pure fun _ => ?_
  have hmmap : M.Triple (Reaching phys base (2 ^ k) regs) (fun _ _ => True)
      (mmap size fd (pageBase base (2 ^ k))) fun map s t =>
        map ≠ mapFailed → Reached phys base size (2 ^ k) map s t := by
    refine Triple.op stable_true (fun map => hstable _ map) ?_ ?_
    · intro s t _
      constructor
      · intro size' fd' offset heq
        cases heq
        exact pageBase_aligned hbound
      · rintro a ⟨⟩
    · intro s t _ hne
      exact reached_of_shown hk hbase hbound hsize
        (hM.mmap hsize (pageBase_aligned hbound) rfl hne) _
  refine Triple.bind hmmap fun map => ?_
  split <;> rename_i hfailed
  · exact Triple.ret (hstable _ map) fun s t _ h => Int.noConfusion h
  · exact Triple.ret (hstable _ map) fun s t h _ => h hfailed

/-! ## Its callers -/

/-- Only the registers `regs` behind `bank`, and no change of the mappings. -/
def Among (bank : Nat) (regs : List Nat) (d : Head bus) : Prop :=
  (∀ o, d = .call o → o.KeepsMappings) ∧ ∀ a, touched d = some a → ∃ o ∈ regs, a = bank + o

lemma load_among {bank off : Nat} {regs : List Nat} (h : off ∈ regs) :
    (load (bank + off)).Every (Among bank regs) := by
  refine load_every ⟨?_, fun a ha => ⟨off, h, (Option.some.inj ha).symm⟩⟩
  rintro o ⟨⟩
  trivial

lemma store_among {bank off : Nat} {regs : List Nat} (h : off ∈ regs) (v : Word) :
    (store (bank + off) v).Every (Among bank regs) := by
  refine store_every ⟨?_, fun a ha => ⟨off, h, (Option.some.inj ha).symm⟩⟩
  rintro o ⟨⟩
  trivial

lemma orReg_among {bank off : Nat} {regs : List Nat} (h : off ∈ regs) (m : Word) :
    (orReg (bank + off) m).Every (Among bank regs) :=
  (load_among h).bind fun v => store_among h (v ||| m)

lemma setPads_among {bank : Nat} {pads regs : List Nat} (h : ∀ pad ∈ pads, pad ∈ regs) :
    (setPads bank pads).Every (Among bank regs) := by
  induction pads with
  | nil => trivial
  | cons pad pads ih =>
    obtain ⟨hpad, hpads⟩ := List.forall_mem_cons.mp h
    exact (store_among hpad _).bind fun _ => ih hpads

/-- Accesses to registers within what has been asked for reach them. -/
lemma reaching_among (hM : MapsPages M (2 ^ k) phys) {base size map : Nat} {regs : List Nat}
    {α : Type} {p : Driver α} (hsize : ∀ o ∈ regs, o + 4 ≤ size)
    (hregs : ∀ o ∈ regs, o + 4 ≤ 65536)
    (hp : p.Every (Among (map + pageOffset base (2 ^ k)) regs)) :
    M.Triple (Reaching phys base (2 ^ k) regs) (Reached phys base size (2 ^ k) map) p
      fun _ => Reached phys base size (2 ^ k) map := by
  have hkeep : ∀ (o : Access) (s : σ) (t t' : Trace bus A), o.KeepsMappings →
      Reached phys base size (2 ^ k) map s t →
      Reached phys base size (2 ^ k) map (M.exec o s).2 t' := by
    intro o s t t' ho hs x hx hlt
    rw [hM.keep o s ho]
    exact hs x hx hlt
  have hstable : M.Stable (Reached phys base size (2 ^ k) map) :=
    hM.stable fun shown => ∀ x < size, x < 65536 →
      pageOffset base (2 ^ k) + x < wholePages size (2 ^ k) ∧
        shown (map + pageOffset base (2 ^ k) + x) = some (base + x)
  refine Triple.invariant hp hstable ?_ ?_ ?_
  · intro d s t hd hs
    constructor
    · rintro size' fd offset rfl
      exact (hd.1 _ rfl).elim
    · intro a ha
      obtain ⟨o, ho, rfl⟩ := hd.2 a ha
      have hin := hsize o ho
      have hbound := hregs o ho
      refine ⟨o, ho, hbound, fun i hi => ?_⟩
      have hshown := (hs (o + i) (by omega) (by omega)).2
      rwa [← Nat.add_assoc, ← Nat.add_assoc] at hshown
  · intro o s t ho hs
    exact hkeep o s t _ (ho.1 o rfl) hs
  · intro w s t _ hs
    exact hkeep (.load w.reg) s t _ trivial hs

lemma requestFlexspiMemory_reached (hM : MapsPages M (2 ^ k) phys) (hk : 12 ≤ k)
    {ctx : QspiContext} (hpage : ctx.pageSize = 2 ^ k) :
    M.Triple (Reaching phys flexspiBase (2 ^ k) []) (fun _ _ => True) (requestFlexspiMemory ctx)
      fun r s _ => r.2 = 0 → ∀ x < Reg.size, phys s (r.1.flexspi + x) = some (flexspiBase + x) := by
  unfold requestFlexspiMemory
  rw [hpage]
  refine Triple.bind (mapMemory_reached hM hk (by decide) (by decide) _ _ _) fun r => ?_
  obtain ⟨map, result⟩ := r
  dsimp only
  have hstable : ∀ (result : Int) (bank : Nat), M.Stable fun s _ =>
      result = 0 → ∀ x < Reg.size, phys s (bank + x) = some (flexspiBase + x) :=
    fun result bank => hM.stable fun shown =>
      result = 0 → ∀ x < Reg.size, shown (bank + x) = some (flexspiBase + x)
  split <;> rename_i hr
  · exact Triple.ret (hstable (-1) ctx.flexspi) fun s t _ h => Int.noConfusion h
  · obtain rfl : result = 0 := Decidable.not_not.mp hr
    refine Triple.ret (hstable 0 (map + pageOffset flexspiBase (2 ^ k))) fun s t hs _ x hx => ?_
    have hlt : x < 65536 := Nat.lt_trans hx (by decide)
    exact (hs rfl x hx hlt).2

/-- The registers of the clock controller that `clock_init` accesses. -/
def clockRegs : List Nat := [ccmCcgr47, qspiClkRoot]

lemma clockInit_reaching (hM : MapsPages M (2 ^ k) phys) (hk : 12 ≤ k) {ctx : QspiContext}
    (hpage : ctx.pageSize = 2 ^ k) (mux pre post : Word) :
    M.Triple (Reaching phys ccmBase (2 ^ k) clockRegs) (fun _ _ => True)
      (clockInit ctx mux pre post) fun _ _ _ => True := by
  unfold clockInit
  rw [hpage]
  refine Triple.bind (Triple.check stable_true fun s t _ _ => reaching_abort _ _ _ s t) fun _ => ?_
  refine Triple.bind ((mapMemory_reached hM hk (by decide) (by decide) _ _ _).pre
    fun _ _ _ => trivial) fun r => ?_
  obtain ⟨map, result⟩ := r
  dsimp only
  split <;> rename_i hr
  · exact Triple.ret stable_true fun _ _ _ => trivial
  · refine Triple.pre (P := Reached phys ccmBase pageSize64K (2 ^ k) map) ?_ fun s t hs =>
      hs (Decidable.not_not.mp hr)
    generalize hbank : map + pageOffset ccmBase (2 ^ k) = bank
    have hstep : ∀ {α : Type} {p : Driver α}, p.Every (Among bank clockRegs) →
        M.Triple (Reaching phys ccmBase (2 ^ k) clockRegs)
          (Reached phys ccmBase pageSize64K (2 ^ k) map) p
          fun _ => Reached phys ccmBase pageSize64K (2 ^ k) map := by
      intro α p hp
      rw [← hbank] at hp
      exact reaching_among hM (by decide) (by decide) hp
    have hgate : ccmCcgr47 ∈ clockRegs := by decide
    have hroot : qspiClkRoot ∈ clockRegs := by decide
    refine Triple.bind (hstep (store_among hgate _)) fun _ => ?_
    refine Triple.bind (hstep (load_among hgate)) fun _ => ?_
    refine Triple.bind (hstep (store_among hroot _)) fun _ => ?_
    refine Triple.bind (hstep (orReg_among hroot _)) fun _ => ?_
    refine Triple.bind (hstep (load_among hroot)) fun _ => ?_
    exact Triple.ret stable_true fun _ _ _ => trivial

lemma iomuxInit_reaching (hM : MapsPages M (2 ^ k) phys) (hk : 12 ≤ k) {ctx : QspiContext}
    (hpage : ctx.pageSize = 2 ^ k) :
    M.Triple (Reaching phys iomuxcBase (2 ^ k) iomuxcPads) (fun _ _ => True) (iomuxInit ctx)
      fun _ _ _ => True := by
  have hle : 2 ^ 12 ≤ 2 ^ k := Nat.pow_le_pow_right (by decide) hk
  unfold iomuxInit
  rw [hpage]
  refine Triple.bind (Triple.check stable_true fun s t _ _ => reaching_abort _ _ _ s t) fun _ => ?_
  refine Triple.bind ((mapMemory_reached hM hk (by decide) (by decide) _ _ _).pre
    fun _ _ _ => trivial) fun r => ?_
  obtain ⟨map, result⟩ := r
  dsimp only
  split <;> rename_i hr
  · exact Triple.ret stable_true fun _ _ _ => trivial
  · refine Triple.pre (P := Reached phys iomuxcBase (2 ^ k) (2 ^ k) map) ?_ fun s t hs =>
      hs (Decidable.not_not.mp hr)
    have hpads : (setPads (map + pageOffset iomuxcBase (2 ^ k)) iomuxcPads).Every
        (Among (map + pageOffset iomuxcBase (2 ^ k)) iomuxcPads) := setPads_among fun _ h => h
    have hbound : ∀ o ∈ iomuxcPads, o + 4 ≤ 2 ^ 12 := by decide
    have hreach := reaching_among hM (fun o ho => Nat.le_trans (hbound o ho) hle) (by decide) hpads
    refine Triple.bind hreach fun _ => ?_
    exact Triple.ret stable_true fun _ _ _ => trivial

/-! ## The process -/

/-- A mapping shows the physical address space, page by page. -/
lemma Kernel.Maps.phys_add {page : PageSize} {k : Kernel} {a size offset x : Nat}
    (h : k.Maps page a size offset) (halign : a % page.bytes = 0)
    (hoffset : offset % page.bytes = 0) (hx : x < wholePages size page.bytes) :
    k.phys page (a + x) = some (offset + x) := by
  have hpos := page.bytes_pos
  obtain ⟨q, rfl⟩ := Nat.dvd_of_mod_eq_zero halign
  obtain ⟨frame, rfl⟩ := Nat.dvd_of_mod_eq_zero hoffset
  have hfirst : page.bytes * q / page.bytes = q := Nat.mul_div_cancel_left q hpos
  have hnumber : (page.bytes * q + x) / page.bytes = q + x / page.bytes := Nat.mul_add_div hpos q x
  have hrest : (page.bytes * q + x) % page.bytes = x % page.bytes := Nat.mul_add_mod _ _ _
  -- the page of `x` begins before the end of the mapping
  have hbegins : x / page.bytes * page.bytes < size := by
    have hdiv : x / page.bytes < (size + page.bytes - 1) / page.bytes :=
      (Nat.div_lt_iff_lt_mul hpos).mpr hx
    have hmul := (Nat.le_div_iff_mul_le hpos).mp hdiv
    rw [Nat.succ_mul] at hmul
    omega
  have hcovers : page.covers (page.bytes * q) size (q + x / page.bytes) = true := by
    refine PageSize.covers_iff.mpr ⟨?_, ?_⟩
    · rw [hfirst]
      exact Nat.le_add_right q _
    · rw [Nat.add_mul, Nat.mul_comm q]
      omega
  have hdevice := h _ hcovers
  rw [hfirst, Nat.add_sub_cancel_left, Nat.mul_div_cancel_left frame hpos, ← hnumber] at hdevice
  have hx' := Nat.div_add_mod x page.bytes
  rw [phys_of_device hdevice, hrest, Nat.add_mul, Nat.mul_comm frame, Nat.mul_comm (x / page.bytes)]
  exact congrArg some (by omega)

/-- What `mmap` is assumed to do, the kernel of `Host.Process` does. -/
lemma process_mapsPages (page : PageSize) :
    MapsPages (process page) page.bytes fun s a => s.kernel.phys page a where
  mmap := by
    intro size offset map fd s s' hsize haligned hexec hne x hx
    obtain ⟨rfl, rfl⟩ := Prod.mk.inj hexec
    have hgrants : s.kernel.Grants page (.mapped (s.mmapAnswer page size offset) size offset) :=
      (exec_kernel page (.mmap size fd offset) s).2.1
    exact (Kernel.maps_after_mapped s.kernel hne size offset).phys_add (hgrants.aligned hne)
      haligned hx
  keep := by
    intro o s ho
    have hpages : ∀ k : Kernel, k.pages = s.kernel.pages → k.phys page = s.kernel.phys page := by
      intro k hk
      funext a
      simp only [Kernel.phys, hk]
    apply hpages
    rw [(exec_kernel page o s).1]
    cases o with
    | mmap size fd offset => exact ho.elim
    | munmap a size => exact ho.elim
    | openMem => exact Kernel.after_opened_pages page s.kernel _
    | close fd => exact Kernel.after_closed_pages page s.kernel fd
    | _ => rfl
  act := by
    intro a s s' hact
    obtain rfl := Option.some.inj hact
    cases a <;> rfl

/-! ## The expressions of the source -/

/-- `base & ~(page_size - 1)`, a `uint32_t` with a `long`. -/
lemma toNat_pageBase (base : Word) {k : Nat} (hk : k < 63) :
    (base.setWidth 64 &&& ~~~(BitVec.twoPow 64 k - 1#64)).toNat = pageBase base.toNat (2 ^ k) := by
  have hpow : (BitVec.twoPow 64 k).toNat = 2 ^ k := BitVec.toNat_twoPow_of_lt (by omega)
  have hpos := Nat.two_pow_pos k
  have hlt : 2 ^ k < 2 ^ 63 := Nat.pow_lt_pow_right (by decide) hk
  have hmask : (BitVec.twoPow 64 k - 1#64).toNat = 2 ^ k - 1 := by
    rw [BitVec.toNat_sub_of_le (by rw [BitVec.le_def, hpow]; exact hpos), hpow]
    rfl
  have hbase : (base.setWidth 64).toNat = base.toNat := by
    rw [BitVec.toNat_setWidth, Nat.mod_eq_of_lt (Nat.lt_trans base.isLt (by decide))]
  have hnot : 2 ^ 64 - 1 - (2 ^ k - 1) = 2 ^ 64 - 2 ^ k := by omega
  rw [BitVec.toNat_and, BitVec.toNat_not, hmask, hbase, hnot]
  rfl

/-- `base & (page_size - 1)`, both operands of 32 bits, converted to a `uint64_t`. -/
lemma toNat_pageOffset (base : Word) {k : Nat} (hk : k < 31) :
    ((base &&& (BitVec.twoPow 32 k - 1#32)).signExtend 64).toNat =
      pageOffset base.toNat (2 ^ k) := by
  have hpow : (BitVec.twoPow 32 k).toNat = 2 ^ k := BitVec.toNat_twoPow_of_lt (by omega)
  have hpos := Nat.two_pow_pos k
  have hlt : 2 ^ k < 2 ^ 31 := Nat.pow_lt_pow_right (by decide) hk
  have hmask : (BitVec.twoPow 32 k - 1#32).toNat = 2 ^ k - 1 := by
    rw [BitVec.toNat_sub_of_le (by rw [BitVec.le_def, hpow]; exact hpos), hpow]
    rfl
  have hvalue : (base &&& (BitVec.twoPow 32 k - 1#32)).toNat = pageOffset base.toNat (2 ^ k) := by
    rw [BitVec.toNat_and, hmask]
    rfl
  -- the page size is positive as an `int`, so the sign is not set
  have hsmall : pageOffset base.toNat (2 ^ k) < 2 ^ 31 := by
    rw [pageOffset_two_pow]
    exact Nat.lt_trans (Nat.mod_lt _ hpos) hlt
  have hsign : (base &&& (BitVec.twoPow 32 k - 1#32)).msb = false := by
    rw [BitVec.msb_eq_false_iff_two_mul_lt, hvalue]
    omega
  rw [BitVec.signExtend_eq_setWidth_of_msb_false hsign, BitVec.toNat_setWidth, hvalue,
    Nat.mod_eq_of_lt (by omega)]

/-! ## Every mapping -/

/-- **Every mapping reaches the registers it is made for.**  Whatever the process does otherwise:
`map_memory` gives `mmap` a page-aligned offset, and when it succeeds, the four bytes of a register
within the length and within 64 KB lie in the mapping at the address its callers compute, and are
those of the physical register.  So the pointer that `request_flexspi_memory` leaves shows the
FlexSPI registers, `clock_init` accesses `CCM_CCGR47` and `QSPI_CLK_ROOT` and `iomux_init` the pads,
and nothing else.  The offsets are those of the source at the widths of its operands. -/
theorem mapMemory_reaches_registers {σ A : Type} {M : Machine bus σ A}
    {phys : σ → Nat → Option Nat} {k : Nat} (hk : 12 ≤ k) (hM : MapsPages M (2 ^ k) phys) :
    (∀ base : Word, base.toNat % 65536 = 0 → ∀ (fd : Int) (size : Nat) (s : σ) (t : Trace bus A)
        (c : Config bus σ A (Nat × Int)),
      M.Reach ⟨mapMemory fd base.toNat size (2 ^ k), s, t⟩ c →
      (∀ size' fd' offset, c.prog.head = .call (.mmap size' fd' offset) → offset % 2 ^ k = 0) ∧
      ∀ map, c.prog.value? = some (map, 0) → ∀ o, o + 4 ≤ min size 65536 → ∀ i < 4,
        pageOffset base.toNat (2 ^ k) + o + i < wholePages size (2 ^ k) ∧
          phys c.state (map + pageOffset base.toNat (2 ^ k) + o + i) =
            some (base.toNat + o + i)) ∧
    (∀ (ctx : QspiContext), ctx.pageSize = 2 ^ k → ∀ (s : σ) (t : Trace bus A),
      (∀ ctx' s' t', M.Reach ⟨requestFlexspiMemory ctx, s, t⟩ ⟨.ret (ctx', 0), s', t'⟩ →
        ∀ o < Reg.size, phys s' (ctx'.flexspi + o) = some (flexspiBase + o)) ∧
      (∀ (mux pre post : Word) (c : Config bus σ A QspiContext),
        M.Reach ⟨clockInit ctx mux pre post, s, t⟩ c → c.prog.head ≠ .done →
        Reaching phys ccmBase (2 ^ k) clockRegs c.prog.head c.state c.trace) ∧
      ∀ c : Config bus σ A QspiContext, M.Reach ⟨iomuxInit ctx, s, t⟩ c → c.prog.head ≠ .done →
        Reaching phys iomuxcBase (2 ^ k) iomuxcPads c.prog.head c.state c.trace) ∧
    ∀ base : Word,
      (k < 63 → pageBase base.toNat (2 ^ k) =
        (base.setWidth 64 &&& ~~~(BitVec.twoPow 64 k - 1#64)).toNat) ∧
      (k < 31 → pageOffset base.toNat (2 ^ k) =
        ((base &&& (BitVec.twoPow 32 k - 1#32)).signExtend 64).toNat) := by
  refine ⟨?_, ?_, ?_⟩
  · intro base hbase fd size s t c hreach
    have hbound : base.toNat < 2 ^ 64 := Nat.lt_trans base.isLt (by decide)
    have htriple := mapMemory_reached hM hk hbase hbound fd size []
    constructor
    · intro size' fd' offset hhead
      have hdone : c.prog.head ≠ .done := by
        rw [hhead]
        rintro ⟨⟩
      exact (htriple.guarantee trivial hreach hdone).1 size' fd' offset hhead
    · intro map hvalue o ho i hi
      obtain ⟨p, s', t'⟩ := c
      obtain rfl := Prog.eq_ret_of_value? hvalue
      obtain ⟨hin, hphys⟩ := htriple.returns trivial hreach rfl (o + i) (by omega) (by omega)
      rw [← Nat.add_assoc] at hin
      rw [← Nat.add_assoc, ← Nat.add_assoc] at hphys
      exact ⟨hin, hphys⟩
  · intro ctx hpage s t
    refine ⟨?_, ?_, ?_⟩
    · intro ctx' s' t' hreach
      exact (requestFlexspiMemory_reached hM hk hpage).returns trivial hreach rfl
    · intro mux pre post c hreach hdone
      exact (clockInit_reaching hM hk hpage mux pre post).guarantee trivial hreach hdone
    · intro c hreach hdone
      exact (iomuxInit_reaching hM hk hpage).guarantee trivial hreach hdone
  · intro base
    exact ⟨fun h => (toNat_pageBase base h).symm, fun h => (toNat_pageOffset base h).symm⟩

/-- The FlexSPI registers, in a process with pages of 4 KB. -/
theorem mapMemory_reaches_registers_flexspi :
    ∃ c, (process smallPage).Reach
        ⟨mapMemory 3 flexspiBase Reg.size (2 ^ 12), newProcess 3, []⟩ c ∧
      c.prog.value? = some (0x10000, 0) ∧
      c.state.kernel.phys smallPage
          (0x10000 + pageOffset flexspiBase (2 ^ 12) + Reg.ipcmd + 3) =
        some (flexspiBase + Reg.ipcmd + 3) := by
  obtain ⟨c, hreach, htest⟩ : ∃ c, (process smallPage).Reach
      ⟨mapMemory 3 flexspiBase Reg.size (2 ^ 12), newProcess 3, []⟩ c ∧
      decide (c.prog.value? = some (0x10000, 0)) = true :=
    exists_reach_of_run [.prog] (by decide +kernel)
  have hvalue := of_decide_eq_true htest
  have hall := (mapMemory_reaches_registers (by decide : 12 ≤ 12)
    (process_mapsPages smallPage)).1 0x30BB0000#32 (by decide) 3 Reg.size _ _ c hreach
  exact ⟨c, hreach, hvalue, (hall.2 0x10000 hvalue Reg.ipcmd (by decide) 3 (by decide)).2⟩

end QspiTool
