import QspiTool.Host.Banks

/-!
# The clock gate, the clock root and the module disable bit

Three cells decide whether the FlexSPI controller may be accessed and what it does: the clock gate,
the clock root, and `MCR0`, whose bit 1 disables the module.  `QSPI_Init` maps the clock controller
in its third `mmap`, so the trace of a run says whether the gate and the root have been set
(`Wired`).

What is `Proper` for an access: a FlexSPI register is accessed while the cells are as the trace
says, the clock root is stored to while the module is disabled, and a command is triggered while it
is enabled.  The rules for one access and one system call are stated for assertions about the
kernel, the cells and the system calls made (`On`).
-/

namespace QspiTool

open Words Interaction Machine

variable {page : PageSize} {α : Type}

/-! ## The cells -/

/-- The physical address of the clock gate. -/
abbrev gateCell : Nat := ccmBase + ccmCcgr47

/-- The physical address of the clock root. -/
abbrev rootCell : Nat := ccmBase + qspiClkRoot

/-- The physical address of `MCR0`. -/
abbrev mcr0Cell : Nat := flexspiBase + Reg.mcr0

/-- The clock gate is set to 3. -/
def GateOn (cells : Nat → Word) : Prop := cells gateCell = 3#32

/-- Both bits of the clock gate are clear. -/
def GateOff (cells : Nat → Word) : Prop := cells gateCell &&& 3#32 = 0#32

/-- The clock root is enabled. -/
def RootEnabled (cells : Nat → Word) : Prop := (cells rootCell).getLsbD 28 = true

/-- `MCR0[MDIS]` is 1. -/
def Disabled (cells : Nat → Word) : Prop := (cells mcr0Cell).getLsbD 1 = true

lemma GateOff.not_on {cells : Nat → Word} (h : GateOff cells) : ¬ GateOn cells := by
  intro hon
  rw [GateOff, hon] at h
  exact absurd h (by decide)

/-! ## What an access reaches -/

/-- The register word about to be written. -/
def stored : Head bus → Option Nat
  | .call (.store a _) => some a
  | .call (.store8 a _) => some (4 * (a / 4))
  | _ => none

/-- A FlexSPI register is about to be accessed. -/
def Touches (page : PageSize) (d : Head bus) (k : Kernel) : Prop :=
  ∃ a, touched d = some a ∧ ∃ off < Reg.size, k.phys page a = some (flexspiBase + off)

/-- The register at the physical address `x` is about to be written. -/
def Writes (page : PageSize) (d : Head bus) (k : Kernel) (x : Nat) : Prop :=
  ∃ a, stored d = some a ∧ k.phys page a = some x

/-! ## The clock controller in a trace -/

/-- The clock controller has been mapped: no other mapping has this length and this offset. -/
def Clocked (page : PageSize) (cs : List Syscall) : Prop :=
  ∃ a, a ≠ mapFailed ∧ .mapped a pageSize64K (pageBase ccmBase page.bytes) ∈ cs

/-- The gate and the root are as the history of the mappings says. -/
structure Wired (page : PageSize) (cells : Nat → Word) (cs : List Syscall) : Prop where
  on : Clocked page cs → GateOn cells ∧ RootEnabled cells
  off : ¬ Clocked page cs → GateOff cells

lemma clocked_snoc {cs : List Syscall} {c : Syscall} :
    Clocked page (cs ++ [c]) ↔ Clocked page cs ∨
      ∃ a, a ≠ mapFailed ∧ c = .mapped a pageSize64K (pageBase ccmBase page.bytes) := by
  constructor
  · rintro ⟨a, ha, hmem⟩
    rcases List.mem_append.mp hmem with hmem | hmem
    · exact .inl ⟨a, ha, hmem⟩
    · exact .inr ⟨a, ha, (List.mem_singleton.mp hmem).symm⟩
  · rintro (⟨a, ha, hmem⟩ | ⟨a, ha, rfl⟩)
    · exact ⟨a, ha, List.mem_append_left _ hmem⟩
    · exact ⟨a, ha, by simp⟩

/-- A system call that does not map the clock controller leaves everything as it is. -/
lemma Wired.snoc {cells : Nat → Word} {cs : List Syscall} {c : Syscall} (h : Wired page cells cs)
    (hc : ∀ a, c ≠ .mapped a pageSize64K (pageBase ccmBase page.bytes)) :
    Wired page cells (cs ++ [c]) := by
  have hiff : Clocked page (cs ++ [c]) ↔ Clocked page cs := by
    rw [clocked_snoc]
    exact or_iff_left fun ⟨a, _, ha⟩ => hc a ha
  exact ⟨fun hclocked => h.on (hiff.mp hclocked), fun hnot => h.off fun hc => hnot (hiff.mpr hc)⟩

/-- Nor does a store elsewhere. -/
lemma Wired.update {cells : Nat → Word} {cs : List Syscall} (h : Wired page cells cs) {x : Nat}
    (hx : x ≠ gateCell ∧ x ≠ rootCell) (v : Word) : Wired page (Function.update cells x v) cs := by
  have hgate : Function.update cells x v gateCell = cells gateCell :=
    Function.update_of_ne hx.1.symm v cells
  have hroot : Function.update cells x v rootCell = cells rootCell :=
    Function.update_of_ne hx.2.symm v cells
  exact ⟨fun hclocked => ⟨hgate.trans (h.on hclocked).1, by
    rw [RootEnabled, hroot]
    exact (h.on hclocked).2⟩, fun hnot => by
    rw [GateOff, hgate]
    exact h.off hnot⟩

/-! ## Assertions about the kernel, the cells and the system calls -/

/-- A property of the kernel, of what has been stored, and of the system calls made. -/
abbrev Facts := Kernel → (Nat → Word) → List Syscall → Prop

def On (R : Facts) : Assertion bus Process HostAction := fun s t =>
  R s.kernel s.cells (syscalls t)

/-- What is done is done in order: with a FlexSPI register accessed only while the cells are as the
trace says. -/
structure Proper (page : PageSize) (d : Head bus) (s : Process) (t : HostTrace) : Prop where
  wired : Touches page d s.kernel → Wired page s.cells (syscalls t)
  root : Writes page d s.kernel rootCell → Disabled s.cells
  trigger : Writes page d s.kernel (flexspiBase + Reg.ipcmd) → ¬ Disabled s.cells

lemma stable_on (R : Facts) : (process page).Stable (On R) := by
  rintro a s s' t hs hact
  obtain rfl := Option.some.inj hact
  have hcalls : syscalls (t ++ [.act a]) = syscalls t := by
    rw [syscalls_snoc]
    exact List.append_nil _
  rw [On, hcalls]
  cases a <;> exact hs

lemma touched_of_stored {d : Head bus} (h : touched d = none) : stored d = none := by
  cases d with
  | call o => cases o <;> first | rfl | cases h
  | _ => rfl

lemma proper_of_none {d : Head bus} (h : touched d = none) (s : Process) (t : HostTrace) :
    Proper page d s t where
  wired := fun ⟨_, ha, _⟩ => nomatch h.symm.trans ha
  root := fun ⟨_, ha, _⟩ => nomatch (touched_of_stored h).symm.trans ha
  trigger := fun ⟨_, ha, _⟩ => nomatch (touched_of_stored h).symm.trans ha

lemma check_on {R : Facts} (c : Prop) [Decidable c] :
    (process page).Triple (Proper page) (On R) (check c) fun _ s t => On R s t ∧ c :=
  Triple.check (stable_on R) fun s t _ _ => proper_of_none rfl s t

lemma ret_on {R : Facts} (a : α) :
    (process page).Triple (Proper page) (On R) (.ret a) fun _ => On R :=
  Triple.ret (stable_on R) fun _ _ hs => hs

/-- An operation that accesses no register. -/
lemma call_on {o : Access} (ho : touched (.call o) = none) {R : Facts} {U : o.Res → Facts}
    (h : ∀ r k cells cs, R k cells cs → k.GrantsAll page (syscall? (.call o r)).toList →
      U r (k.afterAll page (syscall? (.call o r)).toList) cells
        (cs ++ (syscall? (.call o r)).toList)) :
    (process page).Triple (Proper page) (On R) (Prog.op (S := bus) o) fun r => On (U r) := by
  refine Triple.op (stable_on R) (fun r => stable_on (U r)) (fun s t _ => proper_of_none ho s t) ?_
  intro s t hs
  obtain ⟨hkernel, hgrants⟩ := exec_kernel page o s
  have hcells : ((process page).exec o s).2.cells = s.cells := by
    cases o <;> first | rfl | cases ho
  have hnext := h _ s.kernel s.cells (syscalls t) hs hgrants
  rw [On, syscalls_snoc, hkernel, hcells]
  exact hnext

/-- What makes an access of the register at the physical address `x` proper. -/
structure Legal (page : PageSize) (R : Facts) (x : Nat) : Prop where
  wired {k : Kernel} {cells : Nat → Word} {cs : List Syscall} (h : R k cells cs)
    (hx : ∃ off < Reg.size, x = flexspiBase + off) : Wired page cells cs
  root {k : Kernel} {cells : Nat → Word} {cs : List Syscall} (h : R k cells cs)
    (hx : x = rootCell) : Disabled cells
  trigger {k : Kernel} {cells : Nat → Word} {cs : List Syscall} (h : R k cells cs)
    (hx : x = flexspiBase + Reg.ipcmd) : ¬ Disabled cells

lemma Legal.proper {R : Facts} {x a : Nat} (h : Legal page R x) {d : Head bus}
    (hd : touched d = some a) (hstored : stored d = none ∨ stored d = some a) {s : Process}
    {t : HostTrace} (hs : On R s t) (hphys : s.kernel.phys page a = some x) :
    Proper page d s t := by
  have hwrites : ∀ {y}, Writes page d s.kernel y → x = y := by
    rintro y ⟨b, hb, hy⟩
    rcases hstored with hnone | hsome
    · rw [hnone] at hb
      cases hb
    · obtain rfl := Option.some.inj (hsome.symm.trans hb)
      exact Option.some.inj (hphys.symm.trans hy)
  refine ⟨?_, fun hy => h.root hs (hwrites hy), fun hy => h.trigger hs (hwrites hy)⟩
  rintro ⟨b, hb, off, hoff, hy⟩
  obtain rfl := Option.some.inj (hd.symm.trans hb)
  exact h.wired hs ⟨off, hoff, Option.some.inj (hphys.symm.trans hy)⟩

variable {R U : Facts} {a x : Nat}

lemma load_on (hlegal : Legal page R x)
    (hphys : ∀ k cells cs, R k cells cs → k.phys page a = some x) :
    (process page).Triple (Proper page) (On R) (load a) fun _ => On R := by
  refine Triple.op (stable_on R) (fun _ => stable_on R) ?_ ?_
  · intro s t hs
    exact hlegal.proper rfl (.inl rfl) hs (hphys _ _ _ hs)
  · intro s t hs
    rw [On, syscalls_snoc]
    exact (List.append_nil (syscalls t)).symm ▸ hs

lemma store_on {v : Word} (hlegal : Legal page R x)
    (hphys : ∀ k cells cs, R k cells cs → k.phys page a = some x)
    (hnext : ∀ k cells cs, R k cells cs → U k (Function.update cells x v) cs) :
    (process page).Triple (Proper page) (On R) (store a v) fun _ => On U := by
  refine Triple.op (stable_on R) (fun _ => stable_on U) ?_ ?_
  · intro s t hs
    exact hlegal.proper rfl (.inr rfl) hs (hphys _ _ _ hs)
  · intro s t hs
    have hset : ((process page).exec (.store a v) s).2 =
        { s with cells := Function.update s.cells x v } := by
      change s.setCell page a (fun _ => v) = _
      simp only [Process.setCell, hphys _ _ _ hs]
    rw [On, syscalls_snoc, hset]
    exact (List.append_nil (syscalls t)).symm ▸ hnext _ _ _ hs

lemma orReg_on {m : Word} (hlegal : Legal page R x)
    (hphys : ∀ k cells cs, R k cells cs → k.phys page a = some x)
    (hnext : ∀ v k cells cs, R k cells cs → U k (Function.update cells x (v ||| m)) cs) :
    (process page).Triple (Proper page) (On R) (orReg a m) fun _ => On U :=
  (load_on hlegal hphys).bind fun v => store_on hlegal hphys (hnext v)

/-- `map_memory` of a page offset: what the `mmap` gives, its callers find. -/
lemma mapMemory_on (fd : Int) (base size : Nat) {U : Nat → Facts}
    (h : ∀ map k cells cs, R k cells cs →
      k.Grants page (.mapped map size (pageBase base page.bytes)) →
      U map (k.after page (.mapped map size (pageBase base page.bytes))) cells
        (cs ++ [.mapped map size (pageBase base page.bytes)])) :
    (process page).Triple (Proper page) (On R) (mapMemory fd base size page.bytes) fun r s t =>
      On (U r.1) s t ∧ r.2 = if r.1 = mapFailed then -1 else 0 := by
  unfold mapMemory
  refine (check_on _).bind fun _ => Triple.of_pure fun _ => ?_
  refine (check_on _).bind fun _ => Triple.of_pure fun _ => ?_
  refine (check_on _).bind fun _ => Triple.of_pure fun _ => ?_
  refine Triple.bind (Q := fun map => On (U map)) ?_ fun map => ?_
  · refine call_on rfl fun map k cells cs hs hgrants => ?_
    exact h map k cells cs hs hgrants.1
  · by_cases hmap : map = mapFailed
    · rw [if_pos hmap]
      exact Triple.ret (stable_and_const (stable_on _) _) fun s t hs => ⟨hs, (if_pos hmap).symm⟩
    · rw [if_neg hmap]
      exact Triple.ret (stable_and_const (stable_on _) _) fun s t hs => ⟨hs, (if_neg hmap).symm⟩

/-- `map_memory` and what comes behind it, by the two ends of its `mmap`. -/
lemma mapMemory_bind {G : Head bus → Assertion bus Process HostAction}
    (hG : ∀ d s t, Proper page d s t → G d s t) (fd : Int) (base size : Nat) {pageSize : Nat}
    (hpage : pageSize = page.bytes) {F : Facts} {U : Nat → Facts} {β : Type}
    {f : Nat × Int → Driver β}
    {Q : β → Assertion bus Process HostAction}
    (hfail : ∀ k cells cs, R k cells cs →
      F k cells (cs ++ [.mapped mapFailed size (pageBase base page.bytes)]))
    (hgrant : ∀ map k cells cs, map ≠ mapFailed → R k cells cs →
      k.Grants page (.mapped map size (pageBase base page.bytes)) →
      U map (k.after page (.mapped map size (pageBase base page.bytes))) cells
        (cs ++ [.mapped map size (pageBase base page.bytes)]))
    (hfailed : (process page).Triple G (On F) (f (mapFailed, -1)) Q)
    (hgranted : ∀ map, map ≠ mapFailed → (process page).Triple G (On (U map)) (f (map, 0)) Q) :
    (process page).Triple G (On R) (mapMemory fd base size pageSize >>= f) Q := by
  rw [hpage]
  refine ((mapMemory_on (U := fun map => if map = mapFailed then F else U map) fd base size
    ?_).allow hG).bind fun r => ?_
  · intro map k cells cs hs hgrants
    by_cases hmap : map = mapFailed
    · rw [if_pos hmap, Kernel.after, if_pos hmap, hmap]
      exact hfail k cells cs hs
    · rw [if_neg hmap]
      exact hgrant map k cells cs hmap hs hgrants
  · obtain ⟨map, result⟩ := r
    refine Triple.of_pure fun hresult => ?_
    dsimp only at hresult ⊢
    by_cases hmap : map = mapFailed
    · rw [if_pos hmap] at hresult ⊢
      rw [hresult, hmap]
      exact hfailed
    · rw [if_neg hmap] at hresult ⊢
      rw [hresult]
      exact hgranted map hmap

end QspiTool
