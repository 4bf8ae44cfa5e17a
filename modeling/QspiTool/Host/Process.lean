import Mathlib.Logic.Function.Basic
import QspiTool.Driver.History
import QspiTool.Host.AddressSpace

/-!
# The process and its kernel

The driver shares its process with other code.  The kernel keeps a page table and a table of
descriptors for all of it: each page and each descriptor number is free, the driver's, or
somebody else's.  `mmap` gives pages that are free, `open` a number that is free, and both may
fail; `munmap` and `close` take whatever they are told to take.

A page of the driver shows a frame of the physical address space, so that a register access
reaches the device behind it: the registers the driver configures and never waits for keep what
is stored to them, and every other register reads as the environment likes.

`Syscall` is a system call with its answer.  What the calls of a run have done to the kernel
is a function of the system calls in its trace (`reach_kernel`).
-/

namespace QspiTool

open Words Interaction Machine

/-! ## The kernel -/

/-- What a page of the address space shows. -/
inductive Page
  | free
  /-- A frame of the physical address space, mapped by the driver. -/
  | device (frame : Nat)
  /-- A page of the rest of the process. -/
  | other
  deriving DecidableEq

/-- Who holds a descriptor number. -/
inductive Holder
  | nobody
  | driver
  | other
  deriving DecidableEq

structure Kernel where
  pages : Nat → Page
  descriptors : Int → Holder

/-- A system call with its answer. -/
inductive Syscall
  | opened (fd : Int)
  | closed (fd : Int)
  | mapped (a size offset : Nat)
  | unmapped (a size : Nat)
  deriving DecidableEq

namespace Kernel

variable (page : PageSize) (k : Kernel)

/-- The driver has mapped page `p`. -/
def Owns (p : Nat) : Prop := ∃ frame, k.pages p = .device frame

/-- The `size` bytes from `a` on are a live mapping of the physical address `offset`. -/
def Maps (a size offset : Nat) : Prop :=
  ∀ p, page.covers a size p = true →
    k.pages p = .device (offset / page.bytes + (p - a / page.bytes))

/-- The physical address behind `a`, if the driver has mapped its page. -/
def phys (a : Nat) : Option Nat :=
  match k.pages (a / page.bytes) with
  | .device frame => some (frame * page.bytes + a % page.bytes)
  | .free | .other => none

/-- What a system call changes.  An address inside a page is refused by `munmap`. -/
def after : Syscall → Kernel
  | .opened fd =>
      if 0 ≤ fd then { k with descriptors := Function.update k.descriptors fd .driver } else k
  | .closed fd => { k with descriptors := Function.update k.descriptors fd .nobody }
  | .mapped a size offset =>
      if a = mapFailed then k
      else { k with pages := fun p =>
        if page.covers a size p then .device (offset / page.bytes + (p - a / page.bytes))
        else k.pages p }
  | .unmapped a size =>
      if a % page.bytes = 0 then
        { k with pages := fun p => if page.covers a size p then .free else k.pages p }
      else k

/-- The answers the kernel may give. -/
def Grants : Syscall → Prop
  | .opened fd => 0 ≤ fd → k.descriptors fd = .nobody
  | .mapped a size _ => a = mapFailed ∨
      0 < a ∧ a % page.bytes = 0 ∧ a + size < 2 ^ 63 ∧
        ∀ p, page.covers a size p = true → k.pages p = .free
  | .closed _ | .unmapped _ _ => True

/-- The kernel after some system calls. -/
def afterAll (cs : List Syscall) : Kernel := cs.foldl (Kernel.after page) k

/-- Each system call is answered as the kernel may. -/
def GrantsAll : Kernel → List Syscall → Prop
  | _, [] => True
  | k, c :: cs => k.Grants page c ∧ GrantsAll (k.after page c) cs

@[simp] lemma after_opened_pages (fd : Int) : (k.after page (.opened fd)).pages = k.pages := by
  simp only [after, apply_ite Kernel.pages, ite_self]

@[simp] lemma after_closed_pages (fd : Int) : (k.after page (.closed fd)).pages = k.pages := rfl

@[simp] lemma after_mapped_descriptors (a size offset : Nat) :
    (k.after page (.mapped a size offset)).descriptors = k.descriptors := by
  simp only [after, apply_ite Kernel.descriptors, ite_self]

@[simp] lemma after_unmapped_descriptors (a size : Nat) :
    (k.after page (.unmapped a size)).descriptors = k.descriptors := by
  simp only [after, apply_ite Kernel.descriptors, ite_self]

@[simp] lemma afterAll_nil : k.afterAll page [] = k := rfl

@[simp] lemma afterAll_cons (c : Syscall) (cs : List Syscall) :
    k.afterAll page (c :: cs) = (k.after page c).afterAll page cs := rfl

@[simp] lemma grantsAll_nil : k.GrantsAll page [] := trivial

@[simp] lemma grantsAll_cons (c : Syscall) (cs : List Syscall) :
    k.GrantsAll page (c :: cs) ↔ k.Grants page c ∧ (k.after page c).GrantsAll page cs := Iff.rfl

lemma afterAll_append (cs ds : List Syscall) :
    k.afterAll page (cs ++ ds) = (k.afterAll page cs).afterAll page ds :=
  List.foldl_append

lemma grantsAll_append (cs ds : List Syscall) :
    k.GrantsAll page (cs ++ ds) ↔
      k.GrantsAll page cs ∧ (k.afterAll page cs).GrantsAll page ds := by
  induction cs generalizing k with
  | nil => simp
  | cons c cs ih =>
    simp only [List.cons_append, grantsAll_cons, afterAll_cons, ih]
    exact and_assoc.symm

/-- The kernel can map `size` bytes at `a`: free pages, not the first one. -/
def canMap (a size offset : Nat) : Bool :=
  decide (0 < size) && decide (offset % page.bytes = 0) && decide (0 < a) &&
    decide (a % page.bytes = 0) && decide (a + size < 2 ^ 63) &&
      (List.range (size / page.bytes + 1)).all fun i =>
        !page.covers a size (a / page.bytes + i) ||
          decide (k.pages (a / page.bytes + i) = .free)

end Kernel

variable {page : PageSize} {k : Kernel}

lemma PageSize.covers_iff {a size p : Nat} :
    page.covers a size p = true ↔ a / page.bytes ≤ p ∧ p * page.bytes < a + size := by
  simp only [PageSize.covers, Bool.and_eq_true, decide_eq_true_eq]

lemma Kernel.grants_of_canMap {a size offset : Nat} (h : k.canMap page a size offset = true) :
    k.Grants page (.mapped a size offset) := by
  simp only [canMap, Bool.and_eq_true, decide_eq_true_eq, List.all_eq_true, List.mem_range,
    Bool.or_eq_true, Bool.not_eq_true'] at h
  obtain ⟨⟨⟨⟨⟨hsize, -⟩, hpos⟩, halign⟩, hlt⟩, hfree⟩ := h
  refine .inr ⟨hpos, halign, hlt, fun p hp => ?_⟩
  obtain ⟨hfirst, hlast⟩ := PageSize.covers_iff.mp hp
  -- the pages covered are numbered from the first one on
  obtain ⟨i, rfl⟩ := Nat.exists_eq_add_of_le hfirst
  have hi : i < size / page.bytes + 1 := by
    obtain ⟨q, hq⟩ := Nat.dvd_of_mod_eq_zero halign
    have hdiv : a / page.bytes = q := by
      rw [hq]
      exact Nat.mul_div_cancel_left q page.bytes_pos
    rw [hdiv, Nat.add_mul, Nat.mul_comm q, ← hq] at hlast
    have hmul : i * page.bytes < size := by omega
    exact Nat.lt_succ_of_le ((Nat.le_div_iff_mul_le page.bytes_pos).mpr (Nat.le_of_lt hmul))
  exact (hfree i hi).resolve_left fun hnot => by rw [hp] at hnot; cases hnot

namespace Kernel

/-! ## Pages of the driver -/

lemma maps_after_mapped (k : Kernel) {a : Nat} (ha : a ≠ mapFailed) (size offset : Nat) :
    (k.after page (.mapped a size offset)).Maps page a size offset := by
  intro p hp
  simp only [after, if_neg ha, if_pos hp]

/-- The kernel puts a mapping where there is none. -/
lemma Maps.after_mapped {a size offset : Nat} (h : k.Maps page a size offset)
    {a' size' offset' : Nat} (hgrants : k.Grants page (.mapped a' size' offset')) :
    (k.after page (.mapped a' size' offset')).Maps page a size offset := by
  intro p hp
  by_cases ha : a' = mapFailed
  · simp only [after, if_pos ha]
    exact h p hp
  · have hnot : ¬ page.covers a' size' p = true := by
      intro hcovers
      have hfree := (hgrants.resolve_left ha).2.2.2 p hcovers
      rw [h p hp] at hfree
      cases hfree
    simp only [after, if_neg ha, if_neg hnot]
    exact h p hp

lemma Grants.aligned {a size offset : Nat} (h : k.Grants page (.mapped a size offset))
    (ha : a ≠ mapFailed) : a % page.bytes = 0 :=
  (h.resolve_left ha).2.1

lemma Maps.owns {a size offset p : Nat} (h : k.Maps page a size offset)
    (hp : page.covers a size p = true) : k.Owns p :=
  ⟨_, h p hp⟩

lemma owns_after_mapped {a size offset p : Nat} :
    (k.after page (.mapped a size offset)).Owns p ↔
      k.Owns p ∨ a ≠ mapFailed ∧ page.covers a size p = true := by
  by_cases ha : a = mapFailed
  · simp [after, ha]
  · by_cases hp : page.covers a size p = true
    · simp [Owns, after, ha, hp]
    · simp [Owns, after, ha, hp]

lemma owns_after_unmapped {a size p : Nat} :
    (k.after page (.unmapped a size)).Owns p ↔
      k.Owns p ∧ ¬ (a % page.bytes = 0 ∧ page.covers a size p = true) := by
  by_cases ha : a % page.bytes = 0
  · by_cases hp : page.covers a size p = true
    · simp [Owns, after, ha, hp]
    · simp [Owns, after, ha, hp]
  · simp [after, ha]

lemma owns_after_opened {fd : Int} {p : Nat} :
    (k.after page (.opened fd)).Owns p ↔ k.Owns p := by
  rw [Owns, after_opened_pages, ← Owns]

lemma owns_after_closed {fd : Int} {p : Nat} :
    (k.after page (.closed fd)).Owns p ↔ k.Owns p := Iff.rfl

end Kernel

/-! ## The machine -/

/-- The process, with the device behind its mappings. -/
structure Process where
  kernel : Kernel
  /-- What has been stored, by physical address. -/
  cells : Nat → Word
  /-- What the next `open` returns, if it can. -/
  fd : Int
  /-- Where the next `mmap` goes, if it can. -/
  place : Nat
  /-- What the next load of a register that moves by itself reads. -/
  value : Word

/-- The registers that keep what is stored to them: `MCR0`, the clock gate and the clock root. -/
def Kept (x : Nat) : Prop :=
  x = flexspiBase + Reg.mcr0 ∨ x = ccmBase + ccmCcgr47 ∨ x = ccmBase + qspiClkRoot

instance (x : Nat) : Decidable (Kept x) := inferInstanceAs (Decidable (_ ∨ _))

namespace Process

variable (page : PageSize) (s : Process)

def load (a : Nat) : Word :=
  match s.kernel.phys page a with
  | some x => if Kept x then s.cells x else s.value
  | none => s.value

def setCell (a : Nat) (f : Word → Word) : Process :=
  match s.kernel.phys page a with
  | some x => { s with cells := Function.update s.cells x (f (s.cells x)) }
  | none => s

/-- The kernel serves a system call. -/
def serve (c : Syscall) : Process := { s with kernel := s.kernel.after page c }

def openAnswer : Int :=
  if s.fd < 0 ∨ s.kernel.descriptors s.fd = .nobody then s.fd else -1

def mmapAnswer (size offset : Nat) : Nat :=
  if s.kernel.canMap page s.place size offset then s.place else mapFailed

def exec : (o : Access) → Process → o.Res × Process
  | .load a, s => (s.load page a, s)
  | .store a v, s => ((), s.setCell page a fun _ => v)
  | .store8 a b, s => ((), s.setCell page (4 * (a / 4)) fun v => setByte v (a % 4) b)
  | .read8 _, s => (byteAt s.value 0, s)
  | .read32 _, s => (s.value, s)
  | .write8 _ _, s => ((), s)
  | .write32 _ _, s => ((), s)
  | .openMem, s => (s.openAnswer, s.serve page (.opened s.openAnswer))
  | .close fd, s => ((), s.serve page (.closed fd))
  | .mmap size _ offset, s =>
      (s.mmapAnswer page size offset,
        s.serve page (.mapped (s.mmapAnswer page size offset) size offset))
  | .munmap a size, s => ((), s.serve page (.unmapped a size))
  | .pageSize, s => (page.bytes, s)

def perform : HostAction → Process
  | .setFd fd => { s with fd := fd }
  | .setPlace a => { s with place := a }
  | .setValue v => { s with value := v }

end Process

/-- The process with the given page size. -/
def process (page : PageSize) : Machine bus Process HostAction where
  exec := Process.exec page
  act a s := some (s.perform a)

/-! ## The system calls of a run -/

def syscall? : Event bus HostAction → Option Syscall
  | .call .openMem r => some (.opened (show Int from r))
  | .call (.close fd) _ => some (.closed fd)
  | .call (.mmap size _ offset) r => some (.mapped (show Nat from r) size offset)
  | .call (.munmap a size) _ => some (.unmapped a size)
  | _ => none

/-- The system calls of a run, oldest first. -/
def syscalls (t : HostTrace) : List Syscall := t.filterMap syscall?

@[simp] lemma syscalls_nil : syscalls [] = [] := rfl

@[simp] lemma syscalls_append (t u : HostTrace) : syscalls (t ++ u) = syscalls t ++ syscalls u :=
  List.filterMap_append

lemma syscalls_snoc (t : HostTrace) (e : Event bus HostAction) :
    syscalls (t ++ [e]) = syscalls t ++ (syscall? e).toList := by
  rw [syscalls_append]
  cases h : syscall? e <;> simp [syscalls, h]

/-- An operation changes the kernel as its system call says, and gets an answer the kernel may
give. -/
lemma exec_kernel (page : PageSize) (o : Access) (s : Process) :
    ((process page).exec o s).2.kernel =
        s.kernel.afterAll page (syscall? (.call o ((process page).exec o s).1)).toList ∧
      s.kernel.GrantsAll page (syscall? (.call o ((process page).exec o s).1)).toList := by
  have hcell : ∀ a f, (s.setCell page a f).kernel = s.kernel := by
    intro a f
    unfold Process.setCell
    split <;> rfl
  cases o with
  | store a v => exact ⟨hcell a fun _ => v, trivial⟩
  | store8 a b => exact ⟨hcell (4 * (a / 4)) fun v => setByte v (a % 4) b, trivial⟩
  | openMem =>
    refine ⟨rfl, fun hpos => ?_, trivial⟩
    change 0 ≤ s.openAnswer at hpos
    change s.kernel.descriptors s.openAnswer = .nobody
    by_cases hfree : s.fd < 0 ∨ s.kernel.descriptors s.fd = .nobody
    · rw [Process.openAnswer, if_pos hfree] at hpos ⊢
      exact hfree.resolve_left (by omega)
    · rw [Process.openAnswer, if_neg hfree] at hpos
      omega
  | mmap size fd offset =>
    refine ⟨rfl, ?_, trivial⟩
    change s.kernel.Grants page (.mapped (s.mmapAnswer page size offset) size offset)
    unfold Process.mmapAnswer
    split
    · rename_i hcan
      exact Kernel.grants_of_canMap hcan
    · exact .inl rfl
  | close fd => exact ⟨rfl, trivial, trivial⟩
  | munmap a size => exact ⟨rfl, trivial, trivial⟩
  | _ => exact ⟨rfl, trivial⟩

/-- One tick. -/
lemma step_kernel {α : Type} {c c' : Config bus Process HostAction α}
    (h : (process page).Step c c') :
    ∃ u, c'.trace = c.trace ++ u ∧
      c'.state.kernel = c.state.kernel.afterAll page (syscalls u) ∧
      c.state.kernel.GrantsAll page (syscalls u) := by
  obtain ⟨tick, htick⟩ := h
  obtain ⟨p, s, t⟩ := c
  cases tick with
  | env a =>
    obtain rfl := Option.some.inj htick
    refine ⟨[.act a], rfl, ?_, trivial⟩
    cases a <;> rfl
  | prog =>
    cases p with
    | ret a => cases htick
    | abort => cases htick
    | call o q =>
      obtain rfl := Option.some.inj htick
      obtain ⟨hkernel, hgrants⟩ := exec_kernel page o s
      have hone : syscalls [.call o ((process page).exec o s).1] =
          (syscall? (.call o ((process page).exec o s).1)).toList := by
        rw [← List.nil_append [Event.call o _], syscalls_snoc, syscalls_nil, List.nil_append]
      exact ⟨_, rfl, by rw [hone]; exact hkernel, by rw [hone]; exact hgrants⟩
    | poll w q =>
      obtain rfl := Option.some.inj htick
      exact ⟨_, rfl, rfl, trivial⟩

/-- **The kernel after a run** is what the system calls of the run make of it. -/
theorem reach_kernel {α : Type} {c c' : Config bus Process HostAction α}
    (h : (process page).Reach c c') :
    ∃ u, c'.trace = c.trace ++ u ∧
      c'.state.kernel = c.state.kernel.afterAll page (syscalls u) ∧
      c.state.kernel.GrantsAll page (syscalls u) := by
  induction h with
  | refl => exact ⟨[], by simp, rfl, trivial⟩
  | tail _ hstep ih =>
    obtain ⟨u, htrace, hkernel, hgrants⟩ := ih
    obtain ⟨v, htrace', hkernel', hgrants'⟩ := step_kernel hstep
    refine ⟨u ++ v, by rw [htrace', htrace, List.append_assoc], ?_, ?_⟩
    · rw [hkernel', hkernel, syscalls_append, Kernel.afterAll_append]
    · rw [syscalls_append, Kernel.grantsAll_append, ← hkernel]
      exact ⟨hgrants, hgrants'⟩

end QspiTool
