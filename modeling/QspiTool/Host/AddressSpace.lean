import QspiTool.Driver.Footprint
import QspiTool.Interaction.Monitor

/-!
# The address space of the process

The other side of the driver's accesses: the pages the process has mapped.  `mmap` maps whole
pages where the kernel chooses, if it succeeds, and `munmap` takes whole pages away.  What
registers and buffers hold does not matter here, so the environment chooses every value that is
read, as it chooses the outcome of each `open` and `mmap`.

A register access is good when its page is mapped (`Backed`).  The assertions of this part are
`Settled`: about the pages that are mapped and the history of the mappings, so that no access
falsifies them, and neither does mapping more pages.
-/

namespace QspiTool

open Words Interaction Machine

/-! ## Pages -/

/-- A page size: a power of two, at least 4096, that an `int` can hold. -/
structure PageSize where
  log : Nat
  le : 12 ≤ log
  lt : log < 31

def PageSize.bytes (page : PageSize) : Nat := 2 ^ page.log

namespace PageSize

variable (page : PageSize)

lemma dvd_bytes : 4096 ∣ page.bytes := Nat.pow_dvd_pow 2 page.le

lemma bytes_pos : 0 < page.bytes := Nat.two_pow_pos _

lemma le_bytes : 4096 ≤ page.bytes := Nat.le_of_dvd page.bytes_pos page.dvd_bytes

/-- Page `p` has a byte in common with the `size` bytes from `a` on. -/
def covers (a size p : Nat) : Bool :=
  decide (a / page.bytes ≤ p) && decide (p * page.bytes < a + size)

end PageSize

/-- Pages of 4 KB. -/
def smallPage : PageSize where
  log := 12
  le := by decide
  lt := by decide

/-- The process as the driver sees it. -/
structure Host where
  /-- The pages that `mmap` has mapped and `munmap` has not unmapped since, by number. -/
  mapped : Nat → Bool
  /-- What the next `open` returns. -/
  fd : Int
  /-- Where the next `mmap` goes, if it can. -/
  place : Nat
  /-- What the next load reads. -/
  value : Word

namespace Host

variable (page : PageSize) (s : Host)

/-- The kernel can map `size` bytes at the place it has chosen: free pages, not the first one. -/
def canPlace (size offset : Nat) : Bool :=
  decide (0 < size) && decide (offset % page.bytes = 0) && decide (0 < s.place) &&
    decide (s.place % page.bytes = 0) && decide (s.place + size < 2 ^ 63) &&
      (List.range (size / page.bytes + 1)).all fun i =>
        !(page.covers s.place size (s.place / page.bytes + i) &&
          s.mapped (s.place / page.bytes + i))

lemma canPlace_place {page : PageSize} {s : Host} {size offset : Nat}
    (h : s.canPlace page size offset = true) :
    0 < s.place ∧ s.place % page.bytes = 0 ∧ s.place ≠ mapFailed := by
  simp only [canPlace, Bool.and_eq_true, decide_eq_true_eq] at h
  obtain ⟨⟨⟨⟨-, hpos⟩, hplace⟩, hlt⟩, -⟩ := h
  exact ⟨hpos, hplace, by simp only [mapFailed]; omega⟩

/-- Map the pages of `size` bytes from `a` on. -/
def map (a size : Nat) : Host :=
  { s with mapped := fun p => s.mapped p || page.covers a size p }

/-- Unmap the pages of `size` bytes from `a` on; an address inside a page is refused. -/
def unmap (a size : Nat) : Host :=
  { s with mapped := fun p => s.mapped p && !(decide (a % page.bytes = 0) && page.covers a size p) }

end Host

/-! ## The machine -/

/-- What the environment decides. -/
inductive HostAction
  | setFd (fd : Int)
  | setPlace (a : Nat)
  | setValue (v : Word)
  deriving DecidableEq

def Host.perform (s : Host) : HostAction → Host
  | .setFd fd => { s with fd := fd }
  | .setPlace a => { s with place := a }
  | .setValue v => { s with value := v }

def Host.exec (page : PageSize) : (o : Access) → Host → o.Res × Host
  | .load _, s => (s.value, s)
  | .store _ _, s => ((), s)
  | .store8 _ _, s => ((), s)
  | .read8 _, s => (byteAt s.value 0, s)
  | .read32 _, s => (s.value, s)
  | .write8 _ _, s => ((), s)
  | .write32 _ _, s => ((), s)
  | .openMem, s => (s.fd, s)
  | .close _, s => ((), s)
  | .mmap size _ offset, s =>
      if s.canPlace page size offset then (s.place, s.map page s.place size) else (mapFailed, s)
  | .munmap a size, s => ((), s.unmap page a size)
  | .pageSize, s => (page.bytes, s)

/-- The process with the given page size. -/
def host (page : PageSize) : Machine bus Host HostAction where
  exec := Host.exec page
  act a s := some (s.perform a)

abbrev HostTrace := Trace bus HostAction

/-! ## The history of the mappings -/

/-- Whether the FlexSPI registers are mapped by the history, and whether a `QSPI_Init` has
failed. -/
structure MapWatch where
  attached : Bool
  failed : Bool
  deriving DecidableEq

/-- The FlexSPI mappings are those of `sizeof(FlexSPI_Type)` bytes. -/
def MapWatch.next (q : MapWatch) : Event bus HostAction → MapWatch
  | .call .openMem r => { q with failed := q.failed || decide ((show Int from r) < 0) }
  | .call (.mmap size _ _) r =>
      if size = Reg.size then
        if (show Nat from r) = mapFailed then { q with failed := true }
        else { q with attached := true }
      else q
  | .call (.munmap _ size) _ => if size = Reg.size then { q with attached := false } else q
  | _ => q

/-- Watches the mappings of the FlexSPI registers. -/
def mapWatch : Monitor bus HostAction where
  State := MapWatch
  init := ⟨false, false⟩
  next := MapWatch.next

/-- What the watch says after a run. -/
def maps (t : HostTrace) : MapWatch := mapWatch.after t

@[simp] lemma maps_snoc (t : HostTrace) (e : Event bus HostAction) :
    maps (t ++ [e]) = (maps t).next e :=
  Monitor.after_snoc _ _ _

/-- The registers have been mapped, and `QSPI_DeInit` has not unmapped them since. -/
def Attached (t : HostTrace) : Prop := (maps t).attached = true

/-- An `open`, or an `mmap` of the FlexSPI registers, has failed. -/
def InitFailed (t : HostTrace) : Prop := (maps t).failed = true

/-! ## Good accesses -/

/-- The register an operation or a wait accesses. -/
def touched : Head bus → Option Nat
  | .call (.load a) => some a
  | .call (.store a _) => some a
  | .call (.store8 a _) => some a
  | .poll w => some w.reg
  | _ => none

/-- The page of the register about to be accessed is mapped. -/
def Backed (page : PageSize) (d : Head bus) : Assertion bus Host HostAction := fun s _ =>
  ∀ a, touched d = some a → s.mapped (a / page.bytes) = true

instance (page : PageSize) (d : Head bus) (s : Host) (t : HostTrace) :
    Decidable (Backed page d s t) :=
  decidable_of_iff ((touched d).all fun a => s.mapped (a / page.bytes)) (by
    rw [Option.all_eq_true]
    exact Iff.rfl)

lemma backed_done {page : PageSize} (s : Host) (t : HostTrace) : Backed page .done s t :=
  nofun

lemma backed_abort {page : PageSize} (s : Host) (t : HostTrace) : Backed page .abort s t :=
  nofun

/-- All pages of `len` bytes from `bank` on are mapped. -/
def Live (page : PageSize) (bank len : Nat) (s : Host) : Prop :=
  ∀ x < len, s.mapped ((bank + x) / page.bytes) = true

variable {page : PageSize}

/-- `base & (page_size - 1)` is the place in the page. -/
lemma pageOffset_two_pow (base k : Nat) : pageOffset base (2 ^ k) = base % 2 ^ k :=
  Nat.and_two_pow_sub_one_eq_mod base k

/-- `base & ~(page_size - 1)` is the start of the page. -/
lemma pageBase_two_pow {base : Nat} (hbase : base < 2 ^ 64) (k : Nat) :
    pageBase base (2 ^ k) = 2 ^ k * (base / 2 ^ k) := by
  unfold pageBase
  rcases Nat.le_total 64 k with hk | hk
  · -- a page that holds the whole address space
    have hle : 2 ^ 64 ≤ 2 ^ k := Nat.pow_le_pow_right (by decide) hk
    rw [Nat.sub_eq_zero_of_le hle, Nat.and_zero, Nat.div_eq_of_lt (Nat.lt_of_lt_of_le hbase hle),
      Nat.mul_zero]
  · have hsplit : 2 ^ 64 = 2 ^ k * 2 ^ (64 - k) := by
      rw [← Nat.pow_add, Nat.add_sub_cancel' hk]
    have hmask : 2 ^ 64 - 2 ^ k = 2 ^ k * (2 ^ (64 - k) - 1) := by
      rw [hsplit, Nat.mul_sub_one]
    have hlt : base / 2 ^ k < 2 ^ (64 - k) := by
      rw [hsplit] at hbase
      exact Nat.div_lt_of_lt_mul hbase
    have hdiv : (base &&& (2 ^ 64 - 2 ^ k)) / 2 ^ k = base / 2 ^ k := by
      rw [Nat.and_div_two_pow, hmask, Nat.mul_div_cancel_left _ (Nat.two_pow_pos k),
        Nat.and_two_pow_sub_one_of_lt_two_pow hlt]
    have hmod : (base &&& (2 ^ 64 - 2 ^ k)) % 2 ^ k = 0 := by
      rw [Nat.and_mod_two_pow, hmask, Nat.mul_mod_right, Nat.and_zero]
    rw [← Nat.div_add_mod (base &&& (2 ^ 64 - 2 ^ k)) (2 ^ k), hdiv, hmod, Nat.add_zero]

/-- The registers at a multiple of 64 KB do not straddle: either they are in the first page of the
mapping, or they begin with it. -/
lemma register_in_page {base size x k : Nat} (hk : 12 ≤ k) (hbase : base % 65536 = 0)
    (hx : x < 4096 ∨ x < size) (hle : x < 65536) :
    base % 2 ^ k + x < 2 ^ k ∨ base % 2 ^ k = 0 ∧ x < size := by
  have hpage : 2 ^ 12 ≤ 2 ^ k := Nat.pow_le_pow_right (by decide) hk
  rcases Nat.le_total k 16 with hlog | hlog
  · have hdvd : 2 ^ k ∣ base :=
      Nat.dvd_trans (Nat.pow_dvd_pow 2 hlog) (Nat.dvd_of_mod_eq_zero hbase)
    have hzero := Nat.mod_eq_zero_of_dvd hdvd
    omega
  · obtain ⟨c, hc⟩ : 65536 ∣ 2 ^ k := Nat.pow_dvd_pow 2 hlog
    have hlt := Nat.mod_lt base (Nat.two_pow_pos k)
    have hmod : base % 2 ^ k % 65536 = 0 := by
      rw [Nat.mod_mod_of_dvd _ ⟨c, hc⟩, hbase]
    omega

/-- A mapping of a physical address at a multiple of 64 KB reaches whole pages, and so the
registers that are asked for when they are at most a page or within the size given. -/
lemma live_map {s : Host} {base size : Nat} (len : Nat) (hplace : s.place % page.bytes = 0)
    (hbase : base % 65536 = 0) (hsize : 0 < size) (hlen : len ≤ 4096 ∨ len ≤ size)
    (hle : len ≤ 65536) :
    Live page (s.place + pageOffset base page.bytes) len (s.map page s.place size) := by
  intro x hx
  have hoffset : pageOffset base page.bytes = base % page.bytes := pageOffset_two_pow base page.log
  have hcase : base % page.bytes + x < page.bytes ∨ base % page.bytes = 0 ∧ x < size :=
    register_in_page page.le hbase (by omega) (by omega)
  obtain ⟨q, hq⟩ := Nat.dvd_of_mod_eq_zero hplace
  have hpos := page.bytes_pos
  have hcovers : page.covers s.place size ((s.place + base % page.bytes + x) / page.bytes) := by
    simp only [PageSize.covers, Bool.and_eq_true, decide_eq_true_eq]
    refine ⟨Nat.div_le_div_right (by omega), ?_⟩
    rcases hcase with hfirst | ⟨hzero, hx⟩
    · have hdiv : (s.place + base % page.bytes + x) / page.bytes = q := by
        rw [hq, Nat.add_assoc, Nat.mul_add_div hpos, Nat.div_eq_of_lt hfirst, Nat.add_zero]
      rw [hdiv, Nat.mul_comm, ← hq]
      omega
    · have hfloor := Nat.div_mul_le_self (s.place + base % page.bytes + x) page.bytes
      omega
  rw [hoffset]
  simp only [Host.map, hcovers, Bool.or_true]

/-! ## Settled assertions -/

/-- About the mapped pages and the history of the mappings, and not falsified by more pages. -/
def Settled (P : Assertion bus Host HostAction) : Prop :=
  ∀ s s' t t', (∀ p, s.mapped p = true → s'.mapped p = true) → maps t' = maps t → P s t → P s' t'

variable {P R : Assertion bus Host HostAction} {α : Type}

lemma Settled.stable (hP : Settled P) : (host page).Stable P := by
  intro a s s' t hs hact
  obtain rfl := Option.some.inj hact
  refine hP s _ t _ (fun p hp => ?_) ?_ hs
  · cases a <;> exact hp
  · rw [maps_snoc]
    rfl

lemma settled_and (hP : Settled P) (hR : Settled R) : Settled fun s t => P s t ∧ R s t :=
  fun s s' t t' hpages hmaps hs =>
    ⟨hP s s' t t' hpages hmaps hs.1, hR s s' t t' hpages hmaps hs.2⟩

lemma settled_or (hP : Settled P) (hR : Settled R) : Settled fun s t => P s t ∨ R s t :=
  fun s s' t t' hpages hmaps hs =>
    hs.imp (hP s s' t t' hpages hmaps) (hR s s' t t' hpages hmaps)

lemma settled_const (c : Prop) : Settled fun _ _ => c := fun _ _ _ _ _ _ hc => hc

lemma settled_live (bank len : Nat) : Settled fun s _ => Live page bank len s :=
  fun _ _ _ _ hpages _ hlive x hx => hpages _ (hlive x hx)

/-! ## Programs that leave the mappings alone -/

/-- The operation or wait accesses no register outside the `len` bytes from `bank` on, and is
none of the system calls that concern mappings. -/
def Within (bank len : Nat) (d : Head bus) : Prop :=
  (∀ a, touched d = some a → ∃ x < len, a = bank + x) ∧
    match d with
    | .call .openMem | .call (.mmap _ _ _) | .call (.munmap _ _) => False
    | _ => True

lemma exec_within (page : PageSize) {bank len : Nat} {o : Access}
    (h : Within bank len (.call o)) (s : Host)
    (t : HostTrace) :
    ((host page).exec o s).2.mapped = s.mapped ∧
      maps (t ++ [.call o ((host page).exec o s).1]) = maps t := by
  rw [maps_snoc]
  cases o with
  | openMem => exact h.2.elim
  | mmap size fd offset => exact h.2.elim
  | munmap a size => exact h.2.elim
  | _ => exact ⟨rfl, rfl⟩

/-- Where the registers a program accesses are mapped, its accesses are good and the mappings
stay. -/
lemma Settled.within (hP : Settled P) {φ : Head bus → Prop} {p : Driver α} (hp : p.Every φ)
    {bank len : Nat} (hφ : ∀ d, φ d → Within bank len d)
    (hlive : ∀ s t, P s t → Live page bank len s) :
    (host page).Triple (fun d s t => Backed page d s t ∧ P s t ∧ φ d) P p fun _ => P := by
  refine Triple.invariant hp hP.stable ?_ ?_ ?_
  · intro d s t hd hs
    refine ⟨fun a ha => ?_, hs, hd⟩
    obtain ⟨x, hx, rfl⟩ := (hφ d hd).1 a ha
    exact hlive s t hs x hx
  · intro o s t ho hs
    obtain ⟨hmapped, hmaps⟩ := exec_within page (hφ _ ho) s t
    exact hP s _ t _ (fun p hp => hmapped ▸ hp) hmaps hs
  · intro w s t _ hs
    exact hP s _ t _ (fun _ hp => hp) (by rw [maps_snoc]; rfl) hs

end QspiTool
