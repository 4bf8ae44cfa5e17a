import QspiTool.Host.Process

/-!
# Registers behind pages

What a register access of the driver reaches depends on the page table: the registers at a physical
address are reached through a pointer (`Kernel.Shows`), or none is (`Kernel.Hides`).  A new mapping
shows what it is asked for, and nothing is shown by accident: while pages are only taken away, what
is shown within 4 KB stays or is hidden as a whole.
-/

namespace QspiTool

open Words Interaction Machine

variable {page : PageSize} {k : Kernel}

/-- The `len` bytes from `bank` on show the registers at `base`. -/
def Kernel.Shows (page : PageSize) (k : Kernel) (bank base len : Nat) : Prop :=
  ∀ off < len, k.phys page (bank + off) = some (base + off)

lemma phys_of_device {a frame : Nat} (h : k.pages (a / page.bytes) = .device frame) :
    k.phys page a = some (frame * page.bytes + a % page.bytes) := by
  simp only [Kernel.phys, h]

lemma device_of_phys {a x : Nat} (h : k.phys page a = some x) :
    ∃ frame, k.pages (a / page.bytes) = .device frame ∧
      frame * page.bytes + a % page.bytes = x := by
  unfold Kernel.phys at h
  split at h
  · rename_i frame hframe
    exact ⟨frame, hframe, Option.some.inj h⟩
  · cases h
  · cases h

lemma owns_of_phys {a x : Nat} (h : k.phys page a = some x) : k.Owns (a / page.bytes) := by
  obtain ⟨frame, hframe, -⟩ := device_of_phys h
  exact ⟨frame, hframe⟩

/-- Clearing the offset bits leaves the frame. -/
lemma pageBase_div {base : Nat} (hbase : base < 2 ^ 64) :
    pageBase base page.bytes / page.bytes = base / page.bytes := by
  rw [PageSize.bytes, pageBase_two_pow hbase, Nat.mul_div_cancel_left _ (Nat.two_pow_pos _)]

lemma pageOffset_eq (base : Nat) : pageOffset base page.bytes = base % page.bytes :=
  pageOffset_two_pow base page.log

/-- A mapping of a physical address at a multiple of 64 KB shows the registers asked for when they
are at most a page or within the size given. -/
lemma Kernel.Maps.shows {a base size len : Nat}
    (h : k.Maps page a size (pageBase base page.bytes)) (halign : a % page.bytes = 0)
    (hbase : base % 65536 = 0) (hbound : base < 2 ^ 64) (hsize : 0 < size)
    (hlen : len ≤ 4096 ∨ len ≤ size) (hle : len ≤ 65536) :
    k.Shows page (a + pageOffset base page.bytes) base len := by
  intro x hx
  obtain ⟨q, rfl⟩ := Nat.dvd_of_mod_eq_zero halign
  have hpos := page.bytes_pos
  have hframe : pageBase base page.bytes / page.bytes = base / page.bytes := pageBase_div hbound
  have hdiv := Nat.div_add_mod base page.bytes
  rw [pageOffset_eq]
  have hpage : page.bytes * q / page.bytes = q := Nat.mul_div_cancel_left q hpos
  have hcase : base % page.bytes + x < page.bytes ∨ base % page.bytes = 0 ∧ x < size :=
    register_in_page page.le hbase (by omega) (by omega)
  rcases hcase with hfirst | ⟨hzero, hx⟩
  · have hnumber : (page.bytes * q + base % page.bytes + x) / page.bytes = q := by
      rw [Nat.add_assoc, Nat.mul_add_div hpos, Nat.div_eq_of_lt hfirst, Nat.add_zero]
    have hrest : (page.bytes * q + base % page.bytes + x) % page.bytes =
        base % page.bytes + x := by
      rw [Nat.add_assoc, Nat.mul_add_mod, Nat.mod_eq_of_lt hfirst]
    have hdevice := h q (PageSize.covers_iff.mpr ⟨Nat.le_of_eq hpage, by
      rw [Nat.mul_comm]
      omega⟩)
    rw [hpage, Nat.sub_self, Nat.add_zero, hframe, ← hnumber] at hdevice
    rw [phys_of_device hdevice, hrest, Nat.mul_comm]
    exact congrArg some (by omega)
  · have hnumber : (page.bytes * q + base % page.bytes + x) / page.bytes = q + x / page.bytes := by
      rw [hzero, Nat.add_zero, Nat.mul_add_div hpos]
    have hrest : (page.bytes * q + base % page.bytes + x) % page.bytes = x % page.bytes := by
      rw [hzero, Nat.add_zero, Nat.mul_add_mod]
    have hmul := Nat.div_mul_le_self x page.bytes
    have hfirst : page.bytes * q / page.bytes ≤ q + x / page.bytes :=
      hpage.symm ▸ Nat.le_add_right _ _
    have hdevice := h (q + x / page.bytes) (PageSize.covers_iff.mpr ⟨hfirst, by
      rw [Nat.add_mul, Nat.mul_comm q]
      omega⟩)
    rw [hpage, Nat.add_sub_cancel_left, hframe, ← hnumber] at hdevice
    rw [phys_of_device hdevice, hrest, Nat.add_mul]
    have hx' := Nat.div_add_mod x page.bytes
    rw [Nat.mul_comm] at hx' hdiv
    exact congrArg some (by omega)

/-- A mapping that is granted shows the registers asked for. -/
lemma Kernel.Grants.shows {map base size len : Nat}
    (h : k.Grants page (.mapped map size (pageBase base page.bytes))) (hmap : map ≠ mapFailed)
    (hbase : base % 65536 = 0) (hbound : base < 2 ^ 64) (hsize : 0 < size)
    (hlen : len ≤ 4096 ∨ len ≤ size) (hle : len ≤ 65536) :
    (k.after page (.mapped map size (pageBase base page.bytes))).Shows page
      (map + pageOffset base page.bytes) base len :=
  (Kernel.maps_after_mapped k hmap _ _).shows (h.aligned hmap) hbase hbound hsize hlen hle

/-- What a pointer shows stays where it is while no page is taken away. -/
lemma Kernel.Shows.mono {k' : Kernel} {bank base len : Nat} (h : k.Shows page bank base len)
    (hpages : ∀ p frame, k.pages p = .device frame → k'.pages p = .device frame) :
    k'.Shows page bank base len := by
  intro off hoff
  obtain ⟨frame, hframe, heq⟩ := device_of_phys (h off hoff)
  rw [phys_of_device (hpages _ _ hframe), heq]

lemma Kernel.Grants.keeps {a size offset : Nat} (h : k.Grants page (.mapped a size offset))
    (p : Nat)
    (frame : Nat) (hp : k.pages p = .device frame) :
    (k.after page (.mapped a size offset)).pages p = .device frame := by
  by_cases ha : a = mapFailed
  · simpa only [Kernel.after, if_pos ha] using hp
  · by_cases hcovers : page.covers a size p = true
    · have hfree := (h.resolve_left ha).2.2.2 p hcovers
      rw [hp] at hfree
      cases hfree
    · simpa only [Kernel.after, if_neg ha, if_neg hcovers] using hp

/-- What is shown within 4 KB is shown by one page. -/
lemma Kernel.Shows.number {bank base off : Nat} (h : k.Shows page bank base 4096)
    (hbase : base % 4096 = 0) (hoff : off < 4096) :
    (bank + off) / page.bytes = bank / page.bytes := by
  obtain ⟨frame, -, heq⟩ := device_of_phys (h 0 (by decide))
  obtain ⟨c, hc⟩ := page.dvd_bytes
  have hpos := page.bytes_pos
  have hlt := Nat.mod_lt bank hpos
  have hmod : bank % page.bytes % 4096 = 0 := by
    have hmul : frame * page.bytes % 4096 = 0 := by
      rw [hc]
      exact Nat.mod_eq_zero_of_dvd
        (Nat.dvd_trans (Nat.dvd_mul_right 4096 c) (Nat.dvd_mul_left (4096 * c) frame))
    simp only [Nat.add_zero] at heq
    omega
  have hsplit := Nat.div_add_mod bank page.bytes
  have hfit : bank % page.bytes + off < page.bytes := by omega
  rw [← hsplit, Nat.add_assoc, Nat.mul_add_div hpos, Nat.div_eq_of_lt hfit, Nat.add_zero,
    Nat.mul_add_div hpos, Nat.div_eq_of_lt hlt, Nat.add_zero]

lemma Kernel.Shows.one_page {k' : Kernel} {bank base : Nat} (h : k.Shows page bank base 4096)
    (hbase : base % 4096 = 0)
    (hpage : k'.pages (bank / page.bytes) = k.pages (bank / page.bytes)) :
    k'.Shows page bank base 4096 := by
  intro off hoff
  have hnumber := h.number hbase hoff
  obtain ⟨frame, hframe, heq⟩ := device_of_phys (h off hoff)
  rw [hnumber, ← hpage, ← hnumber] at hframe
  rw [phys_of_device hframe, heq]

/-- No register is reached through the `len` bytes from `bank` on. -/
def Kernel.Hides (page : PageSize) (k : Kernel) (bank len : Nat) : Prop :=
  ∀ off < len, k.phys page (bank + off) = none

/-- When pages are only taken away, what is shown within 4 KB is shown or hidden. -/
lemma Kernel.Shows.or_hides {k' : Kernel} {bank base : Nat} (h : k.Shows page bank base 4096)
    (hbase : base % 4096 = 0)
    (hpages : ∀ p, k'.pages p = k.pages p ∨ k'.pages p = .free) :
    k'.Shows page bank base 4096 ∨ k'.Hides page bank 4096 := by
  rcases hpages (bank / page.bytes) with hsame | hfree
  · exact .inl (h.one_page hbase hsame)
  · refine .inr fun off hoff => ?_
    simp only [Kernel.phys, h.number hbase hoff, hfree]

lemma Kernel.Hides.mono {k' : Kernel} {bank len : Nat} (h : k.Hides page bank len)
    (hpages : ∀ p, k'.pages p = k.pages p ∨ k'.pages p = .free) : k'.Hides page bank len := by
  intro off hoff
  have hhide := h off hoff
  rcases hpages ((bank + off) / page.bytes) with hsame | hfree
  · simp only [Kernel.phys, hsame]
    exact hhide
  · simp only [Kernel.phys, hfree]

end QspiTool
