import QspiTool.Host.AddressSpace

/-!
# What the public calls do to the mappings

One triple for each call of `qspi.h`.  The FlexSPI registers are `Up` while they are mapped at
the pointer of the context; between calls the context is `Linked`: if they are mapped at all,
then there.  `QSPI_Init` leaves them `Up` unless its `open` or its first `mmap` fails, and then it
leaves the pointer as it was.
-/

namespace QspiTool

open Words Interaction Machine

variable {page : PageSize} {f : Bool} {fspi : Nat}

/-! ## Assertions between the steps -/

/-- The FlexSPI registers are mapped at `fspi`; `f` says whether a `QSPI_Init` has failed. -/
def Up (page : PageSize) (fspi : Nat) (f : Bool) : Assertion bus Host HostAction := fun s t =>
  maps t = ⟨true, f⟩ ∧ Live page fspi 4096 s

/-- If the FlexSPI registers are mapped, then at `fspi`. -/
def Linked (page : PageSize) (fspi : Nat) (f : Bool) : Assertion bus Host HostAction := fun s t =>
  (maps t).failed = f ∧ (Attached t → Live page fspi 4096 s)

lemma settled_maps (c : MapWatch → Prop) : Settled fun _ t => c (maps t) :=
  fun _ _ _ _ _ hmaps hc => (congrArg c hmaps).mpr hc

lemma settled_up : Settled (Up page fspi f) :=
  settled_and (settled_maps (· = ⟨true, f⟩)) (settled_live fspi 4096)

lemma settled_linked : Settled (Linked page fspi f) := by
  refine settled_and (settled_maps (·.failed = f)) ?_
  intro s s' t t' hpages hmaps hs hattached
  rw [Attached, hmaps] at hattached
  exact settled_live fspi 4096 s s' t t' hpages hmaps (hs hattached)

lemma Up.attached {s : Host} {t : HostTrace} (h : Up page fspi f s t) : Attached t := by
  rw [Attached, h.1]

lemma Up.failed {s : Host} {t : HostTrace} (h : Up page fspi f s t) : (maps t).failed = f := by
  rw [h.1]

lemma Up.linked {s : Host} {t : HostTrace} (h : Up page fspi f s t) : Linked page fspi f s t :=
  ⟨h.failed, fun _ => h.2⟩

/-- The other registers are only mapped once the FlexSPI registers are, and nothing is unmapped. -/
def MapsInOrder (d : Head bus) (t : HostTrace) : Prop :=
  match d with
  | .call (.mmap size _ _) => size = Reg.size ∨ Attached t
  | .call (.munmap _ _) => False
  | _ => True

/-- What `QSPI_Init` may do: no failing assertion, and no register access once an `open` or an
`mmap` of the FlexSPI registers has failed. -/
structure Guard (page : PageSize) (f : Bool) (d : Head bus) (s : Host) (t : HostTrace) : Prop where
  backed : Backed page d s t
  asserts : d ≠ .abort
  failed : touched d = none ∨ (maps t).failed = f
  order : MapsInOrder d t

/-- System calls and buffer accesses are always allowed. -/
lemma guard_call {o : Access} (h : touched (.call o) = none) (s : Host) {t : HostTrace}
    (horder : MapsInOrder (.call o) t) : Guard page f (.call o) s t :=
  ⟨fun _ ha => absurd (h.symm.trans ha) nofun, nofun, .inl h, horder⟩

/-- Only registers within the `len` bytes from `bank` on, and no failing assertion. -/
abbrev Inside (bank len : Nat) (d : Head bus) : Prop := Within bank len d ∧ d ≠ .abort

lemma mapsInOrder_within {bank len : Nat} {d : Head bus} (h : Within bank len d) (t : HostTrace) :
    MapsInOrder d t := by
  unfold MapsInOrder
  split
  · exact h.2.elim
  · exact h.2
  · trivial

/-- A program that only accesses registers within the `len` bytes mapped at `bank`. -/
lemma within_guard {P : Assertion bus Host HostAction} (hP : Settled P) {α : Type} {p : Driver α}
    {bank len : Nat} (hp : p.Every (Inside bank len))
    (hlive : ∀ s t, P s t → Live page bank len s)
    (hfailed : ∀ s t, P s t → (maps t).failed = f) :
    (host page).Triple (Guard page f) P p fun _ => P :=
  (hP.within hp (fun _ hd => hd.1) hlive).allow fun _ s t hd =>
    ⟨hd.1, hd.2.2.2, .inr (hfailed s t hd.2.1), mapsInOrder_within hd.2.2.1 t⟩

lemma within_load {bank len off : Nat} (h : off < len) :
    Within bank len (.call (.load (bank + off))) :=
  ⟨fun _ ha => ⟨off, h, (Option.some.inj ha).symm⟩, trivial⟩

lemma within_store {bank len off : Nat} (h : off < len) (v : Word) :
    Within bank len (.call (.store (bank + off) v)) :=
  ⟨fun _ ha => ⟨off, h, (Option.some.inj ha).symm⟩, trivial⟩

lemma load_inside {bank len off : Nat} (h : off < len) :
    (load (bank + off)).Every (Inside bank len) :=
  load_every ⟨within_load h, nofun⟩

lemma store_inside {bank len off : Nat} (h : off < len) (v : Word) :
    (store (bank + off) v).Every (Inside bank len) :=
  store_every ⟨within_store h v, nofun⟩

lemma orReg_inside {bank len off : Nat} (h : off < len) (m : Word) :
    (orReg (bank + off) m).Every (Inside bank len) :=
  (load_inside h).bind fun v => store_inside h (v ||| m)

/-- Where the FlexSPI registers are mapped, a program may access them. -/
lemma up_inside {α : Type} {p : Driver α} (hp : p.Every (Inside fspi 4096)) :
    (host page).Triple (Guard page f) (Up page fspi f) p fun _ => Up page fspi f :=
  within_guard settled_up hp (fun _ _ hs => hs.2) fun _ _ hs => hs.failed

/-- So may it the registers of another mapping. -/
lemma mapped_inside {α : Type} {p : Driver α} {bank len : Nat} (hp : p.Every (Inside bank len)) :
    (host page).Triple (Guard page f) (fun s t => Up page fspi f s t ∧ Live page bank len s) p
      fun _ s t => Up page fspi f s t ∧ Live page bank len s :=
  within_guard (settled_and settled_up (settled_live bank len)) hp (fun _ _ hs => hs.2)
    fun _ _ hs => hs.1.failed

/-! ## `map_memory` -/

lemma check_guard {P : Assertion bus Host HostAction} (hP : Settled P) {c : Prop} [Decidable c]
    (hc : c) : (host page).Triple (Guard page f) P (check c) fun _ => P :=
  (Triple.check hP.stable fun _ _ _ hn => absurd hc hn).post fun _ _ _ => And.left

/-- The two ends of an `mmap`: it fails, or it maps the pages at the place the kernel has
chosen. -/
lemma mmap_triple {P : Assertion bus Host HostAction} {Q : Nat → Assertion bus Host HostAction}
    (hP : Settled P) (hQ : ∀ r, Settled (Q r)) {fd : Int} {size offset : Nat}
    (horder : ∀ s t, P s t → size = Reg.size ∨ Attached t)
    (hfail : ∀ s t, P s t → Q mapFailed s (t ++ [.call (.mmap size fd offset) mapFailed]))
    (hok : ∀ s t, P s t → 0 < s.place → s.place % page.bytes = 0 → s.place ≠ mapFailed →
      Q s.place (s.map page s.place size) (t ++ [.call (.mmap size fd offset) s.place])) :
    (host page).Triple (Guard page f) P (mmap size fd offset) Q := by
  refine Triple.op hP.stable (fun r => (hQ r).stable)
    (fun s t hs => guard_call rfl s (horder s t hs)) ?_
  intro s t hs
  by_cases hcan : s.canPlace page size offset = true
  · obtain ⟨hpos, hplace, hne⟩ := Host.canPlace_place hcan
    have hexec : (host page).exec (.mmap size fd offset) s = (s.place, s.map page s.place size) :=
      if_pos hcan
    rw [hexec]
    exact hok s t hs hpos hplace hne
  · have hexec : (host page).exec (.mmap size fd offset) s = (mapFailed, s) := if_neg hcan
    rw [hexec]
    exact hfail s t hs

lemma mapMemory_triple {P : Assertion bus Host HostAction}
    {Q : Nat × Int → Assertion bus Host HostAction} (hP : Settled P) (hQ : ∀ r, Settled (Q r))
    {fd : Int} {base size : Nat} (hfd : 0 ≤ fd) (hsize : 0 < size)
    (horder : ∀ s t, P s t → size = Reg.size ∨ Attached t)
    (hfail : ∀ s t, P s t →
      Q (mapFailed, -1) s (t ++ [.call (.mmap size fd (pageBase base page.bytes)) mapFailed]))
    (hok : ∀ s t, P s t → 0 < s.place → s.place % page.bytes = 0 → s.place ≠ mapFailed →
      Q (s.place, 0) (s.map page s.place size)
        (t ++ [.call (.mmap size fd (pageBase base page.bytes)) s.place])) :
    (host page).Triple (Guard page f) P (mapMemory fd base size page.bytes) Q := by
  refine (check_guard hP hfd).bind fun _ => (check_guard hP hsize).bind fun _ =>
    (check_guard hP page.bytes_pos).bind fun _ => ?_
  refine (mmap_triple (Q := fun r => Q (r, if r = mapFailed then -1 else 0)) hP
    (fun r => hQ _) horder ?_ ?_).bind fun r => ?_
  · intro s t hs
    rw [if_pos rfl]
    exact hfail s t hs
  · intro s t hs hpos hplace hne
    rw [if_neg hne]
    exact hok s t hs hpos hplace hne
  · by_cases hr : r = mapFailed
    · rw [if_pos hr, if_pos hr]
      exact Triple.ret (hQ _).stable fun _ _ h => h
    · rw [if_neg hr, if_neg hr]
      exact Triple.ret (hQ _).stable fun _ _ h => h

/-- Mapping other registers leaves the FlexSPI ones `Up`, and makes the registers asked for
accessible. -/
lemma mapMemory_other {fd : Int} {base size : Nat} (len : Nat) (hfd : 0 ≤ fd) (hsize : 0 < size)
    (hne : size ≠ Reg.size) (hbase : base % 65536 = 0) (hlen : len ≤ 4096 ∨ len ≤ size)
    (hle : len ≤ 65536) :
    (host page).Triple (Guard page f) (Up page fspi f) (mapMemory fd base size page.bytes)
      fun r s t => Up page fspi f s t ∧
        (r.2 = 0 → Live page (r.1 + pageOffset base page.bytes) len s) := by
  have hmaps : ∀ (t : HostTrace) (offset r : Nat),
      maps (t ++ [.call (.mmap size fd offset) r]) = maps t := by
    intro t offset r
    rw [maps_snoc]
    exact if_neg hne
  refine mapMemory_triple settled_up (fun r => settled_and settled_up ?_) hfd hsize
    (fun s t hs => .inr hs.attached) ?_ ?_
  · intro s s' t t' hpages hmaps' hlive hr
    exact settled_live _ _ s s' t t' hpages hmaps' (hlive hr)
  · intro s t hs
    exact ⟨settled_up s s t _ (fun _ hp => hp) (hmaps t _ _) hs, fun h => absurd h (by decide)⟩
  · intro s t hs _ hplace _
    refine ⟨settled_up s _ t _ (fun p hp => ?_) (hmaps t _ _) hs, fun _ => ?_⟩
    · simp only [Host.map, hp, Bool.true_or]
    · exact live_map len hplace hbase hsize hlen hle

/-! ## `QSPI_Init` -/

/-- The pointer of the context is that of the mapping it holds. -/
structure Placed (page : PageSize) (ctx : QspiContext) : Prop where
  aligned : ctx.mapFspi % page.bytes = 0
  flexspi : ctx.flexspi = ctx.mapFspi + pageOffset flexspiBase page.bytes

/-- `request_flexspi_memory` maps the registers, or leaves the pointer as it was. -/
lemma requestFlexspiMemory_triple (ctx : QspiContext) (hfd : 0 ≤ ctx.fd)
    (hpage : ctx.pageSize = page.bytes) :
    (host page).Triple (Guard page f) (Linked page ctx.flexspi f) (requestFlexspiMemory ctx)
      fun r s t =>
        (Linked page ctx.flexspi true s t ∧
          r.2 ≠ 0 ∧ r.1.flexspi = ctx.flexspi ∧ r.1.initDone = ctx.initDone) ∨
        (Up page r.1.flexspi f s t ∧
          r.2 = 0 ∧ r.1.flexspi ≠ 0 ∧ r.1.fd = ctx.fd ∧ r.1.pageSize = ctx.pageSize ∧
            Placed page r.1) := by
  unfold requestFlexspiMemory
  rw [hpage]
  refine Triple.bind (Q := fun r s t =>
    (Linked page ctx.flexspi true s t ∧ r.2 ≠ 0) ∨
    (Up page (r.1 + pageOffset flexspiBase page.bytes) f s t ∧
      r.2 = 0 ∧ 0 < r.1 ∧ r.1 % page.bytes = 0)) ?_ fun r => ?_
  · refine mapMemory_triple settled_linked (fun r => ?_) hfd (by decide) (fun _ _ _ => .inl rfl)
      ?_ ?_
    · exact settled_or (settled_and settled_linked (settled_const _))
        (settled_and settled_up (settled_const _))
    · intro s t hs
      refine .inl ⟨⟨by rw [maps_snoc]; rfl, fun hattached => ?_⟩, by decide⟩
      rw [Attached, maps_snoc] at hattached
      exact hs.2 hattached
    · intro s t hs hpos hplace hne
      have hnext : maps (t ++ [.call (.mmap Reg.size ctx.fd (pageBase flexspiBase page.bytes))
          s.place]) = ⟨true, f⟩ := by
        rw [maps_snoc, ← hs.1]
        exact if_neg hne
      refine .inr ⟨⟨hnext, ?_⟩, rfl, hpos, hplace⟩
      exact live_map 4096 hplace (by decide) (by decide) (.inl (Nat.le_refl _)) (by decide)
  · obtain ⟨map, result⟩ := r
    dsimp only
    refine Triple.or ?_ ?_
    · refine Triple.of_pure fun hr => ?_
      rw [if_pos hr]
      refine Triple.ret ?_ fun s t hs => .inl ⟨hs, nofun, rfl, rfl⟩
      exact (settled_or (settled_and settled_linked (settled_const _))
        (settled_and settled_up (settled_const _))).stable
    · refine Triple.of_pure fun ⟨hr, hpos, hplace⟩ => ?_
      rw [if_neg fun hne => hne hr]
      refine Triple.ret ?_ fun s t hs => .inr ⟨hs, rfl, ?_, rfl, rfl, hplace, rfl⟩
      · exact (settled_or (settled_and settled_linked (settled_const _))
          (settled_and settled_up (settled_const _))).stable
      · dsimp only
        omega

lemma setPads_inside {bank len : Nat} {pads : List Nat} (h : ∀ pad ∈ pads, pad < len) :
    (setPads bank pads).Every (Inside bank len) := by
  induction pads with
  | nil => trivial
  | cons pad pads ih =>
    obtain ⟨hpad, hpads⟩ := List.forall_mem_cons.mp h
    exact (store_inside hpad _).bind fun _ => ih hpads

/-- `iomux_init` writes to the pads only through a mapping of its own. -/
lemma iomuxInit_triple (ctx : QspiContext) (hfd : 0 ≤ ctx.fd) (hpage : ctx.pageSize = page.bytes) :
    (host page).Triple (Guard page f) (Up page fspi f) (iomuxInit ctx) fun ctx' s t =>
      Up page fspi f s t ∧ ∃ map, ctx' = { ctx with mapIomux := map } := by
  unfold iomuxInit
  refine (check_guard settled_up hfd).bind fun _ => ?_
  rw [hpage]
  have hsize := page.le_bytes
  refine (mapMemory_other 4096 hfd page.bytes_pos ?_ (by decide) (.inr hsize)
    (by decide)).bind fun r => ?_
  · simp only [Reg.size]
    omega
  obtain ⟨map, result⟩ := r
  dsimp only
  by_cases hr : result = 0
  · rw [if_neg fun hne => hne hr]
    refine Triple.bind (Q := fun _ s t => Up page fspi f s t) ?_ fun _ =>
      Triple.ret (settled_and settled_up (settled_const _)).stable fun s t hs => ⟨hs, map, rfl⟩
    exact (mapped_inside (setPads_inside (by decide))).conseq (fun s t hs => ⟨hs.1, hs.2 hr⟩)
      fun _ s t hs => hs.1
  · rw [if_pos hr]
    exact Triple.ret (settled_and settled_up (settled_const _)).stable fun s t hs =>
      ⟨hs.1, map, rfl⟩

/-- `clock_init` accesses the clock controller only through a mapping of its own. -/
lemma clockInit_triple (ctx : QspiContext) (hfd : 0 ≤ ctx.fd) (hpage : ctx.pageSize = page.bytes)
    (mux pre post : Word) :
    (host page).Triple (Guard page f) (Up page fspi f) (clockInit ctx mux pre post)
      fun ctx' s t => Up page fspi f s t ∧ ∃ map, ctx' = { ctx with mapCcm := map } := by
  unfold clockInit
  refine (check_guard settled_up hfd).bind fun _ => ?_
  rw [hpage]
  refine (mapMemory_other 65536 hfd (by decide) (by decide) (by decide)
    (.inr (by decide)) (by decide)).bind fun r => ?_
  obtain ⟨map, result⟩ := r
  dsimp only
  by_cases hr : result = 0
  · rw [if_neg fun hne => hne hr]
    generalize map + pageOffset ccmBase page.bytes = bank
    refine Triple.pre (P := fun s t => Up page fspi f s t ∧ Live page bank 65536 s) ?_
      fun s t hs => ⟨hs.1, hs.2 hr⟩
    refine (mapped_inside (store_inside (by decide) _)).bind fun _ => ?_
    refine (mapped_inside (load_inside (by decide))).bind fun _ => ?_
    refine (mapped_inside (store_inside (by decide) _)).bind fun _ => ?_
    refine (mapped_inside (orReg_inside (by decide) _)).bind fun _ => ?_
    refine (mapped_inside (load_inside (by decide))).bind fun _ => ?_
    exact Triple.ret (settled_and settled_up (settled_const _)).stable fun s t hs =>
      ⟨hs.1, map, rfl⟩
  · rw [if_pos hr]
    exact Triple.ret (settled_and settled_up (settled_const _)).stable fun s t hs =>
      ⟨hs.1, map, rfl⟩

/-- `QSPI_Init` with the FlexSPI registers mapped runs to its end. -/
lemma bringUp_triple (ctx : QspiContext) (hfd : 0 ≤ ctx.fd) (hpage : ctx.pageSize = page.bytes) :
    (host page).Triple (Guard page f) (Up page ctx.flexspi f) (bringUp ctx) fun ctx' s t =>
      Up page ctx.flexspi f s t ∧
        ctx'.flexspi = ctx.flexspi ∧ ctx'.initDone = true ∧ ctx'.mapFspi = ctx.mapFspi := by
  refine (iomuxInit_triple ctx hfd hpage).bind fun _ => Triple.of_pure ?_
  rintro ⟨mapIomux, rfl⟩
  refine (up_inside (orReg_inside (by decide) _)).bind fun _ => ?_
  refine (clockInit_triple { ctx with mapIomux := mapIomux } hfd hpage _ _ _).bind fun _ =>
    Triple.of_pure ?_
  rintro ⟨mapCcm, rfl⟩
  refine (up_inside (orReg_inside (by decide) _)).bind fun _ => ?_
  refine (up_inside (store_inside (by decide) _)).bind fun _ => ?_
  refine (up_inside (load_inside (by decide))).bind fun mcr0 => ?_
  refine (up_inside (store_inside (by decide) _)).bind fun _ => ?_
  exact Triple.ret (settled_and settled_up (settled_const _)).stable fun s t hs =>
    ⟨hs, rfl, rfl, rfl⟩

/-- `close` leaves the mappings. -/
lemma close_triple {G : Head bus → Assertion bus Host HostAction}
    {P : Assertion bus Host HostAction} (hP : Settled P) {fd : Int}
    (hG : ∀ s t, G (.call (.close fd)) s t) : (host page).Triple G P (close fd) fun _ => P :=
  Triple.op hP.stable (fun _ => hP.stable) (fun s t _ => hG s t) fun s t hs =>
    hP s s t _ (fun _ hp => hp) (by rw [maps_snoc]; rfl) hs

lemma openMem_triple :
    (host page).Triple (Guard page f) (Linked page fspi f) openMem fun fd s t =>
      (Linked page fspi true s t ∧ fd < 0) ∨ (Linked page fspi f s t ∧ 0 ≤ fd) := by
  refine Triple.op settled_linked.stable (fun _ => (settled_or (settled_and settled_linked
    (settled_const _)) (settled_and settled_linked (settled_const _))).stable)
    (fun s t _ => guard_call rfl s trivial) fun s t hs => ?_
  have hattached : ∀ {r : Int}, Attached (t ++ [.call .openMem r]) → Live page fspi 4096 s := by
    intro r h
    rw [Attached, maps_snoc] at h
    exact hs.2 h
  rcases Int.lt_or_le s.fd 0 with hneg | hpos
  · refine .inl ⟨⟨?_, hattached⟩, hneg⟩
    rw [maps_snoc]
    simp only [MapWatch.next, host, Host.exec, hneg, decide_true, Bool.or_true]
  · refine .inr ⟨⟨?_, hattached⟩, hpos⟩
    rw [maps_snoc, ← hs.1]
    have hnot : ¬ s.fd < 0 := by omega
    simp only [MapWatch.next, host, Host.exec, hnot, decide_false, Bool.or_false]

/-- **What `QSPI_Init` leaves.**  The registers are mapped and the context says so, or an `open`
or `mmap` has failed and the pointer is what it was before. -/
theorem qspiInit_triple (ctx : QspiContext) :
    (host page).Triple (Guard page f) (Linked page ctx.flexspi f) (qspiInit ctx) fun ctx' s t =>
      (Linked page ctx.flexspi true s t ∧ ctx'.flexspi = ctx.flexspi ∧ ctx'.initDone = false) ∨
      (Up page ctx'.flexspi f s t ∧
        ctx'.flexspi ≠ 0 ∧ ctx'.initDone = true ∧ Placed page ctx') := by
  have hpost : ∀ ctx' : QspiContext, Settled fun s t =>
      (Linked page ctx.flexspi true s t ∧ ctx'.flexspi = ctx.flexspi ∧ ctx'.initDone = false) ∨
      (Up page ctx'.flexspi f s t ∧
        ctx'.flexspi ≠ 0 ∧ ctx'.initDone = true ∧ Placed page ctx') := fun ctx' =>
    settled_or (settled_and settled_linked (settled_const _))
      (settled_and settled_up (settled_const _))
  unfold qspiInit
  refine Triple.bind (Q := fun size s t => Linked page ctx.flexspi f s t ∧ size = page.bytes)
    (Triple.op settled_linked.stable
      (fun _ => (settled_and settled_linked (settled_const _)).stable)
      (fun s t _ => guard_call rfl s trivial) ?_) fun size => Triple.of_pure ?_
  · intro s t hs
    exact ⟨settled_linked s s t _ (fun _ hp => hp) (by rw [maps_snoc]; rfl) hs, rfl⟩
  rintro rfl
  refine (check_guard settled_linked page.bytes_pos).bind fun _ => ?_
  refine (check_guard settled_linked (Nat.mod_eq_zero_of_dvd page.dvd_bytes)).bind fun _ => ?_
  refine Triple.bind (Q := fun fd s t => (Linked page ctx.flexspi true s t ∧ fd < 0) ∨
    (Linked page ctx.flexspi f s t ∧ 0 ≤ fd)) openMem_triple fun fd => Triple.or ?_ ?_
  · refine Triple.of_pure fun hfd => ?_
    dsimp only
    rw [if_pos hfd]
    exact Triple.ret (hpost _).stable fun s t hs => .inl ⟨hs, rfl, rfl⟩
  · refine Triple.of_pure fun hfd => ?_
    dsimp only
    rw [if_neg (by omega)]
    refine (requestFlexspiMemory_triple
      { ctx with fd := fd, pageSize := page.bytes, initDone := false } hfd rfl).bind fun r =>
        Triple.or ?_ ?_
    · refine Triple.of_pure fun ⟨hr, hflexspi, hinit⟩ => ?_
      rw [if_pos hr]
      refine (close_triple settled_linked fun s t => guard_call rfl s trivial).bind fun _ => ?_
      exact Triple.ret (hpost { r.1 with fd := -1 }).stable fun s t hs =>
        .inl ⟨hs, hflexspi, hinit⟩
    · refine Triple.of_pure fun ⟨hr, hne, hfd', hpage, hplaced⟩ => ?_
      rw [if_neg fun h => h hr]
      have hfd₁ : 0 ≤ r.1.fd := by
        rw [hfd']
        exact hfd
      refine (bringUp_triple r.1 hfd₁ hpage).post fun ctx' s t ⟨hs, hflexspi, hinit, hmap⟩ =>
        .inr ?_
      have hplaced' : Placed page ctx' :=
        ⟨by rw [hmap]; exact hplaced.aligned, by rw [hflexspi, hmap]; exact hplaced.flexspi⟩
      rw [hflexspi]
      exact ⟨hs, hne, hinit, hplaced'⟩

/-! ## `QSPI_DeInit` -/

/-- The next step is a call that accesses no register. -/
def Remote (d : Head bus) : Prop := touched d = none ∧ d ≠ .abort

lemma Remote.backed {d : Head bus} (h : Remote d) (s : Host) (t : HostTrace) : Backed page d s t :=
  fun _ ha => absurd (h.1.symm.trans ha) nofun

lemma remote_call {o : Access} (h : touched (.call o) = none) : Remote (.call o) := ⟨h, nofun⟩

lemma munmap_triple {c d : MapWatch → Prop} {a size : Nat}
    (h : ∀ q, c q → d (q.next (.call (.munmap a size) ()))) :
    (host page).Triple (fun d _ _ => Remote d) (fun _ t => c (maps t)) (munmap a size)
      fun _ _ t => d (maps t) := by
  refine Triple.op (settled_maps c).stable (fun _ => (settled_maps d).stable)
    (fun _ _ _ => remote_call rfl) fun s t hs => ?_
  rw [maps_snoc]
  exact h _ hs

/-- `QSPI_DeInit` takes the mapping away and the context says so, unless the context was not
initialised. -/
theorem qspiDeInit_triple (ctx : QspiContext) :
    (host page).Triple (fun d _ _ => Remote d)
      (fun s t => Linked page ctx.flexspi f s t ∧ (ctx.initDone = true → Attached t))
      (qspiDeInit ctx) fun ctx' s t => Linked page ctx'.flexspi f s t ∧ ctx'.initDone = false := by
  unfold qspiDeInit
  by_cases hinit : ctx.initDone = false
  · rw [if_pos hinit]
    exact Triple.ret (settled_and settled_linked (settled_const _)).stable fun s t hs =>
      ⟨hs.1, hinit⟩
  · rw [if_neg hinit]
    refine Triple.pre (P := fun _ t => (maps t).failed = f) ?_ fun s t hs => hs.1.1
    -- the first `munmap` takes 64 KB, whatever `iomux_init` has mapped there
    refine (munmap_triple (c := (·.failed = f)) (d := (·.failed = f)) ?_).bind fun _ => ?_
    · exact fun q hq => hq
    refine (munmap_triple (c := (·.failed = f)) (d := (· = ⟨false, f⟩)) ?_).bind fun _ => ?_
    · rintro q rfl
      rfl
    refine (munmap_triple (c := (· = ⟨false, f⟩)) (d := (· = ⟨false, f⟩)) ?_).bind fun _ => ?_
    · exact fun q hq => hq
    refine (munmap_triple (c := (· = ⟨false, f⟩)) (d := (· = ⟨false, f⟩)) ?_).bind fun _ => ?_
    · exact fun q hq => hq
    refine (close_triple (settled_maps (· = ⟨false, f⟩)) fun _ _ => remote_call rfl).bind
      fun _ => ?_
    refine Triple.ret (settled_and settled_linked (settled_const _)).stable fun s t hs => ?_
    refine ⟨⟨by rw [hs], fun hattached => ?_⟩, rfl⟩
    rw [Attached, hs] at hattached
    cases hattached

/-! ## The other public calls -/

lemma within_poll {bank len off flag : Nat} (h : off < len) :
    Within bank len (.poll ⟨bank + off, flag⟩) :=
  ⟨fun _ ha => ⟨off, h, (Option.some.inj ha).symm⟩, trivial⟩

lemma within_of_flagHead {d : Head bus} (h : FlagHead fspi d) : Within fspi 4096 d := by
  cases h with
  | loadIntr => exact within_load (by decide)
  | storeIntr v => exact within_store (by decide) v
  | loadStatus hoff =>
    have hlt := hoff.2
    exact within_load (by omega)
  | storeStatus v hoff =>
    have hlt := hoff.2
    exact within_store (by omega) v

lemma within_of_writeHead {d : Head bus} (h : WriteHead fspi 256 d) : Within fspi 4096 d := by
  cases h with
  | flag h => exact within_of_flagHead h
  | wait => exact within_poll (by decide)
  | chunk h =>
    cases h with
    | read32 a => exact ⟨nofun, trivial⟩
    | read8 a => exact ⟨nofun, trivial⟩
    | fill v hi => exact within_store (by simp only [Reg.tfdr]; omega) v

lemma within_of_readHead {d : Head bus} (h : ReadHead fspi 128 d) : Within fspi 4096 d := by
  cases h with
  | flag h => exact within_of_flagHead h
  | wait => exact within_poll (by decide)
  | chunk h =>
    cases h with
    | write32 a v => exact ⟨nofun, trivial⟩
    | write8 a b => exact ⟨nofun, trivial⟩
    | fetch hi => exact within_load (by simp only [Reg.rfdr]; omega)

/-- A transfer stays within the first page of the registers, the words behind the FIFO windows
included. -/
lemma within_of_transferHead {d : Head bus} (h : TransferHead fspi d) : Within fspi 4096 d := by
  cases h with
  | flag h => exact within_of_flagHead h
  | loadControl hoff =>
    have hlt := hoff.2
    exact within_load (by omega)
  | storeControl v hoff =>
    have hlt := hoff.2
    exact within_store (by omega) v
  | write h => exact within_of_writeHead h
  | read h => exact within_of_readHead h
  | done => exact within_poll (by decide)

lemma within_of_lutHead {d : Head bus} (h : LutHead fspi d) : Within fspi 4096 d := by
  cases h with
  | lock v hoff => rcases hoff with rfl | rfl <;> exact within_store (by decide) v
  | read8 a => exact ⟨nofun, trivial⟩
  | @store8 i b hi =>
    refine ⟨fun a ha => ⟨Reg.lut 0 + i, ?_, ?_⟩, trivial⟩
    · simp only [Reg.lut]
      omega
    · rw [← Option.some.inj ha, Nat.add_assoc]

lemma within_abort {bank len : Nat} : Within bank len .abort := ⟨nofun, trivial⟩

end QspiTool
