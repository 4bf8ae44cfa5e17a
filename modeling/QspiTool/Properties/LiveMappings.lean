import QspiTool.Host.Calls

/-!
# Whether register accesses go through live mappings

`QSPI_Write`, `QSPI_Read` and `QSPI_ReadSample` test nothing before they use the pointer of the
context, `QSPI_SetupLut` only whether it is `NULL`, and the pointer survives `QSPI_DeInit`.  So
the accesses of a sequence of calls are good as long as each of these calls is made while the
registers are mapped (`Call.run_triple`), and otherwise the first access goes through a pointer
that is `NULL` or dangling (`Session.not_backed`).  `main` sets up the LUT before it asks whether
`QSPI_Init` has succeeded, so after a failure it stops at the assertion of `QSPI_SetupLut`.
-/

namespace QspiTool

open Words Interaction Machine

variable {page : PageSize}

/-! ## Sequences of calls -/

/-- The call relies on the mapping only where there is one.  `QSPI_Busy` and `QSPI_DeInit` look
at `init_done` themselves. -/
def Call.Allowed (ctx : QspiContext) (t : HostTrace) : Call → Prop
  | init | deInit | busy => True
  | setupLut _ _ => ctx.flexspi = 0 ∨ Attached t
  | transfer _ _ _ _ => Attached t

/-- Some public calls have been made in a process that has just started, each of them where
`allowed` says so, and the last one has returned. -/
inductive Session (page : PageSize) (allowed : QspiContext → HostTrace → Call → Prop) :
    QspiContext → Host → HostTrace → Prop
  | start {s : Host} (h : ∀ p, s.mapped p = false) : Session page allowed .zero s []
  | call {ctx ctx' : QspiContext} {s s' : Host} {t t' : HostTrace} {r : Option Int} (call : Call)
      (h : Session page allowed ctx s t) (hcall : allowed ctx t call)
      (hreach : (host page).Reach ⟨call.run ctx, s, t⟩ ⟨.ret (ctx', r), s', t'⟩) :
      Session page allowed ctx' s' t'

/-- Between two calls: what is mapped is mapped at the pointer of the context, and an initialised
context has its registers mapped. -/
def Coherent (page : PageSize) (ctx : QspiContext) : Assertion bus Host HostAction := fun s t =>
  (Attached t → Live page ctx.flexspi 4096 s) ∧ (ctx.initDone = true → Attached t)

lemma settled_coherent (ctx : QspiContext) : Settled (Coherent page ctx) := by
  intro s s' t t' hpages hmaps hs
  rw [Coherent, Attached, hmaps]
  exact ⟨fun hattached => settled_live _ _ s s' t t' hpages hmaps (hs.1 hattached), hs.2⟩

lemma Coherent.linked {ctx : QspiContext} {s : Host} {t : HostTrace} (h : Coherent page ctx s t) :
    Linked page ctx.flexspi (maps t).failed s t :=
  ⟨rfl, h.1⟩

lemma coherent_start {s : Host} : Coherent page .zero s [] := ⟨nofun, nofun⟩

lemma Linked.coherent {ctx : QspiContext} {f : Bool} {s : Host} {t : HostTrace}
    (h : Linked page ctx.flexspi f s t) (hinit : ctx.initDone = true → Attached t) :
    Coherent page ctx s t :=
  ⟨h.2, hinit⟩

/-- A program that only accesses the FlexSPI registers, run where they are mapped. -/
lemma attached_triple {ctx : QspiContext} {α : Type} {φ : Head bus → Prop} {p : Driver α}
    (hp : p.Every φ) (hφ : ∀ d, φ d → Within ctx.flexspi 4096 d) :
    (host page).Triple (Backed page) (fun s t => Coherent page ctx s t ∧ Attached t) p
      fun _ => Coherent page ctx := by
  have hsettled : Settled fun s t => Coherent page ctx s t ∧ Attached t :=
    settled_and (settled_coherent ctx) (settled_maps (·.attached = true))
  refine ((hsettled.within hp hφ fun s t hs => hs.1.1 hs.2).allow fun d s t hd => hd.1).post ?_
  exact fun _ _ _ => And.left

/-- Without a pointer `QSPI_SetupLut` stops at its first assertion. -/
lemma qspiSetupLut_of_null {ctx : QspiContext} (h : ctx.flexspi = 0) (lut len : Nat) :
    qspiSetupLut ctx lut len = .abort := by
  rw [qspiSetupLut, check, Prog.check, if_neg fun hne => hne h, Prog.abort_bind]

/-- **Each call.**  Made where it is allowed, it accesses only what is mapped, and it leaves the
context coherent. -/
theorem Call.run_triple (call : Call) (ctx : QspiContext) :
    (host page).Triple (Backed page) (fun s t => Coherent page ctx s t ∧ call.Allowed ctx t)
      (call.run ctx) fun r => Coherent page r.1 := by
  have hreturn : ∀ (ctx' : QspiContext) (r : Option Int), (host page).Triple (Backed page)
      (Coherent page ctx') (.ret (ctx', r)) fun r => Coherent page r.1 := fun ctx' r =>
    Triple.ret (settled_coherent ctx').stable fun _ _ hs => hs
  cases call with
  | init =>
    refine Triple.bind (Q := fun ctx' => Coherent page ctx') ?_ fun ctx' => hreturn ctx' _
    rintro s t ⟨hs, -⟩
    refine (((qspiInit_triple ctx).allow fun d s t hd => hd.backed).post ?_) s t hs.linked
    rintro ctx' s t (⟨hs, hflexspi, hinit⟩ | ⟨hs, -, -⟩)
    · rw [← hflexspi] at hs
      exact hs.coherent fun h => absurd (hinit.symm.trans h) Bool.false_ne_true
    · exact hs.linked.coherent fun _ => hs.attached
  | deInit =>
    refine Triple.bind (Q := fun ctx' => Coherent page ctx') ?_ fun ctx' => hreturn ctx' _
    rintro s t ⟨hs, -⟩
    refine (((qspiDeInit_triple ctx).allow fun d s t hd => hd.backed s t).post ?_) s t
      ⟨hs.linked, hs.2⟩
    rintro ctx' s t ⟨hs, hinit⟩
    exact hs.coherent fun h => absurd (hinit.symm.trans h) Bool.false_ne_true
  | busy =>
    by_cases hinit : ctx.initDone = true
    · refine Triple.pre (P := fun s t => Coherent page ctx s t ∧ Attached t) ?_ fun s t hs =>
        ⟨hs.1, hs.1.2 hinit⟩
      exact (attached_triple (qspiBusy_every ctx) fun _ => within_of_flagHead).bind
        fun r => hreturn ctx _
    · refine Triple.pre ?_ fun s t hs => hs.1
      rw [Call.run, qspiBusy, if_pos (Bool.eq_false_iff.mpr hinit)]
      exact hreturn ctx _
  | setupLut lut len =>
    by_cases hnull : ctx.flexspi = 0
    · rw [Call.run, qspiSetupLut_of_null hnull]
      refine Triple.pre (P := Coherent page ctx) ?_ fun s t hs => hs.1
      exact Triple.abort (settled_coherent ctx).stable fun s t _ => backed_abort s t
    · refine Triple.pre (P := fun s t => Coherent page ctx s t ∧ Attached t) ?_ fun s t hs =>
        ⟨hs.1, hs.2.resolve_left hnull⟩
      refine (attached_triple (qspiSetupLut_every ctx lut len) ?_).bind fun _ => hreturn ctx _
      rintro d (hd | ⟨rfl, -⟩)
      · exact within_of_lutHead hd
      · exact within_abort
  | transfer kind addr buffer size =>
    refine (attached_triple (kind.run_every ctx addr buffer size) ?_).bind fun r => hreturn ctx _
    rintro d (hd | rfl)
    · exact within_of_transferHead hd
    · exact within_abort

lemma Session.coherent {ctx : QspiContext} {s : Host} {t : HostTrace}
    (h : Session page Call.Allowed ctx s t) : Coherent page ctx s t := by
  induction h with
  | start h => exact coherent_start
  | call call h hcall hreach ih => exact (call.run_triple _).returns ⟨ih, hcall⟩ hreach

/-! ## While nothing is attached -/

/-- The first page is not mapped, and neither is page `p` unless the FlexSPI registers are. -/
def Gone (p : Nat) : Assertion bus Host HostAction := fun s t =>
  s.mapped 0 = false ∧ (¬ Attached t → s.mapped p = false)

/-- The other registers are only mapped once the FlexSPI registers are, and of these only the
mapping that begins with page `p` is unmapped. -/
def UnmapsHeld (page : PageSize) (p : Nat) (d : Head bus) (t : HostTrace) : Prop :=
  match d with
  | .call (.mmap size _ _) => size = Reg.size ∨ Attached t
  | .call (.munmap a size) => size = Reg.size → a % page.bytes = 0 ∧ a / page.bytes = p
  | _ => True

lemma MapsInOrder.unmapsHeld {d : Head bus} {t : HostTrace} (h : MapsInOrder d t) (p : Nat) :
    UnmapsHeld page p d t := by
  unfold UnmapsHeld
  split
  · exact h
  · exact h.elim
  · trivial

lemma stable_gone (p : Nat) : (host page).Stable (Gone p) := by
  intro a s s' t hs hact
  obtain rfl := Option.some.inj hact
  rw [Gone, Attached, maps_snoc]
  cases a <;> exact hs

lemma mmap_gone {p size offset : Nat} {fd : Int} {s : Host} {t : HostTrace}
    (h : size = Reg.size ∨ Attached t) (hs : Gone p s t) :
    Gone p ((host page).exec (.mmap size fd offset) s).2
      (t ++ [.call (.mmap size fd offset) ((host page).exec (.mmap size fd offset) s).1]) := by
  by_cases hcan : s.canPlace page size offset = true
  · obtain ⟨hpos, haligned, hne⟩ := Host.canPlace_place hcan
    have hexec : (host page).exec (.mmap size fd offset) s = (s.place, s.map page s.place size) :=
      if_pos hcan
    have hfirst : page.covers s.place size 0 = false := by
      have hle : page.bytes ≤ s.place := Nat.le_of_dvd hpos (Nat.dvd_of_mod_eq_zero haligned)
      have hpage : ¬ s.place / page.bytes ≤ 0 := by
        have := (Nat.one_le_div_iff page.bytes_pos).mpr hle
        omega
      simp only [PageSize.covers, hpage, decide_false, Bool.false_and]
    rw [hexec]
    refine ⟨by simp only [Host.map, hs.1, hfirst, Bool.or_false], fun hnot => absurd ?_ hnot⟩
    rw [Attached, maps_snoc]
    by_cases hsize : size = Reg.size
    · simp only [MapWatch.next, if_pos hsize, if_neg hne]
    · simp only [MapWatch.next, if_neg hsize]
      exact h.resolve_left hsize
  · have hexec : (host page).exec (.mmap size fd offset) s = (mapFailed, s) := if_neg hcan
    rw [hexec]
    refine ⟨hs.1, fun hnot => hs.2 fun hattached => hnot ?_⟩
    rw [Attached, maps_snoc]
    simp only [MapWatch.next, if_true]
    split <;> exact hattached

lemma munmap_gone {p a size : Nat} {s : Host} {t : HostTrace}
    (h : size = Reg.size → a % page.bytes = 0 ∧ a / page.bytes = p) (hs : Gone p s t) :
    Gone p (s.unmap page a size) (t ++ [.call (.munmap a size) ()]) := by
  refine ⟨by simp only [Host.unmap, hs.1, Bool.false_and], fun hnot => ?_⟩
  by_cases hsize : size = Reg.size
  · obtain ⟨haligned, rfl⟩ := h hsize
    have hcovers : page.covers a size (a / page.bytes) = true := by
      have hfloor := Nat.div_mul_le_self a page.bytes
      have hlt : a / page.bytes * page.bytes < a + size := by
        have hpos : 0 < Reg.size := by decide
        omega
      simp only [PageSize.covers, Nat.le_refl, hlt, decide_true, Bool.and_true]
    simp only [Host.unmap, haligned, hcovers, decide_true, Bool.and_true, Bool.not_true,
      Bool.and_false]
  · have hbefore : ¬ Attached t := by
      intro hattached
      apply hnot
      rw [Attached, maps_snoc]
      simp only [MapWatch.next, if_neg hsize]
      exact hattached
    simp only [Host.unmap, hs.2 hbefore, Bool.false_and]

/-- A program that maps in order and unmaps only its own keeps the page unmapped. -/
lemma gone_reach {α : Type} {P : Assertion bus Host HostAction} {q : Driver α}
    {Q : α → Assertion bus Host HostAction} {p : Nat}
    (h : (host page).Triple (fun d _ t => UnmapsHeld page p d t) P q Q) {s : Host} {t : HostTrace}
    (hP : P s t) (hs : Gone p s t) {c : Config bus Host HostAction α}
    (hc : (host page).Reach ⟨q, s, t⟩ c) : Gone p c.state c.trace := by
  refine h.keeps (stable_gone p) ?_ ?_ hP hs hc
  · intro o s t ho hs
    cases o with
    | mmap size fd offset => exact mmap_gone ho hs
    | munmap a size => exact munmap_gone ho hs
    | _ =>
      rw [Gone, Attached, maps_snoc]
      exact hs
  · intro w s t _ hs
    rw [Gone, Attached, maps_snoc]
    exact hs

/-- Between two calls: the registers of the pointer lie in one page, which is that of the mapping
an initialised context holds and is not mapped unless the registers are. -/
structure Dangling (page : PageSize) (ctx : QspiContext) (s : Host) (t : HostTrace) : Prop where
  placed : ctx.initDone = true → Placed page ctx
  inPage : ctx.flexspi % page.bytes + 4096 ≤ page.bytes
  gone : Gone (ctx.flexspi / page.bytes) s t

/-- The calls other than `QSPI_Init` and `QSPI_DeInit` give their context back, on every machine. -/
lemma call_context {σ A : Type} {M : Machine bus σ A} {call : Call}
    (hcall : call ≠ .init ∧ call ≠ .deInit) (ctx : QspiContext) :
    M.Triple (fun _ _ _ => True) (fun _ _ => True) (call.run ctx) fun r _ _ => r.1 = ctx := by
  have hret : ∀ r : Option Int, M.Triple (fun _ _ _ => True) (fun _ _ => True)
      (.ret (ctx, r) : Driver (QspiContext × Option Int)) fun r _ _ => r.1 = ctx :=
    fun r => Triple.ret (stable_const _) fun _ _ _ => rfl
  cases call with
  | init => exact absurd rfl hcall.1
  | deInit => exact absurd rfl hcall.2
  | setupLut lut len => exact Triple.bind (Triple.any _) fun _ => hret none
  | busy => exact Triple.bind (Triple.any _) fun r => hret (some r)
  | transfer kind addr buffer size => exact Triple.bind (Triple.any _) fun r => hret (some r)

lemma qspiDeInit_context {σ A : Type} {M : Machine bus σ A} (ctx : QspiContext) :
    M.Triple (fun _ _ _ => True) (fun _ _ => True) (qspiDeInit ctx) fun ctx' _ _ =>
      ctx'.flexspi = ctx.flexspi ∧ ctx'.initDone = false := by
  unfold qspiDeInit
  split <;> rename_i hinit
  · exact Triple.ret (stable_const _) fun _ _ _ => ⟨rfl, hinit⟩
  · refine Triple.bind (Triple.any _) fun _ => Triple.bind (Triple.any _) fun _ => ?_
    refine Triple.bind (Triple.any _) fun _ => Triple.bind (Triple.any _) fun _ => ?_
    exact Triple.bind (Triple.any _) fun _ => Triple.ret (stable_const _) fun _ _ _ => ⟨rfl, rfl⟩

lemma Placed.inPage {ctx : QspiContext} (h : Placed page ctx) :
    ctx.flexspi % page.bytes + 4096 ≤ page.bytes ∧
      ctx.flexspi / page.bytes = ctx.mapFspi / page.bytes := by
  have hoffset : pageOffset flexspiBase page.bytes = flexspiBase % page.bytes :=
    pageOffset_two_pow flexspiBase page.log
  have hlast : flexspiBase % page.bytes + 4095 < page.bytes ∨
      flexspiBase % page.bytes = 0 ∧ 4095 < 4096 :=
    register_in_page page.le (by decide) (.inl (by decide)) (by decide)
  have hle := page.le_bytes
  obtain ⟨q, hq⟩ := Nat.dvd_of_mod_eq_zero h.aligned
  rw [h.flexspi, hoffset, hq, Nat.mul_add_mod, Nat.mod_mod, Nat.mul_add_div page.bytes_pos,
    Nat.mul_div_cancel_left q page.bytes_pos]
  exact ⟨by omega, by rw [Nat.div_eq_of_lt (by omega), Nat.add_zero]⟩

lemma unmapsHeld_within {p bank len : Nat} {d : Head bus} (h : Within bank len d)
    (t : HostTrace) : UnmapsHeld page p d t :=
  (mapsInOrder_within h t).unmapsHeld p

/-- The calls that map nothing unmap the mapping of the context at most. -/
lemma Call.run_every_unmapsHeld {call : Call} (hcall : call ≠ .init) {ctx : QspiContext}
    (hplaced : ctx.initDone = true → Placed page ctx) :
    (call.run ctx).Every fun d => ∀ t, UnmapsHeld page (ctx.flexspi / page.bytes) d t := by
  cases call with
  | init => exact absurd rfl hcall
  | deInit =>
    refine Prog.Every.bind ?_ fun _ => trivial
    unfold qspiDeInit
    split <;> rename_i hinit
    · trivial
    · have hown := hplaced (Bool.of_not_eq_false hinit)
      have hother : ∀ a : Nat, ∀ t,
          UnmapsHeld page (ctx.flexspi / page.bytes) (.call (.munmap a pageSize64K)) t :=
        fun a t h => absurd h (by decide)
      exact ⟨hother _, fun _ => ⟨fun _ _ => ⟨hown.aligned, hown.inPage.2.symm⟩, fun _ =>
        ⟨hother _, fun _ => ⟨hother _, fun _ => ⟨fun _ => trivial, fun _ => trivial⟩⟩⟩⟩⟩
  | setupLut lut len =>
    refine ((qspiSetupLut_every ctx lut len).mono ?_).bind fun _ => trivial
    rintro d (hd | ⟨rfl, -⟩) t
    · exact unmapsHeld_within (within_of_lutHead hd) t
    · trivial
  | busy =>
    exact ((qspiBusy_every ctx).mono fun d hd => unmapsHeld_within (within_of_flagHead hd)).bind
      fun _ => trivial
  | transfer kind addr buffer size =>
    refine ((kind.run_every ctx addr buffer size).mono ?_).bind fun _ => trivial
    rintro d (hd | rfl) t
    · exact unmapsHeld_within (within_of_transferHead hd) t
    · trivial

/-- **Each call** unmaps the mapping of the context at most. -/
lemma Call.run_unmapsHeld (call : Call) {ctx : QspiContext}
    (hplaced : ctx.initDone = true → Placed page ctx) :
    (host page).Triple (fun d _ t => UnmapsHeld page (ctx.flexspi / page.bytes) d t)
      (Coherent page ctx) (call.run ctx) fun _ _ _ => True := by
  by_cases hcall : call = .init
  · subst hcall
    refine Triple.bind (Q := fun _ _ _ => True) ?_ fun _ =>
      Triple.ret stable_true fun _ _ _ => trivial
    intro s t hs
    exact (((qspiInit_triple ctx).allow fun d s t hd => hd.order.unmapsHeld _).post
      fun _ _ _ _ => trivial) s t hs.linked
  · exact (Triple.of_every (call.run_every_unmapsHeld hcall hplaced) fun _ _ t hd => hd t).pre
      fun _ _ _ => trivial

/-- **Each call** leaves the pointer as it was, or it has mapped the registers. -/
lemma Call.run_pointer (call : Call) (ctx : QspiContext) :
    (host page).Triple (fun _ _ _ => True) (Coherent page ctx) (call.run ctx) fun r _ t =>
      (r.1.flexspi = ctx.flexspi ∧ (r.1.initDone = true → r.1 = ctx)) ∨
        (Placed page r.1 ∧ Attached t) := by
  have hstable : ∀ ctx' : QspiContext, (host page).Stable fun _ t =>
      (ctx'.flexspi = ctx.flexspi ∧ (ctx'.initDone = true → ctx' = ctx)) ∨
        (Placed page ctx' ∧ Attached t) := fun ctx' =>
    (settled_or (settled_const _)
      (settled_and (settled_const _) (settled_maps (·.attached = true)))).stable
  have hreturn : ∀ (ctx' : QspiContext) (r : Option Int), (host page).Triple (fun _ _ _ => True)
      (fun _ t => (ctx'.flexspi = ctx.flexspi ∧ (ctx'.initDone = true → ctx' = ctx)) ∨
        (Placed page ctx' ∧ Attached t)) (.ret (ctx', r)) fun r _ t =>
      (r.1.flexspi = ctx.flexspi ∧ (r.1.initDone = true → r.1 = ctx)) ∨
        (Placed page r.1 ∧ Attached t) := fun ctx' r =>
    Triple.ret (hstable ctx') fun _ _ hs => hs
  by_cases hinit : call = .init
  · subst hinit
    refine Triple.bind (fun s t hs => ?_) fun ctx' => hreturn ctx' none
    refine (((qspiInit_triple ctx).allow fun _ _ _ _ => trivial).post ?_) s t hs.linked
    rintro ctx' s t (⟨-, hflexspi, hdown⟩ | ⟨hup, -, -, hplaced⟩)
    · exact .inl ⟨hflexspi, fun h => absurd (hdown.symm.trans h) Bool.false_ne_true⟩
    · exact .inr ⟨hplaced, hup.attached⟩
  by_cases hdeInit : call = .deInit
  · subst hdeInit
    refine Triple.bind (((qspiDeInit_context ctx).pre fun _ _ _ => trivial).post ?_)
      fun ctx' => hreturn ctx' none
    rintro ctx' s t ⟨hflexspi, hdown⟩
    exact .inl ⟨hflexspi, fun h => absurd (hdown.symm.trans h) Bool.false_ne_true⟩
  · refine ((call_context ⟨hinit, hdeInit⟩ ctx).pre fun _ _ _ => trivial).post ?_
    rintro r s t hr
    exact .inl ⟨by rw [hr], fun _ => hr⟩

lemma dangling_start {s : Host} (h : ∀ p, s.mapped p = false) : Dangling page .zero s [] where
  placed := nofun
  inPage := by
    rw [QspiContext.zero, Nat.zero_mod, Nat.zero_add]
    exact page.le_bytes
  gone := ⟨h 0, fun _ => h _⟩

lemma Dangling.step {ctx ctx' : QspiContext} {s s' : Host} {t t' : HostTrace} {r : Option Int}
    {call : Call} (h : Dangling page ctx s t) (hcoherent : Coherent page ctx s t)
    (hreach : (host page).Reach ⟨call.run ctx, s, t⟩ ⟨.ret (ctx', r), s', t'⟩) :
    Dangling page ctx' s' t' := by
  have hgone : Gone (ctx.flexspi / page.bytes) s' t' :=
    gone_reach (call.run_unmapsHeld h.placed) hcoherent h.gone hreach
  rcases (call.run_pointer ctx).returns hcoherent hreach with ⟨hflexspi, hinit⟩ | ⟨hplaced, hup⟩
  · refine ⟨fun hdone => ?_, by rw [hflexspi]; exact h.inPage, by rw [hflexspi]; exact hgone⟩
    have hsame : ctx' = ctx := hinit hdone
    rw [hsame] at hdone ⊢
    exact h.placed hdone
  · exact ⟨fun _ => hplaced, hplaced.inPage.1, hgone.1, fun hnot => absurd hup hnot⟩

lemma Session.dangling {ctx : QspiContext} {s : Host} {t : HostTrace}
    (h : Session page Call.Allowed ctx s t) : Dangling page ctx s t := by
  induction h with
  | start h => exact dangling_start h
  | call call h hcall hreach ih => exact ih.step h.coherent hreach

/-- A register of the pointer is not mapped while nothing is attached. -/
lemma Dangling.not_backed {ctx : QspiContext} {s : Host} {t : HostTrace} {d : Head bus}
    (h : Dangling page ctx s t) (hnot : ¬ Attached t) (off : Nat) (hoff : off < 4096)
    (hd : touched d = some (ctx.flexspi + off)) : ¬ Backed page d s t := by
  intro hbacked
  have hmapped := hbacked _ hd
  have hpage : (ctx.flexspi + off) / page.bytes = ctx.flexspi / page.bytes := by
    have hsplit := Nat.div_add_mod ctx.flexspi page.bytes
    have hlt : ctx.flexspi % page.bytes + off < page.bytes := by
      have := h.inPage
      omega
    rw [← hsplit, Nat.add_assoc, Nat.mul_add_div page.bytes_pos, Nat.div_eq_of_lt hlt,
      Nat.add_zero, Nat.mul_add_div page.bytes_pos,
      Nat.div_eq_of_lt (Nat.mod_lt _ page.bytes_pos), Nat.add_zero]
  rw [hpage, h.gone.2 hnot] at hmapped
  cases hmapped

/-- Behind an assertion that holds the program goes on. -/
lemma head_of_check {α β : Type} {c : Prop} [Decidable c] {p : Driver β} {q : Driver α}
    {f : α → Driver β} (hp : p = (check c >>= fun _ => q) >>= f) (h : p.head ≠ .abort) :
    p.head = (q >>= f).head := by
  subst hp
  by_cases hc : c
  · rw [check, Prog.check, if_pos hc]
    rfl
  · rw [check, Prog.check, if_neg hc] at h
    exact absurd rfl h

/-- What a transfer does first. -/
lemma transfer_head (kind : Transfer) (ctx : QspiContext) (addr : Word) (buffer : Nat)
    (size : BitVec 64) (h : ((Call.transfer kind addr buffer size).run ctx).head ≠ .abort) :
    ((Call.transfer kind addr buffer size).run ctx).head =
      .call (.load (ctx.flexspi + Reg.flshcr2 0)) := by
  cases kind with
  | write lutIndex => rfl
  | read => exact head_of_check rfl h
  | readSample => exact head_of_check rfl h

/-- What `QSPI_SetupLut` does first. -/
lemma setupLut_head (ctx : QspiContext) (lut len : Nat)
    (h : ((Call.setupLut lut len).run ctx).head ≠ .abort) :
    ((Call.setupLut lut len).run ctx).head =
      .call (.store (ctx.flexspi + Reg.lutkey) lutkeyValue) := by
  have hpointer := head_of_check rfl h
  have h₁ := fun habort => h (hpointer.trans habort)
  have htable := head_of_check rfl h₁
  have h₂ := fun habort => h₁ (htable.trans habort)
  exact hpointer.trans (htable.trans (head_of_check rfl h₂))

/-- **The condition of a call is needed.**  Unless it stops at its first assertion, the first access
of a call that is not allowed goes through no mapping. -/
lemma Session.not_backed {ctx : QspiContext} {s : Host} {t : HostTrace} {call : Call}
    (h : Session page Call.Allowed ctx s t) (hcall : ¬ call.Allowed ctx t)
    (hhead : (call.run ctx).head ≠ .abort) : ¬ Backed page (call.run ctx).head s t := by
  cases call with
  | init => exact absurd trivial hcall
  | deInit => exact absurd trivial hcall
  | busy => exact absurd trivial hcall
  | setupLut lut len =>
    obtain ⟨hne, hnot⟩ := not_or.mp hcall
    rw [setupLut_head ctx lut len hhead]
    exact h.dangling.not_backed hnot Reg.lutkey (by decide) rfl
  | transfer kind addr buffer size =>
    rw [transfer_head kind ctx addr buffer size hhead]
    exact h.dangling.not_backed hcall (Reg.flshcr2 0) (by decide) rfl

/-! ## `main` -/

/-- What `main` may do: it accesses what is mapped and stops at an assertion only after an `open`
or an `mmap` of the FlexSPI registers has failed, and then it accesses no register any more. -/
def MainGuard (page : PageSize) (d : Head bus) : Assertion bus Host HostAction := fun s t =>
  Backed page d s t ∧ (d = .abort → InitFailed t) ∧ (InitFailed t → touched d = none)

lemma mainGuard_of_guard {d : Head bus} {s : Host} {t : HostTrace} (h : Guard page false d s t) :
    MainGuard page d s t := by
  refine ⟨h.backed, fun hd => absurd hd h.asserts, fun hfailed =>
    h.failed.resolve_right fun hnot => ?_⟩
  rw [InitFailed, hnot] at hfailed
  cases hfailed

/-- **`main`.**  It returns only if `QSPI_Init` has not failed. -/
theorem main_triple {testLut : Nat} (hlut : testLut ≠ 0) :
    (host page).Triple (MainGuard page) (Linked page 0 false) (main .zero testLut)
      fun _ _ t => (maps t).failed = false := by
  have hguard : ∀ d s t, Guard page false d s t → MainGuard page d s t :=
    fun d s t => mainGuard_of_guard
  refine ((check_guard settled_linked rfl).allow hguard).bind fun _ => ?_
  refine ((qspiInit_triple .zero).allow hguard).bind fun ctx => Triple.or ?_ ?_
  · -- `QSPI_Init` has failed and the pointer is still `NULL`
    refine Triple.of_pure ?_
    rintro ⟨hflexspi, -⟩
    rw [qspiSetupLut_of_null hflexspi]
    refine Triple.abort settled_linked.stable fun s t hs => ?_
    exact ⟨backed_abort s t, fun _ => hs.1, fun _ => rfl⟩
  · refine Triple.of_pure ?_
    rintro ⟨hne, hinit, -⟩
    have hstep : ∀ {α : Type} {φ : Head bus → Prop} {p : Driver α}, p.Every φ →
        (∀ d, φ d → Inside ctx.flexspi 4096 d) →
        (host page).Triple (MainGuard page) (Up page ctx.flexspi false) p
          fun _ => Up page ctx.flexspi false := fun hp hφ =>
      (up_inside (hp.mono hφ)).allow hguard
    refine (hstep (qspiSetupLut_every ctx testLut testLutSize) ?_).bind fun _ => ?_
    · rintro d (hd | ⟨-, hnot⟩)
      · exact ⟨within_of_lutHead hd, fun h => not_lutHead_abort (h ▸ hd)⟩
      · exact absurd ⟨hne, hlut, by decide⟩ hnot
    have hdone : ¬ qspiIsInitialized ctx = false := by
      rw [qspiIsInitialized, hinit]
      exact Bool.noConfusion
    rw [if_neg hdone]
    refine (hstep (loggedTransfer_every _) ?_).bind fun _ => ?_
    · rintro d (hd | ⟨-, hnot⟩)
      · exact ⟨within_of_transferHead hd, fun h => not_transferHead_abort (h ▸ hd)⟩
      · exact absurd ⟨by decide, by decide⟩ hnot
    refine Triple.bind (((qspiDeInit_triple ctx).allow fun d s t hd => ?_).pre fun s t hs =>
      ⟨hs.linked, fun _ => hs.attached⟩) fun ctx' => ?_
    · exact ⟨hd.backed s t, fun habort => absurd habort hd.2, fun _ => hd.1⟩
    exact Triple.ret (settled_maps (·.failed = false)).stable fun s t hs => hs.1.1

/-! ## Every access -/

/-- **Where the calls access only what is mapped.**  As long as each transfer, and each
`QSPI_SetupLut` with a pointer, is made while the FlexSPI registers are mapped, every register
access goes through a live mapping, whatever `open` and `mmap` answer.  In `main` all accesses do;
but once its `QSPI_Init` has failed it never returns, and what stops it is an assertion.  Each call
needs its condition: where it does not hold, the first access of the call goes through no mapping,
unless an assertion of the call stops it before. -/
theorem accesses_mapped (page : PageSize) :
    (∀ (ctx : QspiContext) (s : Host) (t : HostTrace) (call : Call),
      Session page Call.Allowed ctx s t → call.Allowed ctx t →
      ∀ c, (host page).Reach ⟨call.run ctx, s, t⟩ c → Backed page c.prog.head c.state c.trace) ∧
    (∀ (s : Host) (testLut : Nat), (∀ p, s.mapped p = false) → testLut ≠ 0 →
      ∀ c, (host page).Reach ⟨main .zero testLut, s, []⟩ c →
        Backed page c.prog.head c.state c.trace ∧ (c.prog.head = .abort → InitFailed c.trace) ∧
        (InitFailed c.trace → touched c.prog.head = none ∧ c.prog.head ≠ .done)) ∧
    ∀ (ctx : QspiContext) (s : Host) (t : HostTrace) (call : Call),
      Session page Call.Allowed ctx s t → (call.run ctx).head ≠ .abort →
      (Backed page (call.run ctx).head s t ↔ call.Allowed ctx t) := by
  have hallowed : ∀ (ctx : QspiContext) (s : Host) (t : HostTrace) (call : Call),
      Session page Call.Allowed ctx s t → call.Allowed ctx t →
      ∀ c, (host page).Reach ⟨call.run ctx, s, t⟩ c → Backed page c.prog.head c.state c.trace := by
    intro ctx s t call hsession hcall c hreach
    by_cases hdone : c.prog.head = .done
    · rw [hdone]
      exact backed_done c.state c.trace
    · exact (call.run_triple ctx).guarantee ⟨hsession.coherent, hcall⟩ hreach hdone
  refine ⟨hallowed, ?_, ?_⟩
  · intro s testLut _ hlut c hreach
    have hstart : Linked page 0 false s [] := ⟨rfl, nofun⟩
    by_cases hdone : c.prog.head = .done
    · obtain ⟨p, s', t'⟩ := c
      obtain ⟨a, rfl⟩ := Prog.exists_ret_of_head hdone
      have hfailed := (main_triple hlut).returns hstart hreach
      refine ⟨backed_done s' t', nofun, fun h => ?_⟩
      rw [InitFailed, hfailed] at h
      cases h
    · obtain ⟨hbacked, habort, huntouched⟩ := (main_triple hlut).guarantee hstart hreach hdone
      exact ⟨hbacked, habort, fun h => ⟨huntouched h, hdone⟩⟩
  · intro ctx s t call hsession hhead
    refine ⟨fun hbacked => ?_, fun hcall => hallowed ctx s t call hsession hcall _ (Reach.refl _)⟩
    exact not_not.mp fun hnot => hsession.not_backed hnot hhead hbacked

/-- A process without mappings, in which `open` answers `fd`. -/
def freshHost (fd : Int) : Host where
  mapped := fun _ => false
  fd := fd
  place := 0x10000
  value := 0#32

/-- `QSPI_Init` with its three mappings in different places. -/
def initTicks : List (Tick HostAction) :=
  List.replicate 3 .prog ++ [.env (.setPlace 0x20000)] ++ List.replicate 9 .prog ++
    [.env (.setPlace 0x30000)] ++ List.replicate 12 .prog

theorem accesses_mapped_write :
    (∃ ctx s t, Session smallPage Call.Allowed ctx s t ∧ Attached t ∧
      Backed smallPage (.call (.load (ctx.flexspi + Reg.flshcr2 0))) s t) ∧
    ∀ c, (host smallPage).Reach ⟨main .zero 0x4000, freshHost (-1), []⟩ c →
      Backed smallPage c.prog.head c.state c.trace := by
  constructor
  · obtain ⟨⟨p, s, t⟩, hreach, htest⟩ : ∃ c, (host smallPage).Reach
        ⟨Call.init.run .zero, freshHost 3, []⟩ c ∧
        (c.prog.value?.isSome && (maps c.trace).attached) = true :=
      exists_reach_of_run initTicks (by decide +kernel)
    obtain ⟨hreturned, hattached⟩ := (Bool.and_eq_true _ _).mp htest
    obtain ⟨r, hr⟩ := Option.isSome_iff_exists.mp hreturned
    obtain rfl := Prog.eq_ret_of_value? hr
    have hsession : Session smallPage Call.Allowed r.1 s t :=
      .call .init (.start fun _ => rfl) trivial hreach
    exact ⟨r.1, s, t, hsession, hattached, (accesses_mapped smallPage).1 r.1 s t
      (.transfer (.write 0#8) 0#32 0 0#64) hsession hattached _ (Reach.refl _)⟩
  · intro c hreach
    exact ((accesses_mapped smallPage).2.1 _ _ (fun _ => rfl) (by decide) c hreach).1

/-! ## What goes wrong otherwise -/

/-- **A transfer after `QSPI_DeInit` uses the unmapped registers, and a failed `QSPI_Init` makes
`main` fail an assertion.** -/
theorem session_unmapped_access :
    (¬ ∀ (page : PageSize) (s : Host) (calls : List Call), (∀ p, s.mapped p = false) →
      ∀ c, (host page).Reach ⟨session .zero calls, s, []⟩ c →
        Backed page c.prog.head c.state c.trace) ∧
    ¬ ∀ (page : PageSize) (s : Host) (testLut : Nat), (∀ p, s.mapped p = false) → testLut ≠ 0 →
      ∀ c, (host page).Reach ⟨main .zero testLut, s, []⟩ c → c.prog.head ≠ .abort := by
  constructor
  · intro hevery
    obtain ⟨c, hreach, htest⟩ : ∃ c, (host smallPage).Reach
        ⟨session .zero [.init, .deInit, .transfer (.write 0#8) 0#32 0 0#64], freshHost 3, []⟩ c ∧
        decide (¬ Backed smallPage c.prog.head c.state c.trace) = true :=
      exists_reach_of_run (initTicks ++ List.replicate 5 .prog) (by decide +kernel)
    exact of_decide_eq_true htest (hevery smallPage _ _ (fun _ => rfl) c hreach)
  · intro hevery
    obtain ⟨c, hreach, htest⟩ : ∃ c, (host smallPage).Reach
        ⟨main .zero 0x4000, freshHost (-1), []⟩ c ∧
        c.prog.aborted = true :=
      exists_reach_of_run (List.replicate 2 .prog) (by decide +kernel)
    refine hevery smallPage _ _ (fun _ => rfl) (by decide) c hreach ?_
    rw [Prog.eq_abort_of_aborted htest]
    rfl

end QspiTool
