import QspiTool.Host.ClockCalls
import QspiTool.Host.Holdings

/-!
# The order of gate, clock root and module enable

`QSPI_Init` disables the module before it sets the clocks, and it disables it through `MCR0`, a
FlexSPI register, so the first `QSPI_Init` that maps the registers accesses them with the clock gate
off; and when the clock controller cannot be mapped everything goes on as if it had been.  The other
parts of the protocol hold throughout: an access is in order exactly when the clock controller has
been mapped before, if it is an access of a FlexSPI register at all.  From a cold start a run is in
order exactly when no `QSPI_Init` of it has mapped the registers (`clock_protocol_iff`).
-/

namespace QspiTool

open Words Interaction Machine

variable {page : PageSize}

/-! ## The protocol -/

/-- A FlexSPI register is accessed with the gate on, the clock root is stored to with the module
disabled, and a command is triggered with the module enabled and clocked. -/
structure Orderly (page : PageSize) (d : Head bus) (s : Process) : Prop where
  gate : Touches page d s.kernel → GateOn s.cells
  root : Writes page d s.kernel rootCell → Disabled s.cells
  trigger : Writes page d s.kernel (flexspiBase + Reg.ipcmd) →
    ¬ Disabled s.cells ∧ GateOn s.cells ∧ RootEnabled s.cells

/-- Any public calls, from the zeroed context and with the clock gate off. -/
def coldStart (page : PageSize) : Setting Process HostAction where
  machine := process page
  Start b := b.ctx = .zero ∧ b.trace = [] ∧ b.state.kernel.Untouched ∧ GateOff b.state.cells
  Elsewhere := Process.Elsewhere
  Allowed _ _ := True

/-- The call, on its way to its return, has passed through `c`. -/
def Made.Passes (page : PageSize) (m : Made Process HostAction)
    (c : Config bus Process HostAction (QspiContext × Option Int)) : Prop :=
  (process page).Reach ⟨m.call.run m.before.ctx, m.before.state, m.before.trace⟩ c ∧
    ∃ r, (process page).Reach c ⟨.ret (m.after.ctx, r), m.after.state, m.after.trace⟩

/-! ## Between the calls -/

lemma phys_elsewhere {k k' : Kernel} (h : k.Elsewhere k') (a : Nat) :
    k'.phys page a = k.phys page a := by
  apply Option.ext
  intro x
  constructor
  · intro hx
    obtain ⟨frame, hframe, rfl⟩ := device_of_phys hx
    exact phys_of_device ((h.1 _ _).mp hframe)
  · intro hx
    obtain ⟨frame, hframe, rfl⟩ := device_of_phys hx
    exact phys_of_device ((h.1 _ _).mpr hframe)

lemma Kernel.Untouched.hides {k : Kernel} (h : k.Untouched) (bank len : Nat) :
    k.Hides page bank len := by
  intro off _
  cases hphys : k.phys page (bank + off) with
  | none => rfl
  | some x => exact absurd (owns_of_phys hphys) (h.1 _)

lemma coldStart_steady {ms : List (Made Process HostAction)} {b : Stage Process HostAction}
    (h : History (coldStart page) ms b) : On (Steady page b.ctx.flexspi) b.state b.trace := by
  refine h.invariant (I := fun b => On (Steady page b.ctx.flexspi) b.state b.trace) ?_ ?_ ?_
  · rintro b ⟨hctx, htrace, hkernel, hgate⟩
    rw [hctx, htrace]
    refine ⟨⟨?_, fun _ => hgate⟩, .inr (hkernel.hides _ _), rfl⟩
    rintro ⟨a, -, hmem⟩
    cases hmem
  · rintro b s hb ⟨hcells, hkernel⟩
    refine ⟨hcells.symm ▸ hb.wired, ?_, hb.aligned⟩
    rw [hcells]
    refine hb.pointer.imp (And.imp_left fun hshows off hoff => ?_) fun hhides off hoff => ?_
    · rw [phys_elsewhere hkernel]
      exact hshows off hoff
    · rw [phys_elsewhere hkernel]
      exact hhides off hoff
  · intro b b' call r hb _ hreach
    exact (call_steady b.ctx call).returns hb hreach

lemma proper_of_reach {b : Stage Process HostAction}
    (h : On (Steady page b.ctx.flexspi) b.state b.trace) {call : Call}
    {c : Config bus Process HostAction (QspiContext × Option Int)}
    (hreach : (process page).Reach ⟨call.run b.ctx, b.state, b.trace⟩ c) :
    Proper page c.prog.head c.state c.trace := by
  by_cases hdone : c.prog.head = .done
  · rw [hdone]
    exact proper_of_none rfl _ _
  · exact (call_steady b.ctx call).guarantee h hreach hdone

/-- A word that is written within the registers is touched. -/
lemma touches_of_writes {d : Head bus} {k : Kernel} {off : Nat} (hoff : off + 4 ≤ Reg.size)
    (h : Writes page d k (flexspiBase + off)) : Touches page d k := by
  obtain ⟨a, ha, hphys⟩ := h
  cases d with
  | call o =>
    cases o with
    | store a' v =>
      obtain rfl := Option.some.inj ha
      exact ⟨_, rfl, off, by omega, hphys⟩
    | store8 a' b =>
      -- the byte is in the page of its word
      obtain rfl := Option.some.inj ha
      obtain ⟨frame, hframe, heq⟩ := device_of_phys hphys
      obtain ⟨c, hc⟩ := page.dvd_bytes
      have hbytes : page.bytes = 4 * (1024 * c) := by omega
      have hnumber : 4 * (a' / 4) / page.bytes = a' / page.bytes := by
        rw [hbytes, Nat.mul_div_mul_left _ _ (by decide), Nat.div_div_eq_div_mul]
      have hword := Nat.div_add_mod (4 * (a' / 4)) page.bytes
      have hbyte := Nat.div_add_mod a' page.bytes
      rw [hnumber] at hframe hword
      refine ⟨a', rfl, off + a' % 4, by omega, ?_⟩
      rw [phys_of_device hframe]
      exact congrArg some (by omega)
    | _ => cases ha
  | _ => cases ha

/-- **One access.** -/
lemma Proper.orderly_iff {d : Head bus} {s : Process} {t : HostTrace} (h : Proper page d s t) :
    Orderly page d s ↔ (Touches page d s.kernel → Clocked page (syscalls t)) := by
  constructor
  · intro horderly htouch
    by_contra hnot
    exact ((h.wired htouch).off hnot).not_on (horderly.gate htouch)
  · intro hclocked
    have hon : Touches page d s.kernel → GateOn s.cells ∧ RootEnabled s.cells := fun htouch =>
      (h.wired htouch).on (hclocked htouch)
    refine ⟨fun htouch => (hon htouch).1, h.root, fun hwrites => ⟨h.trigger hwrites, ?_⟩⟩
    exact hon (touches_of_writes (by decide) hwrites)

/-! ## Runs that map nothing -/

/-- Every `mmap` has failed. -/
def NothingMapped (cs : List Syscall) : Prop :=
  ∀ a size offset, .mapped a size offset ∈ cs → a = mapFailed

lemma nothingMapped_nil : NothingMapped [] := fun _ _ _ hmem => absurd hmem List.not_mem_nil

lemma NothingMapped.append {cs ds : List Syscall} :
    NothingMapped (cs ++ ds) ↔ NothingMapped cs ∧ NothingMapped ds := by
  constructor
  · exact fun h => ⟨fun a size offset hmem => h a size offset (List.mem_append_left _ hmem),
      fun a size offset hmem => h a size offset (List.mem_append_right _ hmem)⟩
  · rintro ⟨hcs, hds⟩ a size offset hmem
    rcases List.mem_append.mp hmem with hmem | hmem
    · exact hcs a size offset hmem
    · exact hds a size offset hmem

lemma NothingMapped.owns {cs : List Syscall} (h : NothingMapped cs) {k : Kernel} {p : Nat}
    (hp : (k.afterAll page cs).Owns p) : k.Owns p := by
  induction cs generalizing k with
  | nil => exact hp
  | cons c cs ih =>
    have howns := ih (fun a size offset hmem => h a size offset (List.mem_cons_of_mem _ hmem)) hp
    cases c with
    | opened fd => exact Kernel.owns_after_opened.mp howns
    | closed fd => exact Kernel.owns_after_closed.mp howns
    | unmapped a size => exact (Kernel.owns_after_unmapped.mp howns).1
    | mapped a size offset =>
      refine (Kernel.owns_after_mapped.mp howns).resolve_right fun hmap => hmap.1 ?_
      exact h a size offset List.mem_cons_self

/-- No `QSPI_Init` has mapped the FlexSPI registers. -/
def NeverGranted (ms : List (Made Process HostAction)) : Prop :=
  ∀ m ∈ ms, m.call = .init → ¬ RegistersGranted m.calls

lemma neverGranted_snoc {ms : List (Made Process HostAction)} {m : Made Process HostAction} :
    NeverGranted (ms ++ [m]) ↔
      NeverGranted ms ∧ (m.call = .init → ¬ RegistersGranted m.calls) := by
  simp only [NeverGranted, List.forall_mem_append, List.forall_mem_singleton]

/-- Anything but an `mmap`. -/
def NoMmap (d : Head bus) : Prop := ∀ size fd offset, d ≠ .call (Access.mmap size fd offset)

lemma noMmap_of_within {bank len : Nat} {d : Head bus} (h : Within bank len d) : NoMmap d := by
  rintro size fd offset rfl
  exact h.2

/-- Only `QSPI_Init` maps. -/
lemma noMmap_every {call : Call} (hcall : call ≠ .init) (ctx : QspiContext) :
    (call.run ctx).Every NoMmap := by
  cases call with
  | init => exact absurd rfl hcall
  | deInit =>
    refine Prog.Every.bind ?_ fun _ => Prog.every_ret _
    unfold qspiDeInit
    split
    · trivial
    · exact ⟨nofun, fun _ => ⟨nofun, fun _ => ⟨nofun, fun _ => ⟨nofun, fun _ =>
        ⟨nofun, fun _ => trivial⟩⟩⟩⟩⟩
  | setupLut lut len =>
    refine ((qspiSetupLut_every ctx lut len).mono fun d hd => ?_).bind fun _ => Prog.every_ret _
    rcases hd with hd | ⟨rfl, -⟩
    · exact noMmap_of_within (within_of_lutHead hd)
    · exact nofun
  | busy =>
    exact ((qspiBusy_every ctx).mono fun d hd =>
      noMmap_of_within (within_of_flagHead hd)).bind fun _ => Prog.every_ret _
  | transfer kind addr buffer size =>
    refine ((kind.run_every ctx addr buffer size).mono fun d hd => ?_).bind fun _ =>
      Prog.every_ret _
    rcases hd with hd | rfl
    · exact noMmap_of_within (within_of_transferHead hd)
    · exact nofun

/-- The system calls since `cs` have mapped nothing. -/
def MappedNothingSince (cs : List Syscall) : Assertion bus Process HostAction :=
  OnCalls fun ds => ∃ es, ds = cs ++ es ∧ NothingMapped es

lemma noMmap_triple {α : Type} {p : Driver α} (hp : p.Every NoMmap) (cs : List Syscall) :
    (process page).Triple (fun _ _ _ => True) (MappedNothingSince cs) p fun _ =>
      MappedNothingSince cs := by
  refine Triple.invariant hp (stable_onCalls _) (fun _ _ _ _ _ => trivial) ?_ ?_
  · rintro o s t ho ⟨es, heq, hes⟩
    refine ⟨es ++ (syscall? (.call o ((process page).exec o s).1)).toList, ?_, ?_⟩
    · rw [syscalls_snoc, heq, List.append_assoc]
    · refine NothingMapped.append.mpr ⟨hes, fun a size offset hmem => ?_⟩
      cases o with
      | mmap size fd offset => exact absurd rfl (ho size fd offset)
      | openMem => exact absurd hmem (by simp [syscall?])
      | close fd => exact absurd hmem (by simp [syscall?])
      | munmap a size => exact absurd hmem (by simp [syscall?])
      | _ => cases hmem
  · rintro w s t _ ⟨es, heq, hes⟩
    refine ⟨es, ?_, hes⟩
    rw [syscalls_snoc, heq]
    exact List.append_nil _

lemma registersGranted_ready {fd : Int} {fspi iomux ccm : Nat}
    (h : (InitOutcome.ready fd fspi iomux ccm).Possible) :
    RegistersGranted ((InitOutcome.ready fd fspi iomux ccm).calls page) :=
  ⟨⟨fd, rfl, h.1⟩, fspi, rfl, h.2⟩

/-- What a call maps, it maps in a `QSPI_Init` that has mapped the FlexSPI registers. -/
lemma nothingMapped_of_reach {m : Made Process HostAction} {r : Option Int}
    (h : (process page).Reach ⟨m.call.run m.before.ctx, m.before.state, m.before.trace⟩
      ⟨.ret (m.after.ctx, r), m.after.state, m.after.trace⟩)
    (hnot : m.call = .init → ¬ RegistersGranted m.calls) :
    ∃ ds, syscalls m.after.trace = syscalls m.before.trace ++ ds ∧ NothingMapped ds := by
  obtain ⟨call, before, after⟩ := m
  by_cases hcall : call = .init
  · subst hcall
    obtain ⟨o, hpossible, -, hds⟩ := outcome_of_reach h
    refine ⟨_, hds, ?_⟩
    have hcalls : (Made.mk .init before after).calls = o.calls page := Made.calls_eq hds
    cases o with
    | noMemory fd => simp [NothingMapped, InitOutcome.calls]
    | noRegisters fd =>
      intro a size offset hmem
      simp only [InitOutcome.calls, List.mem_cons, List.not_mem_nil, or_false, reduceCtorEq,
        false_or, Syscall.mapped.injEq] at hmem
      exact hmem.1
    | ready fd fspi iomux ccm =>
      exact absurd (hcalls ▸ registersGranted_ready hpossible) (hnot rfl)
  · exact (noMmap_triple (noMmap_every hcall before.ctx) (syscalls before.trace)).returns
      ⟨[], (List.append_nil _).symm, nothingMapped_nil⟩ h

/-- The driver has mapped nothing, and has no page. -/
structure Cold (page : PageSize) (b : Stage Process HostAction) : Prop where
  calls : NothingMapped (syscalls b.trace)
  pages (p : Nat) : ¬ b.state.kernel.Owns p

/-- On the way to a return before which nothing has been mapped. -/
lemma Cold.passes {m : Made Process HostAction} (h : Cold page m.before) {ds : List Syscall}
    (hds : syscalls m.after.trace = syscalls m.before.trace ++ ds) (hmapped : NothingMapped ds)
    {c : Config bus Process HostAction (QspiContext × Option Int)} (hc : m.Passes page c)
    (p : Nat) :
    ¬ c.state.kernel.Owns p := by
  obtain ⟨hreach, r, hreturn⟩ := hc
  obtain ⟨u, htrace, hkernel, -⟩ := reach_kernel hreach
  obtain ⟨v, htrace', -, -⟩ := reach_kernel hreturn
  dsimp only at htrace htrace' hkernel
  have hsplit : ds = syscalls u ++ syscalls v := by
    rw [htrace', htrace, List.append_assoc, syscalls_append, syscalls_append] at hds
    exact (List.append_cancel_left hds).symm
  rw [hsplit] at hmapped
  rw [hkernel]
  exact fun hp => h.pages p ((NothingMapped.append.mp hmapped).1.owns hp)

lemma not_touches_of_cold {d : Head bus} {k : Kernel} (h : ∀ p, ¬ k.Owns p) : ¬ Touches page d k :=
  fun ⟨_, _, _, _, hphys⟩ => h _ (owns_of_phys hphys)

/-- **Runs in which no `QSPI_Init` maps the registers** touch no FlexSPI register. -/
theorem neverGranted_cold {ms : List (Made Process HostAction)} {b : Stage Process HostAction}
    (h : History (coldStart page) ms b) (hms : NeverGranted ms) :
    Cold page b ∧ ∀ m ∈ ms, ∀ c, m.Passes page c → ¬ Touches page c.prog.head c.state.kernel := by
  induction h with
  | start h =>
    obtain ⟨-, htrace, hkernel, -⟩ := h
    exact ⟨⟨htrace ▸ nothingMapped_nil, hkernel.1⟩, List.forall_mem_nil _⟩
  | elsewhere _ hmove ih =>
    obtain ⟨hcold, hpasses⟩ := ih hms
    refine ⟨⟨hcold.calls, fun p => ?_⟩, hpasses⟩
    rintro ⟨frame, hframe⟩
    exact hcold.pages p ⟨frame, (hmove.2.1 p frame).mp hframe⟩
  | @call ms b b' r call h _ hreach ih =>
    obtain ⟨hbefore, hlast⟩ := neverGranted_snoc.mp hms
    obtain ⟨hcold, hpasses⟩ := ih hbefore
    have hmade : (process page).Reach ⟨call.run b.ctx, b.state, b.trace⟩
      ⟨.ret (b'.ctx, r), b'.state, b'.trace⟩ := hreach
    obtain ⟨ds, hds, hmapped⟩ := nothingMapped_of_reach (m := ⟨call, b, b'⟩) hmade hlast
    have hcold' : ∀ c, (Made.mk call b b').Passes page c → ∀ p, ¬ c.state.kernel.Owns p :=
      fun c hc => Cold.passes (m := ⟨call, b, b'⟩) hcold hds hmapped hc
    refine ⟨⟨?_, ?_⟩, fun m hm c hc => ?_⟩
    · dsimp only at hds
      rw [hds]
      exact NothingMapped.append.mpr ⟨hcold.calls, hmapped⟩
    · exact hcold' ⟨.ret (b'.ctx, r), b'.state, b'.trace⟩ ⟨hmade, r, Reach.refl _⟩
    · rcases List.mem_append.mp hm with hm | hm
      · exact hpasses m hm c hc
      · obtain rfl := List.mem_singleton.mp hm
        exact not_touches_of_cold (hcold' c hc)

/-! ## Runs in which a `QSPI_Init` maps the registers -/

/-- The first register access of a `QSPI_Init` that has mapped the registers: `MCR0`, in front of
`clock_init`. -/
lemma exists_mcr0_access {ctx ctx' : QspiContext} {s s' : Process} {t t' : HostTrace} {fd : Int}
    {fspi iomux ccm : Nat} (hpossible : (InitOutcome.ready fd fspi iomux ccm).Possible)
    (h : (process page).Reach ⟨qspiInit ctx, s, t⟩ ⟨.ret ctx', s', t'⟩)
    (hcalls : syscalls t' = syscalls t ++ (InitOutcome.ready fd fspi iomux ccm).calls page) :
    ∃ c : Config bus Process HostAction QspiContext,
      (process page).Reach ⟨qspiInit ctx, s, t⟩ c ∧
      (process page).Reach c ⟨.ret ctx', s', t'⟩ ∧
      c.prog.head = .call (Access.load (fspi + pageOffset flexspiBase page.bytes + Reg.mcr0)) ∧
      syscalls c.trace = syscalls t ++
        [.opened fd, .mapped fspi Reg.size (pageBase flexspiBase page.bytes),
          .mapped iomux page.bytes (pageBase iomuxcBase page.bytes)] := by
  -- the system calls made so far are the first of those made in the end
  have hstart : ∀ {c : Config bus Process HostAction QspiContext} {ds : List Syscall},
      (process page).Reach c ⟨.ret ctx', s', t'⟩ → syscalls c.trace = syscalls t ++ ds →
      ds <+: (InitOutcome.ready fd fspi iomux ccm).calls page := by
    intro c ds hreach hds
    obtain ⟨u, htrace⟩ := hreach.trace_prefix
    dsimp only at htrace
    rw [htrace, syscalls_append, hds, List.append_assoc] at hcalls
    exact ⟨syscalls u, List.append_cancel_left hcalls⟩
  unfold qspiInit at h ⊢
  obtain ⟨size, s₁, t₁, hsize, hreach₁, h⟩ := h.exists_mid
  obtain ⟨hissued, rfl⟩ := sysconfPageSize_issued.returns rfl hsize
  obtain ⟨_, s₂, t₂, hcheck, hreach₂, h⟩ := h.exists_mid
  obtain ⟨hissued, -⟩ := (check_issued _).returns hissued hcheck
  obtain ⟨_, s₃, t₃, hcheck, hreach₃, h⟩ := h.exists_mid
  obtain ⟨hissued, -⟩ := (check_issued _).returns hissued hcheck
  obtain ⟨fd', s₄, t₄, hopen, hreach₄, h⟩ := h.exists_mid
  have hissued : Issued (syscalls t ++ [.opened fd']) s₄ t₄ :=
    (op_issued (o := .openMem) nofun).returns hissued hopen
  obtain rfl : fd' = fd :=
    Syscall.opened.inj (List.cons_prefix_cons.mp (hstart h hissued)).1
  dsimp only at h hreach₄
  rw [if_neg (Int.not_lt.mpr hpossible.1)] at h hreach₄
  obtain ⟨r, s₅, t₅, hrequest, hreach₅, h⟩ := h.exists_mid
  obtain ⟨map, hcalls₅, hr⟩ := (requestFlexspiMemory_issued _).returns hissued hrequest
  rw [List.append_assoc] at hcalls₅
  obtain rfl : map = fspi := by
    have hmaps := (List.cons_prefix_cons.mp (hstart h hcalls₅)).2
    have hmap := (List.cons_prefix_cons.mp hmaps).1
    injection hmap
  rw [if_neg hpossible.2] at hr
  subst hr
  dsimp only at h hreach₅
  rw [if_neg (by decide)] at h hreach₅
  unfold bringUp at h hreach₅
  obtain ⟨ctx₁, s₆, t₆, hiomux, hreach₆, h⟩ := h.exists_mid
  obtain ⟨map, rfl, hcalls₆⟩ := (iomuxInit_issued _).returns hcalls₅ hiomux
  rw [List.append_assoc] at hcalls₆
  obtain rfl : map = iomux := by
    have hmaps := (List.cons_prefix_cons.mp (hstart h hcalls₆)).2
    have hmap := (List.cons_prefix_cons.mp (List.cons_prefix_cons.mp hmaps).2).1
    injection hmap
  refine ⟨_, ?_, h, rfl, hcalls₆⟩
  exact hreach₁.trans (hreach₂.trans (hreach₃.trans (hreach₄.trans (hreach₅.trans hreach₆))))

/-- That access is one of a FlexSPI register, and the clock controller has not been mapped. -/
lemma granted_init_touches {b b' : Stage Process HostAction} (hcold : Cold page b) {r : Option Int}
    (h : (process page).Reach ⟨Call.init.run b.ctx, b.state, b.trace⟩
      ⟨.ret (b'.ctx, r), b'.state, b'.trace⟩)
    (hgranted : RegistersGranted (Made.mk .init b b').calls) :
    ∃ c, (Made.mk .init b b').Passes page c ∧ Touches page c.prog.head c.state.kernel ∧
      ¬ Clocked page (syscalls c.trace) := by
  obtain ⟨o, hpossible, -, hds⟩ := outcome_of_reach h
  have hcalls : (Made.mk .init b b').calls = o.calls page := Made.calls_eq hds
  rw [hcalls] at hgranted
  cases o with
  | noMemory fd =>
    obtain ⟨-, a, ha, -⟩ := hgranted
    cases ha
  | noRegisters fd =>
    obtain ⟨-, a, ha, hne⟩ := hgranted
    exact absurd (Option.some.inj ha).symm hne
  | ready fd fspi iomux ccm =>
    obtain ⟨ctx, s, t, hinit, hreach, hreturn⟩ := Reach.exists_mid (p := qspiInit b.ctx) h
    have hds' : syscalls t = syscalls b.trace ++
        (InitOutcome.ready fd fspi iomux ccm).calls page := by
      have hsame := (Triple.ret (G := Owned) (P := Issued (syscalls t))
        (Q := fun _ => Issued (syscalls t)) (stable_onCalls _) fun _ _ => id).returns rfl hreturn
      exact hsame.symm.trans hds
    obtain ⟨c, hc, hc', hhead, htrace⟩ := exists_mcr0_access hpossible hinit hds'
    have hne : c.prog.head ≠ .done := by
      rw [hhead]
      exact nofun
    refine ⟨c.bind _, ⟨hc.bind _, r, (hc'.bind _).trans hreturn⟩, ?_, ?_⟩
    · -- the mapping just made shows the registers, and the next one leaves it alone
      obtain ⟨u, hu, hkernel, hgrants⟩ := reach_kernel hc
      dsimp only at hu hkernel hgrants
      rw [hu, syscalls_append] at htrace
      rw [List.append_cancel_left htrace] at hkernel hgrants
      obtain ⟨-, hfspi, hiomux, -⟩ := hgrants
      have hmaps : ((b.state.kernel.after page (.opened fd)).after page
          (.mapped fspi Reg.size (pageBase flexspiBase page.bytes))).Maps page fspi Reg.size
          (pageBase flexspiBase page.bytes) := Kernel.maps_after_mapped _ hpossible.2 _ _
      have hshows := hmaps.shows (hfspi.aligned hpossible.2) (by decide) (by decide) (by decide)
        (.inl (Nat.le_refl _)) (by decide)
      refine ⟨_, congrArg touched ((Prog.head_bind hne _).trans hhead), Reg.mcr0, by decide, ?_⟩
      change c.state.kernel.phys page _ = _
      rw [hkernel]
      exact (hshows.mono hiomux.keeps) Reg.mcr0 (by decide)
    · rintro ⟨a, ha, hmem⟩
      change Syscall.mapped a pageSize64K (pageBase ccmBase page.bytes) ∈ syscalls c.trace at hmem
      rw [htrace] at hmem
      rcases List.mem_append.mp hmem with hmem | hmem
      · exact ha (hcold.calls a _ _ hmem)
      · simp only [List.mem_cons, List.not_mem_nil, or_false, reduceCtorEq, false_or] at hmem
        rcases hmem with heq | heq
        · injection heq with _ hsize
          exact absurd hsize (by decide)
        · exact iomux_ne_ccm iomux a heq.symm

/-- **When the clock protocol is kept.**  From a cold start, by the calls made so far exactly when
no `QSPI_Init` of them has mapped the FlexSPI registers; and by each access of the next call exactly
when the clock controller has been mapped before, if it is an access of a FlexSPI register. -/
theorem clock_protocol_iff {ms : List (Made Process HostAction)} {b : Stage Process HostAction}
    (h : History (coldStart page) ms b) :
    ((∀ m ∈ ms, ∀ c, m.Passes page c → Orderly page c.prog.head c.state) ↔
      ∀ m ∈ ms, m.call = .init → ¬ RegistersGranted m.calls) ∧
    ∀ (call : Call) (c : Config bus Process HostAction (QspiContext × Option Int)),
      (process page).Reach ⟨call.run b.ctx, b.state, b.trace⟩ c →
      (Orderly page c.prog.head c.state ↔
        (Touches page c.prog.head c.state.kernel → Clocked page (syscalls c.trace))) := by
  refine ⟨⟨?_, ?_⟩, fun call c hreach => (proper_of_reach (coldStart_steady h) hreach).orderly_iff⟩
  · intro horderly
    induction h with
    | start h => exact List.forall_mem_nil _
    | elsewhere _ _ ih => exact ih horderly
    | @call ms b b' r call h _ hreach ih =>
      have hms : NeverGranted ms := ih fun m hm => horderly m (List.mem_append_left _ hm)
      refine neverGranted_snoc.mpr ⟨hms, ?_⟩
      rintro rfl hgranted
      obtain ⟨c, hc, htouch, hnot⟩ :=
        granted_init_touches (neverGranted_cold h hms).1 hreach hgranted
      have hproper := proper_of_reach (coldStart_steady h) hc.1
      exact hnot (hproper.orderly_iff.mp (horderly _ (by simp) c hc) htouch)
  · intro hms m hm c hc
    obtain ⟨ms', r, hbefore, -, -⟩ := h.made hm
    have hproper := proper_of_reach (coldStart_steady hbefore) hc.1
    exact hproper.orderly_iff.mpr fun htouch =>
      absurd htouch ((neverGranted_cold h hms).2 m hm c hc)

lemma coldStart_newStage (fd : Int) : (coldStart page).Start (newStage fd) := by
  refine ⟨rfl, rfl, newProcess_untouched fd, ?_⟩
  change (0#32 : Word) &&& 3#32 = 0#32
  decide

/-- After a `QSPI_Init` that could map everything, a `QSPI_Write` is in order. -/
theorem clock_protocol_iff_write :
    ∃ ms b, History (coldStart smallPage) ms b ∧ ms.length = 1 ∧ b.ctx.initDone = true ∧
      ∀ c, (process smallPage).Reach ⟨(Call.transfer (.write 0#8) 0#32 0 0#64).run b.ctx, b.state,
        b.trace⟩ c → Orderly smallPage c.prog.head c.state := by
  obtain ⟨ms, b, hhistory, htest⟩ := Setting.exists_history (w := coldStart smallPage)
    [initSchedule 3 0x10000 0x20000 0x30000]
    (fun ms b => decide (ms.length = 1 ∧ b.ctx.initDone = true ∧
      .mapped 0x30000 pageSize64K (pageBase ccmBase smallPage.bytes) ∈ syscalls b.trace))
    (coldStart_newStage 3) (fun _ _ _ => trivial) (by decide +kernel)
  obtain ⟨hlength, hinit, hmapped⟩ := of_decide_eq_true htest
  refine ⟨ms, b, hhistory, hlength, hinit, fun c hreach => ?_⟩
  refine ((clock_protocol_iff hhistory).2 _ c hreach).mpr fun _ => ?_
  obtain ⟨u, htrace⟩ := hreach.trace_prefix
  rw [htrace, syscalls_append]
  exact ⟨0x30000, by decide, List.mem_append_left _ hmapped⟩

/-- **The first `QSPI_Init` accesses `MCR0` with the clock gate off.** -/
theorem init_touches_ungated :
    ¬ ∀ (page : PageSize) (ms : List (Made Process HostAction)) (b : Stage Process HostAction),
      History (coldStart page) ms b →
      ∀ (call : Call) (c : Config bus Process HostAction (QspiContext × Option Int)),
        (process page).Reach ⟨call.run b.ctx, b.state, b.trace⟩ c →
        Orderly page c.prog.head c.state := by
  intro hevery
  obtain ⟨c, hreach, htest⟩ : ∃ c, (process smallPage).Reach
      ⟨Call.init.run .zero, newProcess 3, []⟩ c ∧
      decide ((touched c.prog.head).bind (c.state.kernel.phys smallPage) = some mcr0Cell ∧
        c.state.cells gateCell = 0#32) = true :=
    exists_reach_of_run (timed [(0, .setPlace 0x10000), (3, .setPlace 0x20000)] 7)
      (by decide +kernel)
  obtain ⟨hphys, hgate⟩ := of_decide_eq_true htest
  obtain ⟨a, ha, hx⟩ := Option.bind_eq_some_iff.mp hphys
  have horderly := hevery smallPage [] (newStage 3) (.start (coldStart_newStage 3)) .init c hreach
  have hon : GateOn c.state.cells := horderly.gate ⟨a, ha, Reg.mcr0, by decide, hx⟩
  rw [GateOn, hgate] at hon
  exact absurd hon (by decide)

end QspiTool
