import QspiTool.Host.Lifecycle

/-!
# What the driver holds between two calls

Two invariants of the lifecycles of `Host.Lifecycle`.  The kernel and the trace agree on the
descriptors of the driver, each of which is held once (`Tracks`).  And a context that is
initialised is the one that the last call has left: a `QSPI_Init` whose `open` and first `mmap`
have succeeded, with its descriptor and its successful mappings still there (`Settles`).
-/

namespace QspiTool

open Words Interaction Machine

variable {page : PageSize} {cs : List Syscall}

/-! ## The descriptors of the driver -/

/-- The kernel and the trace agree on the descriptors of the driver. -/
structure Tracks (k : Kernel) (cs : List Syscall) : Prop where
  once : (held cs).Nodup
  driver (fd : Int) : fd ∈ held cs ↔ k.descriptors fd = .driver
  pos (fd : Int) : fd ∈ held cs → 0 ≤ fd

lemma Kernel.Untouched.tracks {k : Kernel} (h : k.Untouched) : Tracks k [] where
  once := List.nodup_nil
  driver fd := ⟨nofun, fun hfd => absurd hfd (h.2 fd)⟩
  pos _ := nofun

lemma Tracks.elsewhere {k k' : Kernel} (h : Tracks k cs) (hmove : k.Elsewhere k') :
    Tracks k' cs where
  once := h.once
  driver fd := (h.driver fd).trans (hmove.2 fd).symm
  pos := h.pos

lemma Tracks.after {k : Kernel} (h : Tracks k cs) {c : Syscall} (hc : k.Grants page c) :
    Tracks (k.after page c) (cs ++ [c]) := by
  have hsame : ∀ k' : Kernel, k'.descriptors = k.descriptors → heldNext (held cs) c = held cs →
      Tracks k' (cs ++ [c]) := by
    intro k' hk hheld
    have happend : held (cs ++ [c]) = held cs := by rw [held_append]; exact hheld
    exact ⟨by rw [happend]; exact h.once, by rw [happend, hk]; exact h.driver,
      by rw [happend]; exact h.pos⟩
  cases c with
  | mapped a size offset => exact hsame _ (Kernel.after_mapped_descriptors page k a size offset) rfl
  | unmapped a size => exact hsame _ (Kernel.after_unmapped_descriptors page k a size) rfl
  | opened fd =>
    by_cases hpos : 0 ≤ fd
    · have happend : held (cs ++ [.opened fd]) = fd :: held cs := by
        rw [held_append]
        exact if_pos hpos
      -- the kernel gives no descriptor that somebody holds
      have hnew : fd ∉ held cs := by
        rw [h.driver fd, hc hpos]
        exact nofun
      rw [Kernel.after, if_pos hpos]
      refine ⟨?_, fun fd' => ?_, fun fd' hfd' => ?_⟩
      · rw [happend]
        exact List.nodup_cons.mpr ⟨hnew, h.once⟩
      · rw [happend, List.mem_cons]
        by_cases heq : fd' = fd
        · simp [heq]
        · simp [heq, h.driver fd']
      · rw [happend, List.mem_cons] at hfd'
        rcases hfd' with rfl | hfd'
        · exact hpos
        · exact h.pos fd' hfd'
    · refine hsame _ ?_ (if_neg hpos)
      rw [Kernel.after, if_neg hpos]
  | closed fd =>
    have happend : held (cs ++ [.closed fd]) = (held cs).erase fd := held_append _ _
    refine ⟨?_, fun fd' => ?_, fun fd' hfd' => ?_⟩
    · rw [happend]
      exact h.once.erase fd
    · rw [happend, h.once.mem_erase_iff, Kernel.after]
      by_cases heq : fd' = fd
      · simp [heq]
      · simp [heq, h.driver fd']
    · rw [happend] at hfd'
      exact h.pos fd' (List.mem_of_mem_erase hfd')

lemma Tracks.afterAll {k : Kernel} (h : Tracks k cs) {ds : List Syscall}
    (hds : k.GrantsAll page ds) : Tracks (k.afterAll page ds) (cs ++ ds) := by
  induction ds generalizing k cs with
  | nil => rwa [List.append_nil]
  | cons d ds ih =>
    obtain ⟨hd, hds⟩ := hds
    rw [← List.singleton_append, ← List.append_assoc]
    exact ih (h.after hd) hds

/-- What the driver lets go or asks for is always granted. -/
lemma grantsAll_deInitCalls (k : Kernel) (ctx : QspiContext) :
    k.GrantsAll page (deInitCalls ctx) := by
  unfold deInitCalls
  split <;> simp [Kernel.Grants]

lemma LifeStep.tracks {l l' : Life} {call : Call} (h : LifeStep page l call l')
    (hl : Tracks l.kernel l.calls) : Tracks l'.kernel l'.calls := by
  cases h with
  | init o _ hgrants => exact hl.afterAll hgrants
  | deInit => exact hl.afterAll (grantsAll_deInitCalls _ _)

lemma lifecycle_tracks {ms : List (Made Process HostAction)} {b : Stage Process HostAction}
    (h : History (lifecycle page) ms b) : Tracks b.life.kernel b.life.calls :=
  lifecycle_induction (I := fun _ l => Tracks l.kernel l.calls) (fun _ hk => hk.tracks)
    (fun _ _ _ hl hmove => hl.elsewhere hmove) (fun _ _ hl hstep => hstep.tracks hl) h

/-! ## What the last call has met -/

/-- The answers of `open`. -/
def opensOf (cs : List Syscall) : List Int :=
  cs.filterMap fun
    | .opened fd => some fd
    | _ => none

/-- The answers of `mmap`. -/
def mapsOf (cs : List Syscall) : List Nat :=
  cs.filterMap fun
    | .mapped a _ _ => some a
    | _ => none

/-- `open` and the first `mmap`, that of the FlexSPI registers, have succeeded. -/
def RegistersGranted (cs : List Syscall) : Prop :=
  (∃ fd, opensOf cs = [fd] ∧ 0 ≤ fd) ∧ ∃ a, (mapsOf cs).head? = some a ∧ a ≠ mapFailed

/-- The last call was a `QSPI_Init`, with such system calls. -/
def LastInit (ms : List (Made Process HostAction)) (met : List Syscall → Prop) : Prop :=
  ∃ m, ms.getLast? = some m ∧ m.call = .init ∧ met m.calls

/-! ## What an initialised context holds -/

/-- What an initialised context has: it is the one left by the last call, a `QSPI_Init` with these
answers, and what the kernel has granted is live. -/
structure Ready (page : PageSize) (ms : List (Made Process HostAction)) (l : Life) (fd : Int)
    (fspi iomux ccm : Nat) : Prop where
  last : LastInit ms (· = (InitOutcome.ready fd fspi iomux ccm).calls page)
  possible : (InitOutcome.ready fd fspi iomux ccm).Possible
  context : ∃ ctx, l.ctx = (InitOutcome.ready fd fspi iomux ccm).context page ctx
  fd_open : l.kernel.descriptors fd = .driver
  fspi_live : l.kernel.Maps page fspi Reg.size (pageBase flexspiBase page.bytes)
  iomux_aligned : iomux ≠ mapFailed → iomux % page.bytes = 0
  iomux_live : iomux ≠ mapFailed →
    l.kernel.Maps page iomux page.bytes (pageBase iomuxcBase page.bytes)
  ccm_live : ccm ≠ mapFailed →
    l.kernel.Maps page ccm pageSize64K (pageBase ccmBase page.bytes)

/-- A lifecycle is not initialised, or it is ready. -/
def Settles (page : PageSize) (ms : List (Made Process HostAction)) (l : Life) : Prop :=
  (l.ctx.initDone = false ∧ ¬ LastInit ms RegistersGranted) ∨
    ∃ fd fspi iomux ccm, Ready page ms l fd fspi iomux ccm

lemma Kernel.Maps.elsewhere {k k' : Kernel} {a size offset : Nat} (h : k.Maps page a size offset)
    (hmove : k.Elsewhere k') : k'.Maps page a size offset :=
  fun p hp => (hmove.1 p _).mpr (h p hp)

lemma lastInit_snoc {ms : List (Made Process HostAction)} {m : Made Process HostAction}
    {met : List Syscall → Prop} :
    LastInit (ms ++ [m]) met ↔ m.call = .init ∧ met m.calls := by
  simp [LastInit]

lemma LifeStep.settles {ms : List (Made Process HostAction)} {m : Made Process HostAction}
    (h : LifeStep page m.before.life m.call m.after.life) :
    Settles page (ms ++ [m]) m.after.life := by
  obtain ⟨call, before, after⟩ := m
  dsimp only at h
  generalize hl : after.life = l at h
  cases h with
  | init o hpossible hgrants =>
    have hcalls : (Made.mk .init before after).calls = o.calls page :=
      Made.calls_eq (congrArg Life.calls hl)
    cases o with
    | noMemory fd =>
      refine .inl ⟨rfl, fun hlast => ?_⟩
      obtain ⟨-, -, a, ha, -⟩ := lastInit_snoc.mp hlast
      rw [hcalls] at ha
      cases ha
    | noRegisters fd =>
      refine .inl ⟨rfl, fun hlast => ?_⟩
      obtain ⟨-, -, a, ha, hne⟩ := lastInit_snoc.mp hlast
      rw [hcalls] at ha
      exact hne (Option.some.inj ha).symm
    | ready fd fspi iomux ccm =>
      obtain ⟨hfd, hfspi, hiomux, hccm⟩ := ready_kernel hpossible hgrants
      exact .inr ⟨fd, fspi, iomux, ccm, lastInit_snoc.mpr ⟨rfl, hcalls⟩, hpossible,
        ⟨before.life.ctx, rfl⟩, hfd, hfspi, hgrants.2.2.1.aligned, hiomux, hccm⟩
  | deInit =>
    refine .inl ⟨?_, fun hlast => ?_⟩
    · simp only [deInitContext]
      split
      · assumption
      · rfl
    · cases (lastInit_snoc.mp hlast).1

lemma lifecycle_settles {ms : List (Made Process HostAction)} {b : Stage Process HostAction}
    (h : History (lifecycle page) ms b) : Settles page ms b.life := by
  refine lifecycle_induction ?_ ?_ (fun _ _ _ hstep => hstep.settles) h
  · intro k hk
    refine .inl ⟨rfl, ?_⟩
    rintro ⟨m, hm, -⟩
    cases hm
  · rintro ms l k (hl | ⟨fd, fspi, iomux, ccm, hl⟩) hmove
    · exact .inl hl
    · exact .inr ⟨fd, fspi, iomux, ccm, hl.last, hl.possible, hl.context,
        (hmove.2 fd).mpr hl.fd_open, hl.fspi_live.elsewhere hmove, hl.iomux_aligned,
        fun hne => (hl.iomux_live hne).elsewhere hmove,
        fun hne => (hl.ccm_live hne).elsewhere hmove⟩

lemma Ready.initDone {ms : List (Made Process HostAction)} {l : Life} {fd : Int}
    {fspi iomux ccm : Nat} (h : Ready page ms l fd fspi iomux ccm) : l.ctx.initDone = true := by
  obtain ⟨ctx, hctx⟩ := h.context
  rw [hctx]
  rfl

end QspiTool
