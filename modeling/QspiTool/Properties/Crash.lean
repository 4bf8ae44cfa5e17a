import QspiTool.Properties.Leaks
import QspiTool.Properties.Transparency

/-!
# Crashes

`QSPI_Init` installs a handler for `SIGSEGV` that says so, runs `QSPI_DeInit`, closes the log and
exits.  A crash can come at any access of any call, with a `NULL` buffer or through a mapping that
is gone.  While the calls of `QSPI_Init` alternate with those of `QSPI_DeInit`, the handler accesses
no memory but that of its log, so that it cannot crash again, and leaves nothing of the kernel's
behind.  That its log changes nothing is shown as for the public calls.
-/

namespace QspiTool

open Words Interaction Machine Oracle CText

variable {page : PageSize}

/-! ## Public calls in a process -/

/-- All the public calls, from the zeroed context on, with a `QSPI_Init` only while the context is
not initialised. -/
def driving (page : PageSize) : Setting Process HostAction where
  machine := process page
  Start b := b.ctx = .zero ∧ b.trace = [] ∧ b.state.kernel.Untouched
  Elsewhere s s' := s.kernel.Elsewhere s'.kernel
  Allowed b call := call = .init → b.ctx.initDone = false

/-- Makes no system call. -/
def Calm (d : Head bus) : Prop := ∀ o, d = .call o → ∀ r : o.Res, syscall? (.call o r) = none

lemma Mute.calm {d : Head bus} (h : Mute d) : Calm d := h.2

lemma calm_abort : Calm .abort := by
  rintro o ⟨⟩

lemma call_calm {call : Call} (hcall : call ≠ .init ∧ call ≠ .deInit) (ctx : QspiContext) :
    (call.run ctx).Every Calm := by
  cases call with
  | init => exact absurd rfl hcall.1
  | deInit => exact absurd rfl hcall.2
  | setupLut lut len =>
    refine ((qspiSetupLut_every ctx lut len).mono fun d hd => ?_).bind fun _ => trivial
    rcases hd with hd | ⟨rfl, -⟩
    · exact (mute_of_lutHead hd).calm
    · exact calm_abort
  | busy =>
    exact ((qspiBusy_every ctx).mono fun d hd => (mute_of_flagHead hd).calm).bind
      fun _ => trivial
  | transfer kind addr buffer size =>
    refine ((kind.run_every ctx addr buffer size).mono fun d hd => ?_).bind fun _ => trivial
    rcases hd with hd | rfl
    · exact (mute_of_transferHead hd).calm
    · exact calm_abort

/-- No point of them has changed the kernel or made a system call. -/
lemma calm_reach {α : Type} {p : Driver α} (hp : p.Every Calm) {s : Process} {t : HostTrace}
    {c : Config bus Process HostAction α} (hreach : (process page).Reach ⟨p, s, t⟩ c) :
    c.state.kernel = s.kernel ∧ syscalls c.trace = syscalls t := by
  have hcalls : syscalls c.trace = syscalls t := by
    have htriple : (process page).Triple (fun _ => OnCalls (· = syscalls t))
        (OnCalls (· = syscalls t)) p fun _ => OnCalls (· = syscalls t) := by
      refine Triple.invariant hp (stable_onCalls _) (fun _ _ _ _ hs => hs) ?_ ?_
      · intro o s t' ho hs
        change syscalls (t' ++ _) = syscalls t
        rw [syscalls_snoc, ho o rfl]
        exact (List.append_nil _).trans hs
      · intro w s t' _ hs
        change syscalls (t' ++ _) = syscalls t
        rw [syscalls_snoc]
        exact (List.append_nil _).trans hs
    exact htriple.throughout (fun _ _ _ hs => hs) rfl hreach
  obtain ⟨u, htrace, hkernel, -⟩ := reach_kernel hreach
  rw [htrace, syscalls_append] at hcalls
  rw [List.append_right_eq_self.mp hcalls] at hkernel
  exact ⟨hkernel, by rw [htrace, syscalls_append]; exact hcalls⟩

/-! ## Between two calls -/

/-- Between two calls all is accounted for, and an initialised context holds its descriptor. -/
structure Sound (page : PageSize) (l : Life) : Prop where
  accounted : Accounted page l
  holding : l.Holding

lemma Sound.step {l l' : Life} {call : Call} (h : Sound page l) (hstep : LifeStep page l call l')
    (hcall : call = .init → l.ctx.initDone = false) : Sound page l' := by
  refine ⟨?_, hstep.holding⟩
  cases hstep with
  | init o hpossible hgrants =>
    exact InitOutcome.accounted (h.accounted.down (hcall rfl)) hpossible hgrants
  | deInit => exact h.accounted.deInit

lemma driving_sound {ms : List (Made Process HostAction)} {b : Stage Process HostAction}
    (h : History (driving page) ms b) : Sound page b.life := by
  refine h.invariant (I := fun b => Sound page b.life) ?_ ?_ ?_
  · rintro b ⟨hctx, -, huntouched⟩
    refine ⟨huntouched.accounted, fun hinit => ?_⟩
    simp only [Stage.life, hctx] at hinit
    cases hinit
  · intro b s hb hmove
    exact ⟨hb.accounted.elsewhere hmove, hb.holding⟩
  · intro b b' call r hb hallowed hreach
    by_cases hcall : call = .init ∨ call = .deInit
    · exact hb.step (lifeStep_of_reach hcall hb.holding hreach) hallowed
    · have hother := not_or.mp hcall
      obtain ⟨hkernel, hcalls⟩ := calm_reach (call_calm hother b.ctx) hreach
      have hctx : b'.ctx = b.ctx := (call_context hother b.ctx).returns trivial hreach
      have hlife : b'.life = b.life := by
        simp only [Stage.life]
        rw [hctx, hkernel, hcalls]
      rw [hlife]
      exact hb

/-! ## The handler -/

/-- The next step gives something back to the kernel. -/
def Releases (d : Head bus) : Prop :=
  (∃ a size, d = .call (.munmap a size)) ∨ ∃ fd, d = .call (.close fd)

lemma segfaultSigaction_every (ctx : QspiContext) : (segfaultSigaction ctx).Every Releases := by
  refine Prog.Every.bind ?_ fun _ => trivial
  unfold qspiDeInit
  split
  · trivial
  · exact ⟨.inl ⟨_, _, rfl⟩, fun _ => ⟨.inl ⟨_, _, rfl⟩, fun _ => ⟨.inl ⟨_, _, rfl⟩, fun _ =>
      ⟨.inl ⟨_, _, rfl⟩, fun _ => ⟨.inr ⟨_, rfl⟩, fun _ => trivial⟩⟩⟩⟩⟩

/-- What the handler does when a call has crashed, its log left out. -/
lemma handler_returns {ms : List (Made Process HostAction)} {b : Stage Process HostAction}
    (h : History (driving page) ms b) {call : Call} (hcall : call ≠ .init ∧ call ≠ .deInit)
    {c : Config bus Process HostAction (QspiContext × Option Int)}
    (hc : (process page).Reach ⟨call.run b.ctx, b.state, b.trace⟩ c) {x : Int} {s' : Process}
    {t' : HostTrace}
    (hreach : (process page).Reach ⟨segfaultSigaction b.ctx, c.state, c.trace⟩ ⟨.ret x, s', t'⟩) :
    x = 1 ∧ s'.kernel.Untouched := by
  have hsound := driving_sound h
  obtain ⟨hkernel, hcalls⟩ := calm_reach (call_calm hcall b.ctx) hc
  have hholding : b.ctx.initDone = true → b.ctx.fd ∈ held (syscalls c.trace) := by
    rw [hcalls]
    exact hsound.holding
  have htriple : (process page).Triple Owned (Issued (syscalls c.trace))
      (segfaultSigaction b.ctx) fun v => OnCalls fun ds =>
        v = 1 ∧ ds = syscalls c.trace ++ deInitCalls b.ctx :=
    (qspiDeInit_issued b.ctx hholding).bind fun _ =>
      Triple.ret (stable_onCalls _) fun _ _ hs => ⟨rfl, hs.2⟩
  obtain ⟨rfl, hds⟩ := htriple.returns rfl hreach
  obtain ⟨u, htrace, hkernel', -⟩ := reach_kernel hreach
  dsimp only at htrace hkernel' hds
  rw [htrace, syscalls_append] at hds
  rw [List.append_cancel_left hds, hkernel] at hkernel'
  refine ⟨rfl, ?_⟩
  rw [hkernel']
  apply hsound.accounted.deInit.down
  unfold deInitContext
  split <;> rename_i hdone
  · exact hdone
  · rfl

/-- The account of the handler begins with what its context tells. -/
def handlerTerms (s : Level → Bool) (ctx : QspiContext) (v : Desk) : Terms :=
  ⟨s, .of ctx, v.journal⟩

/-- The handler is the bare one with its log, and what it says is true. -/
lemma segfaultSigaction_follows {s : Level → Bool} {g : Slog} {v : Desk} (hready : LogReady s g v)
    (ctx : QspiContext) (siAddr : Nat) :
    libc.Follows (StopsHonest (handlerTerms s ctx v))
      ((Logged.segfaultSigaction ctx siAddr).run g) (segfaultSigaction ctx)
      (fun r b v' l => r.1 = b ∧ Honestly (handlerTerms s ctx v) v' l) v [] := by
  have hstart : Account (handlerTerms s ctx v) g v [] :=
    ⟨hready, [], [], .nil, (List.append_nil _).symm, [], rfl, .nil⟩
  refine remark_follows hstart rfl trivial fun g₁ v₁ h₁ => ?_
  exact (qspiDeInit_honest ctx).follows_bind h₁ (View.knows_of ctx) fun _ _ _ _ h' _ =>
    destroy_follows h' 1

/-- **A crash leaves nothing behind.**  Wherever a call other than `QSPI_Init` and `QSPI_DeInit`
has come to when the signal arrives, and whatever the logger is then set to: every step of the
handler is one of its log, an `munmap` or a `close`, so that it accesses nothing and fails no
assertion; and when it exits, with `EXIT_FAILURE`, the driver holds no page and no descriptor, and
what the terminal has shown since is the truth.  Its log left out, the handler has the same runs. -/
theorem crash_releases {ms : List (Made Process HostAction)} {b : Stage Process HostAction}
    (h : History (driving page) ms b) {call : Call} (hcall : call ≠ .init ∧ call ≠ .deInit)
    {c : Config bus Process HostAction (QspiContext × Option Int)}
    (hc : (process page).Reach ⟨call.run b.ctx, b.state, b.trace⟩ c) {s : Level → Bool} {g : Slog}
    {v : Desk} (hready : LogReady s g v) (siAddr : Nat) :
    SameRuns (process page) libc Prod.fst ((Logged.segfaultSigaction b.ctx siAddr).run g)
        (segfaultSigaction b.ctx) v ∧
      ∀ a c', ((process page).beside libc).Reach
          ⟨(Logged.segfaultSigaction b.ctx siAddr).run g, (c.state, a, v), []⟩ c' →
        (c'.prog.head = .done ∨ c'.prog.head.Aside ∨
          ∃ d, Releases d ∧ c'.prog.head = d.play stdio) ∧
        ∀ r, c'.prog = .ret r → r.1 = 1 ∧ c'.state.1.kernel.Untouched ∧
          ∃ ms es, Truthful (.of b.ctx) ms (deeds (playOf c'.trace)) ∧
            c'.state.2.2.journal = v.journal ++ es ∧ Displayed s ms es := by
  have hfollows := segfaultSigaction_follows hready b.ctx siAddr
  refine ⟨hfollows.sameRuns stopsHonest_abort fun _ _ _ _ hret => hret.1, fun a c' hc' => ?_⟩
  obtain ⟨q, hreach, hnow⟩ := hfollows.reach (t := []) hc'
  have hhandler := hreach.prepend c.trace
  simp only [playOf, List.filterMap_nil, List.append_nil] at hhandler
  refine ⟨?_, ?_⟩
  · by_cases haside : c'.prog.head.Aside
    · exact .inr (.inl haside)
    have hhead := hnow.head_eq stopsHonest_abort haside
    by_cases hdone : q.head = .done
    · exact .inl (by rw [hhead, hdone]; rfl)
    · exact .inr (.inr ⟨q.head, every_reach (segfaultSigaction_every b.ctx) hhandler hdone, hhead⟩)
  · intro r hr
    rw [hr] at hnow
    obtain ⟨x, rfl, hx, hhonest⟩ := hnow
    obtain ⟨rfl, huntouched⟩ := handler_returns h hcall hc hhandler
    exact ⟨hx, huntouched, hhonest⟩

/-- The address of the buffer word about to be read. -/
def wordRead : Head bus → Option Nat
  | .call (.read32 a) => some a
  | _ => none

lemma head_of_wordRead {d : Head bus} {a : Nat} (h : wordRead d = some a) :
    d = .call (.read32 a) := by
  unfold wordRead at h
  split at h
  · rw [Option.some.inj h]
  · cases h

/-- A `QSPI_Init`, a write from `NULL` that crashes when it reads its buffer, and the handler. -/
def crashes (c : Config bus Process HostAction (QspiContext × Option Int)) : Bool :=
  c.prog.value?.any fun r =>
    ((process smallPage).run (.env (.setValue (BitVec.allOnes 32)) :: List.replicate 24 .prog)
      ⟨(Call.transfer (.write 0#8) 0#32 0 4#64).run r.1, c.state, c.trace⟩).any fun c' =>
        decide (wordRead c'.prog.head = some 0) &&
          (((process smallPage).beside libc).run (List.replicate 9 .prog)
            ⟨(Logged.segfaultSigaction r.1 0).run (initialLogger 0xFF#16),
              (c'.state, Answers.on 2024 5 6 7, .clear), []⟩).any fun c'' => c''.prog.value?.isSome

/-- The buffer is read when the command has already been triggered. -/
theorem crash_releases_null :
    ∃ ms b, History (driving smallPage) ms b ∧
      ∃ c, (process smallPage).Reach
          ⟨(Call.transfer (.write 0#8) 0#32 0 4#64).run b.ctx, b.state, b.trace⟩ c ∧
        c.prog.head = .call (.read32 0) ∧
        ∃ a c', ((process smallPage).beside libc).Reach
            ⟨(Logged.segfaultSigaction b.ctx 0).run (initialLogger 0xFF#16),
              (c.state, a, .clear), []⟩ c' ∧
          c'.prog.head = .done ∧ c'.state.1.kernel.Untouched := by
  obtain ⟨⟨p, s, t⟩, hinit, htest⟩ : ∃ c, (process smallPage).Reach
      ⟨Call.init.run .zero, newProcess 3, []⟩ c ∧ crashes c = true :=
    exists_reach_of_run (initSchedule 3 0x10000 0x20000 0x30000).2 (by decide +kernel)
  obtain ⟨⟨ctx, r⟩, hvalue, htest⟩ := (Option.any_eq_true _ _).mp htest
  obtain rfl := Prog.eq_ret_of_value? hvalue
  obtain ⟨c, hcrash, htest⟩ := (Option.any_eq_true _ _).mp htest
  obtain ⟨hhead, htest⟩ := Bool.and_eq_true_iff.mp htest
  obtain ⟨c', hhandler, hexit⟩ := (Option.any_eq_true _ _).mp htest
  obtain ⟨x, hx⟩ := Option.isSome_iff_exists.mp hexit
  have hret := Prog.eq_ret_of_value? hx
  have hstart : History (driving smallPage) [] (newStage 3) :=
    .start ⟨rfl, rfl, newProcess_untouched 3⟩
  have hhistory : History (driving smallPage) [⟨.init, newStage 3, ⟨ctx, s, t⟩⟩] ⟨ctx, s, t⟩ :=
    .call .init hstart (fun _ => rfl) hinit
  have hother : Call.transfer (.write 0#8) 0#32 0 4#64 ≠ .init ∧
      Call.transfer (.write 0#8) 0#32 0 4#64 ≠ .deInit := by decide
  have hready : LogReady (fun level => (0xFF#16).getLsbD level.number) (initialLogger 0xFF#16)
      .clear := (account_start (fun _ => rfl) ctx).ready
  have hhandler := reach_of_run hhandler
  obtain ⟨-, huntouched, -⟩ := ((crash_releases hhistory hother (reach_of_run hcrash) hready 0).2
    _ _ hhandler).2 x hret
  exact ⟨_, _, hhistory, c, reach_of_run hcrash, head_of_wordRead (of_decide_eq_true hhead),
    _, c', hhandler, by rw [hret]; rfl, huntouched⟩

end QspiTool
