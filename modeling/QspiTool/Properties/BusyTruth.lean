import QspiTool.Device.FlagRule

/-!
# What `QSPI_Busy` answers after a transfer

`QSPI_Busy` takes a set bit 0 for an idle controller.  But bit 0 is a one-shot flag, and the last
store of `transfer_blocking` has already cleared it: between transfers nothing raises it again, so
every `QSPI_Busy` after a transfer answers 1.
-/

namespace QspiTool

open Words Interaction Machine

variable {fspi : Nat}

/-! ## The device -/

/-- The device that flags no error, and raises bit 0 when a running command completes. -/
def commandDevice : Permits := fun d a =>
  match a with
  | .raise flags => !flags.getLsbD cmdDone && !flags.getLsbD cmdError
  | .complete => d.running
  | .receive _ | .setStatus _ _ => true

/-- While no command runs the device raises neither bit 0 nor bit 3; bit 3 it never raises. -/
lemma commandDevice_spec {s s' : Bus} {a : DeviceAction}
    (h : (flexspi commandDevice fspi).act a s = some s') :
    s'.dev.intr.getLsbD cmdError = s.dev.intr.getLsbD cmdError ∧
      (s.dev.running = false → s'.dev.running = false ∧
        s'.dev.intr.getLsbD cmdDone = s.dev.intr.getLsbD cmdDone) ∧
      (s'.dev.running = true → s.dev.running = true ∧
        s'.dev.intr.getLsbD cmdDone = s.dev.intr.getLsbD cmdDone) := by
  obtain ⟨hpermits, -⟩ := act_spec h
  obtain rfl := act_eq h
  cases a with
  | raise flags =>
    simp only [commandDevice, Bool.and_eq_true, Bool.not_eq_true'] at hpermits
    obtain ⟨hdone, herror⟩ := hpermits
    refine ⟨?_, fun hrunning => ⟨hrunning, ?_⟩, fun hrunning => ⟨hrunning, ?_⟩⟩
    · change (s.dev.intr ||| flags).getLsbD cmdError = _
      rw [BitVec.getLsbD_or, herror, Bool.or_false]
    · change (s.dev.intr ||| flags).getLsbD cmdDone = _
      rw [BitVec.getLsbD_or, hdone, Bool.or_false]
    · change (s.dev.intr ||| flags).getLsbD cmdDone = _
      rw [BitVec.getLsbD_or, hdone, Bool.or_false]
  | complete =>
    have hrunning : s.dev.running = true := hpermits
    refine ⟨?_, fun hidle => ?_, fun hrun => ?_⟩
    · change (s.dev.intr ||| bit cmdDone).getLsbD cmdError = _
      rw [BitVec.getLsbD_or, show (bit cmdDone).getLsbD cmdError = false by decide, Bool.or_false]
    · rw [hrunning] at hidle
      cases hidle
    · cases hrun
  | receive v => exact ⟨rfl, fun h => ⟨h, rfl⟩, fun h => ⟨h, rfl⟩⟩
  | setStatus off v => exact ⟨rfl, fun h => ⟨h, rfl⟩, fun h => ⟨h, rfl⟩⟩

/-! ## The invariants -/

/-- No command runs. -/
def Still : Assertion bus Bus DeviceAction := fun s _ => s.dev.running = false

/-- No command runs, and neither bit 0 nor bit 3 is set. -/
def Cleared : Assertion bus Bus DeviceAction := fun s _ =>
  s.dev.running = false ∧ s.dev.intr.getLsbD cmdDone = false ∧
    s.dev.intr.getLsbD cmdError = false

/-- Bit 0 says that the command has completed, and bit 3 is clear. -/
def DoneMeansDone : Assertion bus Bus DeviceAction := fun s _ =>
  (s.dev.intr.getLsbD cmdDone = true → s.dev.running = false) ∧
    s.dev.intr.getLsbD cmdError = false

lemma stable_still : (flexspi commandDevice fspi).Stable Still :=
  fun _ _ _ _ h hact => ((commandDevice_spec hact).2.1 h).1

lemma stable_cleared : (flexspi commandDevice fspi).Stable Cleared := by
  rintro a s s' t ⟨hstill, hdone, herror⟩ hact
  obtain ⟨herror', hidle, -⟩ := commandDevice_spec hact
  exact ⟨(hidle hstill).1, (hidle hstill).2.trans hdone, herror'.trans herror⟩

lemma stable_doneMeansDone : (flexspi commandDevice fspi).Stable DoneMeansDone := by
  rintro a s s' t ⟨hdone, herror⟩ hact
  obtain ⟨herror', -, hbusy⟩ := commandDevice_spec hact
  refine ⟨fun hset => ?_, herror'.trans herror⟩
  by_contra hrunning
  obtain ⟨hrun, hsame⟩ := hbusy (by simpa using hrunning)
  rw [hdone (hsame ▸ hset)] at hrun
  cases hrun

/-- An invariant of the flags and of the command survives the accesses away from them. -/
lemma away_of_flags {P : Assertion bus Bus DeviceAction}
    (hstable : (flexspi commandDevice fspi).Stable P)
    (hP : ∀ s s' t t', s'.dev.intr = s.dev.intr → s'.dev.running = s.dev.running →
      P s t → P s' t') :
    AwayInvariant commandDevice fspi noGuarantee P where
  stable := hstable
  away _ s t ho hs := ⟨trivial, hP s _ t _ (exec_away ho s).1 (exec_away ho s).2 hs⟩

lemma still_invariant : AwayInvariant commandDevice fspi noGuarantee Still :=
  away_of_flags stable_still fun _ _ _ _ _ hrunning h => hrunning.trans h

lemma cleared_invariant : AwayInvariant commandDevice fspi noGuarantee Cleared := by
  refine away_of_flags stable_cleared fun s s' _ _ hintr hrunning h => ?_
  rw [Cleared, hintr, hrunning]
  exact h

lemma doneMeansDone_invariant : FlagInvariant commandDevice fspi noGuarantee DoneMeansDone where
  toAwayInvariant := by
    refine away_of_flags stable_doneMeansDone fun s s' _ _ hintr hrunning h => ?_
    rw [DoneMeansDone, hintr, hrunning]
    exact h
  wait flag hflag :=
    waitBit_triple (by rcases hflag with rfl | rfl <;> decide) stable_doneMeansDone
      stable_doneMeansDone (fun _ _ _ => trivial) (fun _ _ hs _ => hs) fun _ _ hs _ => hs
  rewrite m _ _ := by
    refine Triple.bind (load_triple (Q := fun _ => DoneMeansDone) stable_doneMeansDone
      (fun _ => stable_doneMeansDone) (fun _ _ _ => trivial) fun _ _ hs => hs) fun v => ?_
    refine store_triple stable_doneMeansDone stable_doneMeansDone (fun _ _ _ => trivial) ?_
    rintro s t ⟨hdone, herror⟩
    -- a store to `INTR` only clears flags
    have hclear : ∀ n < 32, (s.dev.store Reg.intr (v ||| m)).intr.getLsbD n = true →
        s.dev.intr.getLsbD n = true := by
      intro n hn hset
      rw [Controller.store_intr, getLsbD_and_not _ _ hn, Bool.and_eq_true] at hset
      exact hset.1
    refine ⟨fun hset => ?_, ?_⟩
    · exact (s.dev.store_running _ (by decide)).trans (hdone (hclear cmdDone (by decide) hset))
    · by_contra hset
      rw [hclear cmdError (by decide) (by simpa using hset)] at herror
      cases herror

/-- While no command runs, a rewrite of `INTR` leaves bits 0 and 3 clear. -/
lemma rewrite_cleared (m : Word) :
    (flexspi commandDevice fspi).Triple noGuarantee Still (orReg (fspi + Reg.intr) m)
      fun _ => Cleared := by
  have hmid : ∀ v : Word, (flexspi commandDevice fspi).Stable fun s _ =>
      s.dev.running = false ∧ v.getLsbD cmdDone = s.dev.intr.getLsbD cmdDone ∧
        v.getLsbD cmdError = s.dev.intr.getLsbD cmdError := by
    rintro v a s s' t ⟨hstill, hdone, herror⟩ hact
    obtain ⟨herror', hidle, -⟩ := commandDevice_spec hact
    exact ⟨(hidle hstill).1, hdone.trans (hidle hstill).2.symm, herror.trans herror'.symm⟩
  refine Triple.bind (load_triple stable_still hmid (fun _ _ _ => trivial)
    fun s t hs => ⟨hs, rfl, rfl⟩) fun v => ?_
  refine store_triple (hmid v) stable_cleared (fun _ _ _ => trivial) ?_
  rintro s t ⟨hstill, hdone, herror⟩
  have hclear : ∀ n < 32, v.getLsbD n = s.dev.intr.getLsbD n →
      (s.dev.store Reg.intr (v ||| m)).intr.getLsbD n = false := by
    intro n hn hv
    rw [Controller.store_intr, getLsbD_and_not _ _ hn, BitVec.getLsbD_or, hv]
    cases s.dev.intr.getLsbD n <;> simp
  exact ⟨(s.dev.store_running _ (by decide)).trans hstill, hclear cmdDone (by decide) hdone,
    hclear cmdError (by decide) herror⟩

/-! ## The calls -/

/-- After a transfer bit 0 is clear: its last acknowledge has cleared it. -/
lemma transferBlocking_cleared (xfer : FlexspiTransfer) :
    (flexspi commandDevice fspi).Triple noGuarantee Still (transferBlocking fspi xfer)
      fun _ => Cleared := by
  have hsetup : (flexspi commandDevice fspi).Triple noGuarantee Still (setupCommand fspi xfer)
      fun _ => Cleared := by
    rw [setupCommand_eq, clearFlags_eq]
    refine Triple.bind (still_invariant.keeps (away_flshcr2 xfer.port)) fun _ => ?_
    refine Triple.bind (Triple.bind (rewrite_cleared 0#32) fun _ =>
      cleared_invariant.keeps clearStatus_away) fun _ => ?_
    exact cleared_invariant.keeps (programCommand_away xfer)
  have htrigger : (flexspi commandDevice fspi).Triple noGuarantee Cleared
      (orReg (fspi + Reg.ipcmd) 1#32) fun _ => DoneMeansDone := by
    refine orReg_core_triple (by decide) (by decide) (by decide) stable_cleared
      stable_doneMeansDone (fun _ _ _ => trivial) (fun _ _ _ hs => hs) fun s t v hs _ => ?_
    have hne : Reg.ipcmd ≠ Reg.intr := by decide
    refine ⟨trivial, fun hset => ?_, ?_⟩
    · simp only [Controller.store, if_neg hne, hs.2.1] at hset
      cases hset
    · simpa [Controller.store, hne] using hs.2.2
  have hwait : (flexspi commandDevice fspi).Triple noGuarantee DoneMeansDone
      (waitBit (fspi + Reg.intr) cmdDone) fun _ => Still :=
    waitBit_triple (by decide) stable_doneMeansDone stable_still (fun _ _ _ => trivial)
      (fun _ _ hs _ => hs) fun _ _ hs hset => hs.1 hset
  refine Triple.bind hsetup fun _ => Triple.bind htrigger fun _ => ?_
  refine Triple.bind (doneMeansDone_invariant.moveData (fun _ _ _ => trivial) xfer) fun r => ?_
  refine Triple.of_pure fun hr => ?_
  subst hr
  rw [awaitCommand, if_pos rfl]
  exact Triple.bind hwait fun _ => Triple.bind (rewrite_cleared _) fun _ =>
    Triple.ret stable_cleared fun _ _ => id

lemma load_keeps (fspi : Nat) {P : Assertion bus Bus DeviceAction}
    (hP : (flexspi commandDevice fspi).Stable P) (hload : ∀ s t e, P s t → P s (t ++ [e]))
    (off : Nat) :
    (flexspi commandDevice fspi).Triple noGuarantee P (load (fspi + off)) fun _ => P :=
  load_triple hP (fun _ => hP) (fun _ _ _ => trivial) fun s t hs => hload s t _ hs

lemma loggedTransfer_cleared (xfer : FlexspiTransfer) :
    (flexspi commandDevice fspi).Triple noGuarantee Still (loggedTransfer fspi xfer)
      fun _ => Cleared := by
  have hload := load_keeps fspi stable_cleared fun _ _ _ hs => hs
  exact Triple.bind (transferBlocking_cleared xfer) fun r => Triple.bind (hload _) fun _ =>
    Triple.bind (hload _) fun _ => Triple.bind (hload _) fun _ =>
      Triple.ret stable_cleared fun _ _ => id

lemma run_cleared (kind : Transfer) (ctx : QspiContext) (addr : Word) (buffer : Nat)
    (size : BitVec 64) :
    (flexspi commandDevice ctx.flexspi).Triple noGuarantee Still (kind.run ctx addr buffer size)
      fun _ => Cleared := by
  have hchecked : ∀ (c : Prop) [Decidable c] xfer, (flexspi commandDevice ctx.flexspi).Triple
      noGuarantee Still (check c >>= fun _ => loggedTransfer ctx.flexspi xfer)
      fun _ => Cleared := fun c _ xfer =>
    Triple.bind (Triple.check stable_still fun _ _ _ _ => trivial) fun _ =>
      (loggedTransfer_cleared xfer).pre fun _ _ h => h.1
  cases kind with
  | write lutIndex => exact loggedTransfer_cleared _
  | read => exact hchecked _ _
  | readSample => exact hchecked _ _

/-- With bits 0 and 3 clear `QSPI_Busy` answers 1, and leaves them clear. -/
lemma qspiBusy_cleared {ctx : QspiContext} (hinit : ctx.initDone = true) :
    (flexspi commandDevice ctx.flexspi).Triple noGuarantee Cleared (qspiBusy ctx)
      fun r s t => Cleared s t ∧ r = 1 := by
  have hload := load_keeps ctx.flexspi stable_cleared fun _ _ _ hs => hs
  have hpure : ∀ c : Prop, (flexspi commandDevice ctx.flexspi).Stable
      fun s t => Cleared s t ∧ c := stable_and_const stable_cleared
  have hanswer : (flexspi commandDevice ctx.flexspi).Triple noGuarantee Cleared
      (load (ctx.flexspi + Reg.intr)) fun v s t => Cleared s t ∧
        (v.getLsbD cmdError = false ∧ v.getLsbD cmdDone = false) :=
    load_triple stable_cleared (fun _ => hpure _) (fun _ _ _ => trivial)
      fun s t hs => ⟨hs, hs.2.2, hs.2.1⟩
  rw [qspiBusy, if_neg (by simp [hinit])]
  refine Triple.bind (hload _) fun _ => Triple.bind (hload _) fun _ => ?_
  refine Triple.bind (hload _) fun _ => Triple.bind (hload _) fun _ => ?_
  refine Triple.bind hanswer fun v => Triple.of_pure fun ⟨herror, hdone⟩ => ?_
  rw [if_neg (by rw [and_bit_ne_zero _ (by decide), herror]; decide),
    if_neg (by rw [and_bit_ne_zero _ (by decide), hdone]; decide)]
  exact Triple.ret (hpure _) fun _ _ hs => ⟨hs, rfl⟩

/-- `QSPI_Busy` starts no command. -/
lemma qspiBusy_still (ctx : QspiContext) :
    (flexspi commandDevice ctx.flexspi).Triple noGuarantee Still (qspiBusy ctx)
      fun _ => Still := by
  refine Triple.invariant (qspiBusy_every ctx) stable_still (fun _ _ _ _ _ => trivial) ?_
    fun _ _ _ _ hs => hs
  intro o s t ho hs
  cases ho with
  | loadIntr => exact hs
  | loadStatus h => exact hs
  | storeIntr v =>
    rw [exec_store]
    exact (s.dev.store_running v (by decide)).trans hs
  | @storeStatus off v h =>
    have hne : off ≠ Reg.ipcmd := by
      have := h.1
      simp only [Reg.ipcmd]
      omega
    rw [exec_store]
    exact (s.dev.store_running v hne).trans hs

/-! ## Sequences of calls -/

def Call.isTransfer : Call → Bool
  | transfer _ _ _ _ => true
  | _ => false

/-- What holds between two calls: after a transfer bits 0 and 3 are clear. -/
def Between (after : Bool) : Assertion bus Bus DeviceAction := fun s t =>
  if after = true then Cleared s t else Still s t

lemma stable_between (after : Bool) : (flexspi commandDevice fspi).Stable (Between after) := by
  cases after with
  | false => exact stable_still
  | true => exact stable_cleared

lemma between_still {after : Bool} {s : Bus} {t : BusTrace} (h : Between after s t) :
    Still s t := by
  cases after with
  | false => exact h
  | true => exact h.1

/-- One call. -/
lemma call_between {ctx : QspiContext} (hinit : ctx.initDone = true) {call : Call}
    (hcall : call = .busy ∨ call.isTransfer = true) (after : Bool) :
    (flexspi commandDevice ctx.flexspi).Triple noGuarantee (Between after) (call.run ctx)
      fun p s t => Between (after || call.isTransfer) s t ∧
        (p.1 = ctx ∧ (call = .busy → after = true → p.2 = some 1)) := by
  have hpure : ∀ (after : Bool) (c : Prop), (flexspi commandDevice ctx.flexspi).Stable
      fun s t => Between after s t ∧ c :=
    fun after => stable_and_const (stable_between after)
  cases call with
  | busy =>
    cases after with
    | false =>
      refine Triple.bind (qspiBusy_still ctx) fun r => Triple.ret (hpure _ _) fun s t hs => ?_
      exact ⟨hs, rfl, fun _ h => nomatch h⟩
    | true =>
      refine Triple.bind (qspiBusy_cleared hinit) fun r => Triple.ret (hpure _ _) fun s t hs => ?_
      exact ⟨hs.1, rfl, fun _ _ => congrArg some hs.2⟩
  | transfer kind addr buffer size =>
    refine Triple.bind ((run_cleared kind ctx addr buffer size).pre fun _ _ => between_still)
      fun r => Triple.ret (hpure _ _) fun s t hs => ?_
    rw [Call.isTransfer, Bool.or_true]
    exact ⟨hs, rfl, fun h => nomatch h⟩
  | init => exact hcall.elim (fun h => nomatch h) fun h => nomatch h
  | deInit => exact hcall.elim (fun h => nomatch h) fun h => nomatch h
  | setupLut lut len => exact hcall.elim (fun h => nomatch h) fun h => nomatch h

/-- A transfer comes before the `i`-th call. -/
def TransferBefore (calls : List Call) (i : Nat) : Prop :=
  ∃ j < i, ∃ call, calls[j]? = some call ∧ call.isTransfer = true

/-- The `i`-th call is a `QSPI_Busy` behind a transfer. -/
def BusyAfterTransfer (calls : List Call) (i : Nat) : Prop :=
  calls[i]? = some .busy ∧ TransferBefore calls i

lemma transferBefore_cons {call : Call} {calls : List Call} {i : Nat} :
    TransferBefore (call :: calls) (i + 1) ↔
      call.isTransfer = true ∨ TransferBefore calls i := by
  constructor
  · rintro ⟨j, hj, call', hget, htransfer⟩
    cases j with
    | zero =>
      obtain rfl : call = call' := by simpa using hget
      exact .inl htransfer
    | succ j => exact .inr ⟨j, by omega, call', by simpa using hget, htransfer⟩
  · rintro (htransfer | ⟨j, hj, call', hget, htransfer⟩)
    · exact ⟨0, by omega, call, rfl, htransfer⟩
    · exact ⟨j + 1, by omega, call', by simpa using hget, htransfer⟩

/-- Every `QSPI_Busy` behind a transfer answers 1. -/
lemma session_answers {ctx : QspiContext} (hinit : ctx.initDone = true) (calls : List Call)
    (hcalls : ∀ call ∈ calls, call = .busy ∨ call.isTransfer = true) (after : Bool) :
    (flexspi commandDevice ctx.flexspi).Triple noGuarantee (Between after) (session ctx calls)
      fun rs _ _ => ∀ i, calls[i]? = some .busy → (after = true ∨ TransferBefore calls i) →
        rs[i]? = some (some 1) := by
  induction calls generalizing after with
  | nil => exact Triple.ret (stable_const _) fun _ _ _ i hget => by simp at hget
  | cons call calls ih =>
    refine Triple.bind (call_between hinit (hcalls call (by simp)) after) fun p => ?_
    refine Triple.of_pure fun ⟨hctx, hanswer⟩ => ?_
    obtain ⟨ctx', r⟩ := p
    obtain rfl : ctx' = ctx := hctx
    refine Triple.bind (ih (fun c hc => hcalls c (by simp [hc])) (after || call.isTransfer))
      fun rs => Triple.ret (stable_const _) fun s t hrest i hget hbefore => ?_
    cases i with
    | zero =>
      obtain rfl : call = .busy := by simpa using hget
      refine congrArg some (hanswer rfl (hbefore.resolve_right ?_))
      rintro ⟨j, hj, -⟩
      omega
    | succ i =>
      refine hrest i (by simpa using hget) ?_
      rw [transferBefore_cons] at hbefore
      rw [Bool.or_eq_true]
      exact or_assoc.mpr hbefore

/-- **When `QSPI_Busy` tells the truth after a transfer.**  In every run of calls of the
transfers and of `QSPI_Busy`, with no command running at its start and no error flagged, the
answers behind a transfer are 0 exactly when there are none. -/
theorem busy_truth_iff (ctx : QspiContext) (hinit : ctx.initDone = true) (calls : List Call)
    (hcalls : ∀ call ∈ calls, call = .busy ∨ call.isTransfer = true) (s : Bus)
    (hstart : s.dev.running = false) {rs : List (Option Int)} {s' : Bus} {t' : BusTrace}
    (hreach : (flexspi commandDevice ctx.flexspi).Reach ⟨session ctx calls, s, []⟩
      ⟨.ret rs, s', t'⟩) :
    (∀ i, BusyAfterTransfer calls i → rs[i]? = some (some 0)) ↔
      ∀ i, ¬ BusyAfterTransfer calls i := by
  have hanswers := (session_answers hinit calls hcalls false).returns hstart hreach
  refine ⟨fun htruth i hbusy => ?_, fun hnone i hbusy => absurd hbusy (hnone i)⟩
  have h := (hanswers i hbusy.1 (.inr hbusy.2)).symm.trans (htruth i hbusy)
  simp at h

/-- `QSPI_Busy` before a write of no bytes, and none behind it. -/
theorem busy_truth_before :
    ∃ rs s' t', (flexspi commandDevice 4096).Reach
        ⟨session readyContext [.busy, .transfer (.write 0#8) 0#32 100 0#64],
          ⟨Controller.reset, fun _ => 0#8⟩, []⟩ ⟨.ret rs, s', t'⟩ ∧
      ∀ i, BusyAfterTransfer [.busy, .transfer (.write 0#8) 0#32 100 0#64] i →
        rs[i]? = some (some 0) := by
  obtain ⟨⟨p, s, t⟩, hreach, htest⟩ : ∃ c, (flexspi commandDevice 4096).Reach
      ⟨session readyContext [.busy, .transfer (.write 0#8) 0#32 100 0#64],
        ⟨Controller.reset, fun _ => 0#8⟩, []⟩ c ∧
      decide (c.prog.value? = some [some 1, some 0]) = true :=
    exists_reach_of_run (timed [(22, .complete)] 6) (by decide +kernel)
  obtain rfl := Prog.eq_ret_of_value? (of_decide_eq_true htest)
  refine ⟨_, s, t, hreach, (busy_truth_iff readyContext rfl _ (by simp [Call.isTransfer]) _ rfl
    hreach).mpr ?_⟩
  rintro i ⟨hget, j, hj, -⟩
  match i with
  | 0 => omega
  | 1 => cases hget
  | i + 2 => cases hget

/-- **A finished command is reported as running**: `QSPI_Busy` behind a write of no bytes answers
1. -/
theorem qspiBusy_reports_running :
    ¬ ∀ (ctx : QspiContext) (calls : List Call) (s : Bus) (rs : List (Option Int)) (s' : Bus)
        (t' : BusTrace), ctx.initDone = true →
      (∀ call ∈ calls, call = .busy ∨ call.isTransfer = true) → s.dev.running = false →
      (flexspi commandDevice ctx.flexspi).Reach ⟨session ctx calls, s, []⟩ ⟨.ret rs, s', t'⟩ →
      ∀ i, BusyAfterTransfer calls i → rs[i]? = some (some 0) := by
  intro hevery
  obtain ⟨⟨p, s, t⟩, hreach, htest⟩ : ∃ c, (flexspi commandDevice 4096).Reach
      ⟨session readyContext [.transfer (.write 0#8) 0#32 100 0#64, .busy],
        ⟨Controller.reset, fun _ => 0#8⟩, []⟩ c ∧
      decide (c.prog.value? = some [some 0, some 1]) = true :=
    exists_reach_of_run (timed [(17, .complete)] 11) (by decide +kernel)
  obtain rfl := Prog.eq_ret_of_value? (of_decide_eq_true htest)
  have htruth := hevery readyContext _ _ _ s t rfl (by simp [Call.isTransfer]) rfl hreach 1
    ⟨rfl, 0, by decide, _, rfl, rfl⟩
  simp at htruth

end QspiTool
