import Mathlib.Data.List.Forall2
import QspiTool.Device.FlagRule
import QspiTool.Device.Freedom
import QspiTool.Device.Lut

/-!
# Sessions come to an end

A session is a list of public calls on one context.  While the device answers every wait at some
time, a fair session does not hang: it returns when each call is one the driver accepts, with the
results below, and stops at an assertion otherwise.  Which calls are accepted does not depend on
the device.
-/

namespace QspiTool

open Words Interaction Machine

variable {permits : Permits} {fspi : Nat} {α : Type}

/-! ## Accepted calls -/

/-- The assertions of a public call hold: a table of at most 512 bytes at an address, a transfer
whose size has at most 1024 as its low 16 bits, a read into a buffer of some size. -/
def Call.Accepted : Call → Prop
  | .init | .deInit | .busy => True
  | .setupLut lut len => lut ≠ 0 ∧ len ≤ 512
  | .transfer kind _ buffer size =>
      (kind.cmdType = .read → buffer ≠ 0 ∧ 0 < size.toNat) ∧ size.toNat % 65536 ≤ 1024

instance (call : Call) : Decidable call.Accepted := by
  cases call <;> unfold Call.Accepted <;> infer_instance

/-- What a call returns. -/
def Call.Returns : Call → Option Int → Prop
  | .init, r | .deInit, r | .setupLut _ _, r => r = none
  | .busy, r => r = some (-1) ∨ r = some 0 ∨ r = some 1
  | .transfer _ _ _ _, r => r = some 0

/-- Calls that are neither `QSPI_Init` nor `QSPI_DeInit`. -/
def Ordinary (calls : List Call) : Prop := ∀ call ∈ calls, call ≠ .init ∧ call ≠ .deInit

/-! ## What a call can do -/

/-- Every wait is for a flag of `INTR`. -/
def Waiting (fspi : Nat) (d : Head bus) : Prop :=
  ∀ w, d = .poll w → ∃ flag < 32, w = ⟨fspi + Reg.intr, flag⟩

lemma waiting_abort : Waiting fspi .abort := by
  rintro w ⟨⟩

lemma waiting_of_transferHead {d : Head bus} (h : TransferHead fspi d) : Waiting fspi d := by
  rintro w rfl
  exact transferHead_poll h

lemma waiting_of_lutHead {d : Head bus} (h : LutHead fspi d) : Waiting fspi d := by
  rintro w rfl
  cases h

lemma call_waiting (ctx : QspiContext) {call : Call} (hcall : call ≠ .init ∧ call ≠ .deInit) :
    (call.run ctx).Every (Waiting ctx.flexspi) := by
  cases call with
  | init => exact absurd rfl hcall.1
  | deInit => exact absurd rfl hcall.2
  | setupLut lut len =>
    refine ((qspiSetupLut_every ctx lut len).mono fun d hd => ?_).bind fun _ => trivial
    rcases hd with hd | ⟨rfl, -⟩
    · exact waiting_of_lutHead hd
    · exact waiting_abort
  | busy =>
    exact ((qspiBusy_every ctx).mono fun _ hd => waiting_of_transferHead (.flag hd)).bind
      fun _ => trivial
  | transfer kind addr buffer size =>
    refine ((kind.run_every ctx addr buffer size).mono fun d hd => ?_).bind fun _ => trivial
    rcases hd with hd | rfl
    · exact waiting_of_transferHead hd
    · exact waiting_abort

/-- No assertion of an accepted call fails. -/
lemma call_asserts {ctx : QspiContext} (hctx : ctx.flexspi ≠ 0) {call : Call}
    (hcall : call ≠ .init ∧ call ≠ .deInit) (haccepted : call.Accepted) :
    (call.run ctx).Every (· ≠ .abort) := by
  have htransfer : ∀ d : Head bus, TransferHead ctx.flexspi d → d ≠ .abort := by
    rintro d hd rfl
    exact not_transferHead_abort hd
  cases call with
  | init => exact absurd rfl hcall.1
  | deInit => exact absurd rfl hcall.2
  | setupLut lut len =>
    refine ((qspiSetupLut_every ctx lut len).mono ?_).bind fun _ => trivial
    rintro d hd rfl
    exact not_lutHead_abort (hd.resolve_right fun hn => hn.2 ⟨hctx, haccepted⟩)
  | busy =>
    exact ((qspiBusy_every ctx).mono fun d hd => htransfer d (.flag hd)).bind fun _ => trivial
  | transfer kind addr buffer size =>
    obtain ⟨hbuffer, hsize⟩ := haccepted
    have haccepted' : (kind.descriptor addr buffer size).Accepted := by
      refine ⟨by cases kind <;> rintro ⟨⟩, ?_⟩
      simpa [Transfer.descriptor] using hsize
    have hlogged : (loggedTransfer ctx.flexspi (kind.descriptor addr buffer size)).Every
        (· ≠ .abort) :=
      (loggedTransfer_every _).mono fun d hd =>
        htransfer d (hd.resolve_right fun hn => hn.2 haccepted')
    refine Prog.Every.bind ?_ fun _ => trivial
    cases kind with
    | write lutIndex => exact hlogged
    | read => exact ((Prog.every_check _).mpr (.inl (hbuffer rfl))).bind fun _ => hlogged
    | readSample => exact ((Prog.every_check _).mpr (.inl (hbuffer rfl))).bind fun _ => hlogged

/-! ## What a call that returns tells -/

/-- A call gives its context back, with its result. -/
lemma call_returns (permits : Permits) (ctx : QspiContext) {call : Call}
    (hcall : call ≠ .init ∧ call ≠ .deInit) :
    (flexspi permits ctx.flexspi).Triple noGuarantee (fun _ _ => True) (call.run ctx)
      fun r _ _ => r.1 = ctx ∧ call.Returns r.2 := by
  have hret : ∀ r, call.Returns r → (flexspi permits ctx.flexspi).Triple noGuarantee
      (fun _ _ => True) (.ret (ctx, r) : Driver (QspiContext × Option Int))
      fun r _ _ => r.1 = ctx ∧ call.Returns r.2 :=
    fun r hr => Triple.ret (stable_const _) fun _ _ _ => ⟨rfl, hr⟩
  cases call with
  | init => exact absurd rfl hcall.1
  | deInit => exact absurd rfl hcall.2
  | setupLut lut len => exact Triple.bind (Triple.any _) fun _ => hret none rfl
  | busy =>
    have hbusy : (flexspi permits ctx.flexspi).Triple noGuarantee (fun _ _ => True)
        (qspiBusy ctx) fun r _ _ => r = -1 ∨ r = 0 ∨ r = 1 := by
      have hvalue : ∀ r : Int, r = -1 ∨ r = 0 ∨ r = 1 →
          (flexspi permits ctx.flexspi).Triple noGuarantee (fun _ _ => True)
            (.ret r : Driver Int) fun r _ _ => r = -1 ∨ r = 0 ∨ r = 1 :=
        fun r hr => Triple.ret (stable_const _) fun _ _ _ => hr
      unfold qspiBusy
      split
      · exact hvalue 1 (.inr (.inr rfl))
      refine Triple.bind (Triple.any _) fun _ => Triple.bind (Triple.any _) fun _ => ?_
      refine Triple.bind (Triple.any _) fun _ => Triple.bind (Triple.any _) fun _ => ?_
      refine Triple.bind (Triple.any _) fun intr => ?_
      split
      · exact hvalue (-1) (.inl rfl)
      · split
        · exact Triple.bind (Triple.any _) fun _ => hvalue 0 (.inr (.inl rfl))
        · exact hvalue 1 (.inr (.inr rfl))
    refine Triple.bind hbusy fun r s t hr => hret (some r) ?_ s t trivial
    exact hr.imp (congrArg some) fun h => h.imp (congrArg some) (congrArg some)
  | transfer kind addr buffer size =>
    refine Triple.bind (run_result kind ctx addr buffer size) fun r s t hr => ?_
    exact hret (some r) (congrArg some hr) s t trivial

/-- What does not speak of the state holds at the end. -/
lemma told {c : Prop} (p : Driver α) :
    (flexspi permits fspi).Triple noGuarantee (fun _ _ => c) p fun _ _ _ => c :=
  fun s t hc => ((Triple.any (P := fun _ _ => True) p).post fun _ _ _ _ => hc) s t trivial

/-- So does what is asserted at the beginning. -/
lemma asserted {c : Prop} [Decidable c] (p : Unit → Driver α) :
    (flexspi permits fspi).Triple noGuarantee (fun _ _ => True) (check c >>= p)
      fun _ _ _ => c :=
  Triple.bind (Triple.check stable_true fun _ _ _ _ => trivial) fun a =>
    (told (p a)).pre fun _ _ hs => hs.2

lemma loggedTransfer_accepted (kind : Transfer) (addr : Word) (buffer : Nat)
    (size : BitVec 64) :
    (flexspi permits fspi).Triple noGuarantee (fun _ _ => True)
      (loggedTransfer fspi (kind.descriptor addr buffer size))
      fun _ _ _ => size.toNat % 65536 ≤ 1024 := by
  have hmove : (flexspi permits fspi).Triple noGuarantee (fun _ _ => True)
      (moveData fspi (kind.descriptor addr buffer size))
      fun _ _ _ => (size.setWidth 16).toNat ≤ 32 * 32 := by
    cases kind with
    | write lutIndex => exact asserted _
    | read => exact asserted _
    | readSample => exact asserted _
  rw [BitVec.toNat_setWidth] at hmove
  refine Triple.bind (Q := fun _ _ _ => size.toNat % 65536 ≤ 1024) ?_ fun _ => told _
  refine Triple.bind (Triple.any _) fun _ => Triple.bind (Triple.any _) fun _ => ?_
  exact Triple.bind hmove fun _ => told _

/-- Only accepted calls return. -/
lemma call_accepted (permits : Permits) (ctx : QspiContext) (call : Call) :
    (flexspi permits ctx.flexspi).Triple noGuarantee (fun _ _ => True) (call.run ctx)
      fun _ _ _ => call.Accepted := by
  cases call with
  | init => exact (told _).post fun _ _ _ _ => trivial
  | deInit => exact (told _).post fun _ _ _ _ => trivial
  | busy => exact (told _).post fun _ _ _ _ => trivial
  | setupLut lut len =>
    have hsetup : (flexspi permits ctx.flexspi).Triple noGuarantee (fun _ _ => True)
        (qspiSetupLut ctx lut len) fun _ _ _ => lut ≠ 0 ∧ len ≤ 512 := by
      refine Triple.bind (Triple.any _) fun _ => ?_
      refine Triple.bind (Triple.check stable_true fun _ _ _ _ => trivial) fun _ => ?_
      apply Triple.of_pure
      intro hlut
      exact (asserted _).post fun _ _ _ hlen => ⟨hlut, hlen⟩
    exact Triple.bind hsetup fun _ => told _
  | transfer kind addr buffer size =>
    have hchecked : ∀ xfer, (flexspi permits ctx.flexspi).Triple noGuarantee (fun _ _ => True)
        (loggedTransfer ctx.flexspi xfer) (fun _ _ _ => size.toNat % 65536 ≤ 1024) →
        (flexspi permits ctx.flexspi).Triple noGuarantee (fun _ _ => True)
          (check (buffer ≠ 0 ∧ 0 < size.toNat) >>= fun _ => loggedTransfer ctx.flexspi xfer)
          fun _ _ _ => (buffer ≠ 0 ∧ 0 < size.toNat) ∧ size.toNat % 65536 ≤ 1024 := by
      intro xfer hxfer
      refine Triple.bind (Triple.check stable_true fun _ _ _ _ => trivial) fun _ => ?_
      apply Triple.of_pure
      intro hbuffer
      exact hxfer.post fun _ _ _ hsize => ⟨hbuffer, hsize⟩
    refine Triple.bind (Q := fun _ _ _ => (Call.transfer kind addr buffer size).Accepted) ?_
      fun _ => told _
    cases kind with
    | write lutIndex =>
      exact (loggedTransfer_accepted (.write lutIndex) addr buffer size).post
        fun _ _ _ hsize => ⟨by rintro ⟨⟩, hsize⟩
    | read =>
      exact (hchecked _ (loggedTransfer_accepted .read addr buffer size)).post
        fun _ _ _ hs => ⟨fun _ => hs.1, hs.2⟩
    | readSample =>
      exact (hchecked _ (loggedTransfer_accepted .readSample addr buffer size)).post
        fun _ _ _ hs => ⟨fun _ => hs.1, hs.2⟩

/-! ## What a session that returns tells -/

/-- What each call guarantees and tells, the session does. -/
lemma session_triple {G : Head bus → Bus → BusTrace → Prop} {ctx : QspiContext}
    {R : Call → Option Int → Prop} {calls : List Call}
    (hcalls : ∀ call ∈ calls, (flexspi permits ctx.flexspi).Triple G (fun _ _ => True)
      (call.run ctx) fun r _ _ => r.1 = ctx ∧ R call r.2) :
    (flexspi permits ctx.flexspi).Triple G (fun _ _ => True) (session ctx calls)
      fun rs _ _ => List.Forall₂ R calls rs := by
  induction calls with
  | nil => exact Triple.ret (stable_const _) fun _ _ _ => .nil
  | cons call calls ih =>
    have hrest := ih fun call hcall => hcalls call (List.mem_cons_of_mem _ hcall)
    refine Triple.bind (hcalls call List.mem_cons_self) fun r => ?_
    obtain ⟨ctx', v⟩ := r
    apply (Triple.of_pure (P := fun _ _ => True) (c := ctx' = ctx ∧ R call v) ?_).pre
    · exact fun _ _ hs => ⟨trivial, hs⟩
    · rintro ⟨rfl, hv⟩
      refine Triple.bind hrest fun rs => ?_
      exact Triple.ret (stable_const _) fun _ _ hrs => .cons hv hrs

lemma call_heads (permits : Permits) {ctx : QspiContext} {call : Call}
    {R : Call → Option Int → Prop} {φ : Head bus → Prop} (hφ : (call.run ctx).Every φ)
    (hR : (flexspi permits ctx.flexspi).Triple noGuarantee (fun _ _ => True) (call.run ctx)
      fun r _ _ => r.1 = ctx ∧ R call r.2) :
    (flexspi permits ctx.flexspi).Triple (fun d _ _ => φ d) (fun _ _ => True) (call.run ctx)
      fun r _ _ => r.1 = ctx ∧ R call r.2 :=
  (hR.every hφ).allow fun _ _ _ hd => hd.2

/-- A session waits for flags of `INTR` only, and its calls, once it has returned, were accepted
and gave their results. -/
lemma session_heads (permits : Permits) (ctx : QspiContext) {calls : List Call}
    (hcalls : Ordinary calls) :
    (flexspi permits ctx.flexspi).Triple (fun d _ _ => Waiting ctx.flexspi d) (fun _ _ => True)
      (session ctx calls)
      fun rs _ _ => List.Forall₂ (fun call r => call.Accepted ∧ call.Returns r) calls rs := by
  refine session_triple fun call hmem => ?_
  refine call_heads permits (R := fun call r => call.Accepted ∧ call.Returns r)
    (call_waiting ctx (hcalls call hmem)) ?_
  have hboth := (call_returns permits ctx (hcalls call hmem)).and (call_accepted permits ctx call)
  refine (hboth.allow fun _ _ _ _ => trivial).conseq (fun _ _ _ => ⟨trivial, trivial⟩) ?_
  exact fun r s t hr => ⟨hr.1.1, hr.2, hr.1.2⟩

/-- No assertion fails in a session of accepted calls. -/
lemma session_asserts (permits : Permits) {ctx : QspiContext} (hctx : ctx.flexspi ≠ 0)
    {calls : List Call} (hcalls : Ordinary calls) (haccepted : ∀ call ∈ calls, call.Accepted) :
    (flexspi permits ctx.flexspi).Triple (fun d _ _ => d ≠ .abort) (fun _ _ => True)
      (session ctx calls) fun rs _ _ => List.Forall₂ Call.Returns calls rs :=
  session_triple fun call hmem => call_heads permits
    (call_asserts hctx (hcalls call hmem) (haccepted call hmem))
    (call_returns permits ctx (hcalls call hmem))

/-! ## Runs in which the device answers -/

/-- The program gets its turns, and the device raises each flag the program waits for at some
time. -/
structure Answering {c₀ : Config bus Bus DeviceAction α} (r : (flexspi permits fspi).Run c₀) :
    Prop where
  turns : ∀ n, ∃ m, n ≤ m ∧ r.tick m = .prog
  answered : ∀ n, ∀ flag < 32, (r.cfg n).prog.head = .poll ⟨fspi + Reg.intr, flag⟩ →
    ∃ m, n ≤ m ∧ (r.cfg m).state.dev.intr.getLsbD flag = true

/-- A raised flag stays up until the program's turn, so such a run is fair. -/
lemma Answering.fair {p : Driver α} {P : Bus → BusTrace → Prop} {Q : α → Bus → BusTrace → Prop}
    (hp : (flexspi permits fspi).Triple (fun d _ _ => Waiting fspi d) P p Q) {s : Bus}
    {t : BusTrace} (hP : P s t) {r : (flexspi permits fspi).Run ⟨p, s, t⟩} (h : Answering r) :
    r.Fair := by
  apply r.fair_of_answers (I := fun w s => ∃ flag < 32, w = ⟨fspi + Reg.intr, flag⟩ ∧
    s.dev.intr.getLsbD flag = true)
  · rintro w a s s' hact ⟨flag, hflag, hw, hraised⟩
    exact ⟨flag, hflag, hw, (act_spec hact).2.2.2.1 flag hraised⟩
  · rintro w s ⟨flag, hflag, rfl, hraised⟩
    simp only [exec_load, decide_eq_true_eq]
    rw [and_bit_ne_zero _ hflag]
    exact hraised
  · exact h.turns
  · intro n w hw
    have hdone : (r.cfg n).prog.head ≠ .done := by
      rw [hw]
      rintro ⟨⟩
    obtain ⟨flag, hflag, rfl⟩ := hp.guarantee hP (r.reach n) hdone w hw
    obtain ⟨m, hm, hraised⟩ := h.answered n flag hflag hw
    exact ⟨m, hm, flag, hflag, rfl, hraised⟩

/-- **A session that is answered comes to its end**, whatever else the device does: it returns,
with the results of its calls, exactly when every call is accepted, and otherwise an assertion
stops it.  The only way to hang is a flag that is awaited and never raised. -/
theorem session_ends {ctx : QspiContext} (hctx : ctx.flexspi ≠ 0) {calls : List Call}
    (hcalls : Ordinary calls) {s : Bus} {t : BusTrace}
    {r : (flexspi permits ctx.flexspi).Run ⟨session ctx calls, s, t⟩} (h : Answering r) :
    ((∃ n rs, (r.cfg n).prog = .ret rs ∧ List.Forall₂ Call.Returns calls rs) ↔
      ∀ call ∈ calls, call.Accepted) ∧
    ((∃ n, (r.cfg n).prog = .abort) ↔ ∃ call ∈ calls, ¬ call.Accepted) := by
  have hheads := session_heads permits ctx hcalls
  have hreturned : ∀ n rs, (r.cfg n).prog = .ret rs →
      (∀ call ∈ calls, call.Accepted) ∧ List.Forall₂ Call.Returns calls rs := by
    intro n rs hret
    have hreach := r.reach n
    generalize r.cfg n = c at hret hreach
    obtain ⟨p, s', t'⟩ := c
    obtain rfl := hret
    exact (List.forall₂_and_left _ _).mp (hheads.returns trivial hreach)
  have hasserts : (∀ call ∈ calls, call.Accepted) → ∀ n, (r.cfg n).prog ≠ .abort := by
    intro hall n habort
    have hguarantee := (session_asserts permits hctx hcalls hall).guarantee trivial (r.reach n)
    rw [habort] at hguarantee
    exact hguarantee (by rintro ⟨⟩) rfl
  have hends : (∃ n rs, (r.cfg n).prog = .ret rs) ∨ ∃ n, (r.cfg n).prog = .abort := by
    obtain ⟨n, hdone | habort⟩ := (h.fair hheads trivial).ends
    · exact .inl ⟨n, Prog.exists_ret_of_head hdone⟩
    · exact .inr ⟨n, Prog.eq_abort_of_head habort⟩
  by_cases hall : ∀ call ∈ calls, call.Accepted
  · have hnot : ¬ ∃ n, (r.cfg n).prog = .abort := by
      rintro ⟨n, habort⟩
      exact hasserts hall n habort
    obtain ⟨n, rs, hret⟩ := hends.resolve_right hnot
    refine ⟨iff_of_true ⟨n, rs, hret, (hreturned n rs hret).2⟩ hall, iff_of_false hnot ?_⟩
    rintro ⟨call, hmem, hrejected⟩
    exact hrejected (hall call hmem)
  · have hnot : ¬ ∃ n rs, (r.cfg n).prog = .ret rs := by
      rintro ⟨n, rs, hret⟩
      exact hall (hreturned n rs hret).1
    refine ⟨iff_of_false ?_ hall, iff_of_true (hends.resolve_left hnot) ?_⟩
    · rintro ⟨n, rs, hret, -⟩
      exact hnot ⟨n, rs, hret⟩
    · simpa only [not_forall, exists_prop] using hall

/-- The schedule in which the device raises every flag before each turn of the program. -/
def raisingAll (n : Nat) : Tick DeviceAction :=
  if n % 2 = 0 then .env (.raise (BitVec.allOnes 32)) else .prog

/-- The device that may do anything can answer every program. -/
lemma exists_answering (p : Driver α) (s : Bus) (t : BusTrace) :
    ∃ r : (flexspi anyAction fspi).Run ⟨p, s, t⟩, Answering r := by
  have hact : ∀ a s, (flexspi anyAction fspi).act a s = some { s with dev := s.dev.perform a } :=
    fun a s => act_of_permits fspi rfl
  have hraise : ∀ n, raisingAll (2 * n) = .env (.raise (BitVec.allOnes 32)) := fun n =>
    if_pos (Nat.mul_mod_right 2 n)
  have hturn : ∀ n, raisingAll (2 * n + 1) = .prog := fun n => if_neg (by omega)
  refine ⟨Run.ofSchedule raisingAll ⟨p, s, t⟩ ?_, ⟨fun n => ⟨2 * n + 1, by omega, hturn n⟩, ?_⟩⟩
  · intro n a _ s hnone
    rw [hact] at hnone
    cases hnone
  · intro n flag hflag _
    refine ⟨2 * n + 1, by omega, ?_⟩
    simp [Run.ofSchedule, follow, hraise, step, hact, Controller.perform, hflag,
      -BitVec.reduceAllOnes]

/-- A table, a write and a read, answered. -/
theorem session_ends_transfers :
    ∃ r : (flexspi anyAction 4096).Run ⟨session readyContext [.setupLut 0x40 20,
        .transfer (.write 0#8) 0xCAFE#32 0x80 1024#64, .transfer .read 0#32 0x800 7#64],
        ⟨Controller.reset, fun _ => 0#8⟩, []⟩,
      ∃ n rs, (r.cfg n).prog = .ret rs := by
  obtain ⟨r, hanswers⟩ := exists_answering (session readyContext [.setupLut 0x40 20,
    .transfer (.write 0#8) 0xCAFE#32 0x80 1024#64, .transfer .read 0#32 0x800 7#64])
    ⟨Controller.reset, fun _ => 0#8⟩ []
  have hends := session_ends (by decide) (by simp [Ordinary]) hanswers
  obtain ⟨n, rs, hret, -⟩ := hends.1.mpr (by decide)
  exact ⟨r, n, rs, hret⟩

end QspiTool
