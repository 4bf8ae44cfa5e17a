import QspiTool.Device.Flow
import QspiTool.Interaction.Monitor

/-!
# When the completion event survives

`INTR` is rewritten in every round of both loops, and each rewrite stores back what was read:
if the command completes before the last of them has loaded `INTR`, the rewrite clears bit 0
and the final wait never ends.  A completion survives in the runs in which no load of `INTR`
sees it before the final wait does; only a transfer without data has no other runs.
-/

namespace QspiTool

open Words Interaction Machine

variable {fspi : Nat} {xfer : FlexspiTransfer}

/-! ## The device -/

/-- All bytes of the transfer have gone through the FIFO of its direction. -/
def Delivered (xfer : FlexspiTransfer) (d : Controller) : Prop :=
  xfer.dataSize.toNat ≤ 4 * match xfer.cmdType with
    | .read => d.received.length - d.core.base
    | .write | .config | .command => d.core.txFifo.length

instance (xfer : FlexspiTransfer) (d : Controller) : Decidable (Delivered xfer d) :=
  inferInstanceAs (Decidable (_ ≤ _))

/-- The device that raises bit 0 once per command: by completing it, at any moment after the
trigger at which its bytes have been delivered. -/
def completionDevice (xfer : FlexspiTransfer) : Permits := fun d a =>
  match a with
  | .raise flags => !flags.getLsbD cmdDone
  | .complete => d.running && decide (Delivered xfer d)
  | .receive _ | .setStatus _ _ => true

/-! ## Losing the completion -/

/-- Whether the command has been triggered, has completed since, has been seen to be complete by
the final wait, and has been seen before by another load of `INTR`. -/
structure CompletionWatch where
  triggered : Bool
  completed : Bool
  observed : Bool
  reread : Bool
  deriving DecidableEq

/-- Watches the completion of a command. -/
def completionWatch (fspi : Nat) : Monitor bus DeviceAction where
  State := CompletionWatch
  init := ⟨false, false, false, false⟩
  next q e := match e with
    | .call (.store a v) _ =>
        { q with triggered := q.triggered || (decide (a = fspi + Reg.ipcmd) && v.getLsbD 0) }
    | .call (.load a) v =>
        { q with reread := q.reread || (q.triggered && !q.observed &&
            (decide (a = fspi + Reg.intr) && BitVec.getLsbD (w := 32) v cmdDone)) }
    | .spin w v =>
        { q with observed := q.observed || (q.triggered &&
            (decide (w = ⟨fspi + Reg.intr, cmdDone⟩) && BitVec.getLsbD (w := 32) v cmdDone)) }
    | .act .complete => { q with completed := q.completed || q.triggered }
    | _ => q

/-- What the watch says after a run. -/
def completion (fspi : Nat) (t : BusTrace) : CompletionWatch := (completionWatch fspi).after t

variable (t : BusTrace)

@[simp] lemma completion_nil : completion fspi [] = ⟨false, false, false, false⟩ := rfl

@[simp] lemma completion_load (a : Nat) (v : Word) :
    completion fspi (t ++ [.call (.load a) v]) = { completion fspi t with
      reread := (completion fspi t).reread || ((completion fspi t).triggered &&
        !(completion fspi t).observed &&
          (decide (a = fspi + Reg.intr) && v.getLsbD cmdDone)) } :=
  Monitor.after_snoc _ _ _

@[simp] lemma completion_store (a : Nat) (v : Word) :
    completion fspi (t ++ [.call (.store a v) ()]) = { completion fspi t with
      triggered := (completion fspi t).triggered ||
        (decide (a = fspi + Reg.ipcmd) && v.getLsbD 0) } :=
  Monitor.after_snoc _ _ _

@[simp] lemma completion_spin (w : BitWait) (v : Word) :
    completion fspi (t ++ [.spin w v]) = { completion fspi t with
      observed := (completion fspi t).observed || ((completion fspi t).triggered &&
        (decide (w = ⟨fspi + Reg.intr, cmdDone⟩) && v.getLsbD cmdDone)) } :=
  Monitor.after_snoc _ _ _

lemma completion_act (a : DeviceAction) :
    completion fspi (t ++ [.act a]) = { completion fspi t with
      completed := (completion fspi t).completed ||
        (decide (a = .complete) && (completion fspi t).triggered) } := by
  rw [completion, Monitor.after_snoc]
  cases a <;> simp [completionWatch, completion]

lemma completion_away {o : Access} (h : Away fspi o) (r : o.Res) :
    completion fspi (t ++ [.call o r]) = completion fspi t := by
  cases o with
  | load a =>
    have hne : a ≠ fspi + Reg.intr := h
    exact (completion_load t a r).trans (by simp [hne])
  | store a v =>
    have hne : a ≠ fspi + Reg.ipcmd := h.2
    exact (completion_store t a v).trans (by simp [hne])
  | read8 a => exact Monitor.after_snoc _ _ _
  | read32 a => exact Monitor.after_snoc _ _ _
  | write8 a b => exact Monitor.after_snoc _ _ _
  | write32 a v => exact Monitor.after_snoc _ _ _
  | store8 a b => exact h.elim
  | openMem => exact h.elim
  | close fd => exact h.elim
  | mmap size fd offset => exact h.elim
  | munmap a size => exact h.elim
  | pageSize => exact h.elim

/-- After the trigger the driver is about to clear bit 0, which the final wait has not seen. -/
def LosesCompletion (fspi : Nat) (d : Head bus) : Assertion bus Bus DeviceAction := fun s t =>
  ∃ v : Word, d = .call (.store (fspi + Reg.intr) v) ∧ v.getLsbD cmdDone = true ∧
    s.dev.intr.getLsbD cmdDone = true ∧ (completion fspi t).triggered = true ∧
    (completion fspi t).observed = false

/-- The final wait polls bit 0, which is clear, and the command has completed. -/
def StuckCompleted (fspi : Nat) (d : Head bus) : Assertion bus Bus DeviceAction := fun s t =>
  d = .poll ⟨fspi + Reg.intr, cmdDone⟩ ∧ s.dev.intr.getLsbD cmdDone = false ∧
    (completion fspi t).completed = true

/-- The completion has not been lost, unless it has been reread. -/
def KeepsCompletion (fspi : Nat) (d : Head bus) : Assertion bus Bus DeviceAction := fun s t =>
  (completion fspi t).reread = false → ¬ LosesCompletion fspi d s t ∧ ¬ StuckCompleted fspi d s t

/-- No load of `INTR` but the final wait has seen the completion. -/
def NeverReread (fspi : Nat) : Assertion bus Bus DeviceAction := fun _ t =>
  (completion fspi t).reread = false

/-! ## Before the trigger -/

/-- The command has not been triggered. -/
def Fresh (fspi : Nat) : Assertion bus Bus DeviceAction := fun _ t =>
  completion fspi t = ⟨false, false, false, false⟩

/-- After the trigger: the final wait has seen nothing, and bit 0 is set if the command has
completed and has not been reread. -/
def Moving (fspi : Nat) : Assertion bus Bus DeviceAction := fun s t =>
  (completion fspi t).triggered = true ∧ (completion fspi t).observed = false ∧
    ((completion fspi t).reread = false → (completion fspi t).completed = true →
      s.dev.intr.getLsbD cmdDone = true)

lemma stable_fresh {permits : Permits} : (flexspi permits fspi).Stable (Fresh fspi) := by
  intro a s s' t h _
  simp only [Fresh] at h ⊢
  simp [completion_act, h]

lemma stable_neverReread {permits : Permits} :
    (flexspi permits fspi).Stable (NeverReread fspi) := by
  intro a s s' t h _
  simpa [NeverReread, completion_act] using h

lemma stable_moving {permits : Permits} : (flexspi permits fspi).Stable (Moving fspi) := by
  rintro a s s' t ⟨htriggered, hobserved, hflag⟩ hact
  obtain rfl := act_eq hact
  rw [Moving, completion_act]
  refine ⟨htriggered, hobserved, fun hreread hcompleted => ?_⟩
  simp only [Bool.or_eq_true, Bool.and_eq_true, decide_eq_true_eq] at hcompleted
  rw [Controller.perform_intr]
  rcases hcompleted with hcompleted | ⟨rfl, -⟩
  · simp [hflag hreread hcompleted]
  · simp [DeviceAction.flags]

/-- Before the trigger nothing can be lost, so every guarantee about losses is met. -/
lemma fresh_invariant (permits : Permits) {G : Head bus → Assertion bus Bus DeviceAction}
    (hG : ∀ d s t, Fresh fspi s t → G d s t) : FlagInvariant permits fspi G (Fresh fspi) where
  stable := stable_fresh
  away o s t ho hs := ⟨hG _ s t hs, by rwa [Fresh, completion_away t ho]⟩
  wait flag hflag := by
    have hspin : ∀ s t v, Fresh fspi s t →
        Fresh fspi s (t ++ [.spin ⟨fspi + Reg.intr, flag⟩ v]) := by
      intro s t v h
      simp only [Fresh] at h ⊢
      simp [h]
    exact waitBit_triple (by rcases hflag with rfl | rfl <;> decide) stable_fresh stable_fresh
      (hG _) (fun s t hs _ => hspin s t _ hs) fun s t hs _ => hspin s t _ hs
  rewrite m _ _ := by
    refine Triple.bind (load_triple (Q := fun _ => Fresh fspi) stable_fresh (fun _ => stable_fresh)
      (hG _) fun s t hs => ?_) fun v => store_triple stable_fresh stable_fresh (hG _)
        fun s t hs => ?_
    · simp only [Fresh] at hs ⊢
      simp [hs]
    · have hne : Reg.intr ≠ Reg.ipcmd := by decide
      simp only [Fresh] at hs ⊢
      simp [hs, hne]

/-- The command is set up and triggered. -/
lemma startCommand_moving {permits : Permits} {G : Head bus → Assertion bus Bus DeviceAction}
    (hG : ∀ d s t, Fresh fspi s t → G d s t) :
    (flexspi permits fspi).Triple G (Fresh fspi) (startCommand fspi xfer)
      fun _ s t => Moving fspi s t ∧ NeverReread fspi s t := by
  have hfresh := fresh_invariant permits hG
  rw [startCommand, setupCommand_eq]
  refine Triple.bind (Q := fun _ => Fresh fspi) ?_ fun _ => ?_
  · exact Triple.bind (hfresh.keeps (away_flshcr2 xfer.port)) fun _ =>
      Triple.bind hfresh.clearFlags fun _ => hfresh.keeps (programCommand_away xfer)
  · refine orReg_core_triple (by decide) (by decide) (by decide) stable_fresh
      (stable_and stable_moving stable_neverReread) (hG _) ?_ fun s t v hs _ => ⟨hG _ s t hs, ?_⟩
    · intro s t v hs
      simp only [Fresh] at hs ⊢
      simp [hs]
    · simp only [Fresh] at hs
      simp [Moving, NeverReread, hs]

/-! ## The data phase -/

lemma not_loses_of_ne {d : Head bus} (h : ∀ v, d ≠ .call (.store (fspi + Reg.intr) v)) (s : Bus)
    (t : BusTrace) : ¬ LosesCompletion fspi d s t :=
  fun ⟨v, hd, _⟩ => h v hd

lemma not_stuck_of_ne {d : Head bus} (h : d ≠ .poll ⟨fspi + Reg.intr, cmdDone⟩) (s : Bus)
    (t : BusTrace) : ¬ StuckCompleted fspi d s t :=
  fun hd => h hd.1

/-- A rewrite of `INTR` clears bit 0 only where its load has seen bit 0. -/
lemma moving_rewrite {permits : Permits} {m : Word} (hm : m.getLsbD cmdDone = false) :
    (flexspi permits fspi).Triple (KeepsCompletion fspi) (Moving fspi)
      (orReg (fspi + Reg.intr) m) fun _ => Moving fspi := by
  refine Triple.bind (Q := fun v s t => Moving fspi s t ∧
    (v.getLsbD cmdDone = true → (completion fspi t).reread = true)) ?_ fun v => ?_
  · refine load_triple stable_moving ?_ ?_ ?_
    · intro v
      refine stable_and stable_moving fun a s s' t h _ hv => ?_
      simp [completion_act, h hv]
    · exact fun s t _ _ => ⟨not_loses_of_ne (by simp) s t, not_stuck_of_ne (by simp) s t⟩
    · rintro s t ⟨htriggered, hobserved, hflag⟩
      refine ⟨⟨by simpa using htriggered, by simpa using hobserved, fun hreread => ?_⟩, ?_⟩
      · simp only [completion_load, Bool.or_eq_false_iff] at hreread ⊢
        exact hflag hreread.1
      · intro hv
        simp only [Controller.load_intr] at hv
        simp [htriggered, hobserved, hv]
  · have hstable : (flexspi permits fspi).Stable fun s t => Moving fspi s t ∧
        (v.getLsbD cmdDone = true → (completion fspi t).reread = true) := by
      refine stable_and stable_moving fun a s s' t h _ hv => ?_
      simp [completion_act, h hv]
    refine store_triple hstable stable_moving ?_ ?_
    · rintro s t ⟨-, hv⟩ hreread
      refine ⟨?_, not_stuck_of_ne (by simp) s t⟩
      rintro ⟨u, hu, hbit, -⟩
      injection hu with hu
      injection hu with _ hu
      subst hu
      rw [BitVec.getLsbD_or, hm, Bool.or_false] at hbit
      simp [hv hbit] at hreread
    · rintro s t ⟨⟨htriggered, hobserved, hflag⟩, hv⟩
      refine ⟨by simp [htriggered], by simpa using hobserved, fun hreread hcompleted => ?_⟩
      simp only [completion_store] at hreread hcompleted
      -- the load has not seen bit 0, so bit 0 is not stored back
      have hclear : v.getLsbD cmdDone = false := by
        by_contra hset
        simp [hv (by simpa using hset)] at hreread
      have hkeep : (v ||| m).getLsbD cmdDone = false := by
        rw [BitVec.getLsbD_or, hclear, hm]
        rfl
      rw [Controller.store_intr, getLsbD_and_not _ _ (by decide), hflag hreread hcompleted, hkeep]
      rfl

/-- The data phase keeps the completion unless it is reread. -/
lemma moving_invariant {permits : Permits} :
    FlagInvariant permits fspi (KeepsCompletion fspi) (Moving fspi) where
  stable := stable_moving
  away o s t ho hs := by
    refine ⟨fun _ => ⟨not_loses_of_ne ?_ s t, not_stuck_of_ne (by simp) s t⟩, ?_⟩
    · intro v heq
      injection heq with heq
      subst heq
      exact ho.1 rfl
    · rw [Moving, completion_away t ho, (exec_away ho s).1]
      exact hs
  wait flag hflag := by
    have hne : flag ≠ cmdDone := by rcases hflag with rfl | rfl <;> decide
    have hspin : ∀ s t v, Moving fspi s t →
        Moving fspi s (t ++ [.spin ⟨fspi + Reg.intr, flag⟩ v]) := by
      rintro s t v h
      simpa [Moving, hne] using h
    refine waitBit_triple (by rcases hflag with rfl | rfl <;> decide) stable_moving stable_moving
      ?_ (fun s t hs _ => hspin s t _ hs) fun s t hs _ => hspin s t _ hs
    exact fun s t _ _ => ⟨not_loses_of_ne (by simp) s t, not_stuck_of_ne (by simpa using hne) s t⟩
  rewrite m hm _ := moving_rewrite hm

/-! ## The end of the transfer -/

/-- The final wait has seen the completion. -/
def Observed (fspi : Nat) : Assertion bus Bus DeviceAction := fun _ t =>
  (completion fspi t).observed = true

lemma stable_observed {permits : Permits} : (flexspi permits fspi).Stable (Observed fspi) := by
  intro a s s' t h _
  simpa [Observed, completion_act] using h

/-- The last acknowledge comes when the completion has been seen. -/
lemma ackDone_triple {permits : Permits} {G : Head bus → Assertion bus Bus DeviceAction}
    {P : Assertion bus Bus DeviceAction} (hP : (flexspi permits fspi).Stable P)
    (hG : ∀ d s t, d ≠ .poll ⟨fspi + Reg.intr, cmdDone⟩ → P s t → G d s t)
    (hload : ∀ s t v, P s t → P s (t ++ [.call (.load (fspi + Reg.intr)) v]))
    (hstore : ∀ s s' t v, P s t → P s' (t ++ [.call (.store (fspi + Reg.intr) v) ()])) :
    (flexspi permits fspi).Triple G P (orReg (fspi + Reg.intr) (bit txEmpty)) fun _ => P :=
  Triple.bind (load_triple (Q := fun _ => P) hP (fun _ => hP)
    (fun s t hs => hG _ s t (by simp) hs) fun s t hs => hload s t _ hs) fun v =>
      store_triple hP hP (fun s t hs => hG _ s t (by simp) hs) fun s t hs => hstore _ _ _ _ hs

/-- A probe that fails sees nothing. -/
lemma moving_spin {s : Bus} (h : Moving fspi s t) {v : Word} (hv : v.getLsbD cmdDone = false) :
    Moving fspi s (t ++ [.spin ⟨fspi + Reg.intr, cmdDone⟩ v]) := by
  rw [Moving, completion_spin]
  simp only [hv, Bool.and_false, Bool.or_false]
  exact h

lemma awaitCommand_keeps {permits : Permits} (r : Int) :
    (flexspi permits fspi).Triple (KeepsCompletion fspi) (Moving fspi) (awaitCommand fspi r)
      fun _ => Observed fspi := by
  have hwait : (flexspi permits fspi).Triple (KeepsCompletion fspi) (Moving fspi)
      (waitBit (fspi + Reg.intr) cmdDone) fun _ => Observed fspi := by
    refine waitBit_triple (by decide) stable_moving stable_observed ?_ ?_ ?_
    · -- what has completed and has not been reread is still flagged
      rintro s t hs hreread
      refine ⟨not_loses_of_ne (by simp) s t, ?_⟩
      rintro ⟨-, hclear, hcompleted⟩
      rw [hs.2.2 hreread hcompleted] at hclear
      cases hclear
    · exact fun s t hs hfail => moving_spin t hs hfail
    · rintro s t hs hset
      rw [Controller.load_intr] at hset ⊢
      simp [Observed, hs.1, hset]
  refine Triple.bind hwait fun _ => ?_
  split
  · refine Triple.bind (ackDone_triple stable_observed ?_ ?_ ?_) fun _ =>
      Triple.ret stable_observed fun _ _ => id
    · intro d s t hd hs _
      refine ⟨?_, not_stuck_of_ne hd s t⟩
      rintro ⟨v, -, -, -, -, hobserved⟩
      rw [hs] at hobserved
      cases hobserved
    · intro s t v hs
      simpa [Observed] using hs
    · intro s s' t v hs
      simpa [Observed] using hs
  · exact Triple.ret stable_observed fun _ _ => id

/-- **The completion survives unless it is reread.** -/
lemma transferBlocking_keeps {permits : Permits} (xfer : FlexspiTransfer) :
    (flexspi permits fspi).Triple (KeepsCompletion fspi) (Fresh fspi) (transferBlocking fspi xfer)
      fun _ => Observed fspi := by
  have hfresh : ∀ d s t, Fresh fspi s t → KeepsCompletion fspi d s t := by
    rintro d s t hs -
    simp only [Fresh] at hs
    refine ⟨?_, ?_⟩
    · rintro ⟨v, -, -, -, htriggered, -⟩
      simp [hs] at htriggered
    · rintro ⟨-, -, hcompleted⟩
      simp [hs] at hcompleted
  rw [transferBlocking_eq]
  refine Triple.bind (startCommand_moving hfresh) fun _ => ?_
  refine Triple.bind (Q := fun _ => Moving fspi) ?_ awaitCommand_keeps
  refine (moving_invariant.moveData ?_ xfer).conseq (fun _ _ h => h.1) fun _ _ _ h => h.1
  exact fun s t _ _ => ⟨not_loses_of_ne (by simp) s t, not_stuck_of_ne (by simp) s t⟩

/-! ## A transfer without data -/

lemma moveData_away (hkind : xfer.cmdType ≠ .command) (hsize : xfer.dataSize.toNat = 0) :
    (moveData fspi xfer).Every (AwayHead fspi) := by
  have hcheck : ∀ {α : Type} {p : Driver α}, p.Every (AwayHead fspi) →
      (check (0 ≤ 32 * 32) >>= fun _ => p).Every (AwayHead fspi) := fun h =>
    ((Prog.every_check _).mpr (.inl (Nat.zero_le _))).bind fun _ => h
  have hwrite : (writeBlocking fspi xfer.data 0).Every (AwayHead fspi) := by
    refine hcheck ((load_every (away_load (by decide))).bind fun v => ?_)
    rw [writeLoop, dif_pos rfl]
    trivial
  have hread : (readBlocking fspi xfer.data 0).Every (AwayHead fspi) := by
    refine hcheck ((load_every (away_load (by decide))).bind fun v => ?_)
    refine (away_orReg _ (by decide) (by decide)).bind fun _ => ?_
    rw [readLoop, dif_pos rfl]
    trivial
  unfold moveData
  rw [hsize]
  cases hcmd : xfer.cmdType with
  | write => exact hwrite
  | config => exact hwrite
  | read => exact hread
  | command => exact absurd hcmd hkind

/-- A transfer without data loads `INTR` nowhere between the trigger and the final wait. -/
lemma transferBlocking_neverReread {permits : Permits} (hkind : xfer.cmdType ≠ .command)
    (hsize : xfer.dataSize.toNat = 0) :
    (flexspi permits fspi).Triple (fun _ => NeverReread fspi) (Fresh fspi)
      (transferBlocking fspi xfer) fun _ => NeverReread fspi := by
  have hfresh : ∀ (d : Head bus) s t, Fresh fspi s t → NeverReread fspi s t := by
    intro d s t hs
    simp only [Fresh] at hs
    simp [NeverReread, hs]
  have hpending : AwayInvariant permits fspi (fun _ => NeverReread fspi)
      fun s t => Moving fspi s t ∧ NeverReread fspi s t := by
    refine ⟨stable_and stable_moving stable_neverReread, fun o s t ho hs => ⟨hs.2, ?_⟩⟩
    exact ⟨(moving_invariant.away o s t ho hs.1).2, by
      rw [NeverReread, completion_away t ho]
      exact hs.2⟩
  rw [transferBlocking_eq]
  refine Triple.bind (startCommand_moving hfresh) fun _ => ?_
  refine Triple.bind (hpending.keeps (moveData_away hkind hsize)) fun r => ?_
  have hseen : (flexspi permits fspi).Stable fun s t => Observed fspi s t ∧ NeverReread fspi s t :=
    stable_and stable_observed stable_neverReread
  have hwait : (flexspi permits fspi).Triple (fun _ => NeverReread fspi)
      (fun s t => Moving fspi s t ∧ NeverReread fspi s t) (waitBit (fspi + Reg.intr) cmdDone)
      fun _ s t => Observed fspi s t ∧ NeverReread fspi s t := by
    refine waitBit_triple (by decide) hpending.stable hseen (fun _ _ hs => hs.2) ?_ ?_
    · intro s t hs hfail
      exact ⟨moving_spin t hs.1 hfail, by simpa [NeverReread] using hs.2⟩
    · intro s t hs hset
      rw [Controller.load_intr] at hset ⊢
      refine ⟨by simp [Observed, hs.1.1, hset], ?_⟩
      simpa [NeverReread] using hs.2
  refine Triple.bind hwait fun _ => ?_
  split
  · refine Triple.bind (ackDone_triple hseen (fun _ _ _ _ hs => hs.2) ?_ ?_) fun _ =>
      Triple.ret stable_neverReread fun _ _ hs => hs.2
    · rintro s t v ⟨hobserved, hreread⟩
      simp only [Observed, NeverReread] at hobserved hreread ⊢
      simp [hobserved, hreread]
    · rintro s s' t v ⟨hobserved, hreread⟩
      simp only [Observed, NeverReread] at hobserved hreread ⊢
      simp [hobserved, hreread]
  · exact Triple.ret stable_neverReread fun _ _ hs => hs.2

/-! ## A run that loses the completion -/

/-- Some run of `p` loses the completion on its way to its return. -/
def LosesIn {α : Type} (fspi : Nat) (xfer : FlexspiTransfer) (p : Driver α) :
    Assertion bus Bus DeviceAction := fun s t =>
  ∃ c a s' t', (flexspi (completionDevice xfer) fspi).Reach ⟨p, s, t⟩ c ∧
    LosesCompletion fspi c.prog.head c.state c.trace ∧
    (flexspi (completionDevice xfer) fspi).Reach c ⟨.ret a, s', t'⟩ ∧
    s'.dev.intr.getLsbD cmdDone = false ∧ (completion fspi t').completed = true

variable {t} {s : Bus} {α β : Type}

lemma LosesCompletion.ne_done {d : Head bus} (h : LosesCompletion fspi d s t) : d ≠ .done := by
  obtain ⟨v, rfl, -⟩ := h
  exact fun h => nomatch h

lemma LosesIn.bind_ret {p : Driver α} {f : α → Driver β} (h : LosesIn fspi xfer p s t)
    (hf : ∀ a, ∃ b, f a = .ret b) : LosesIn fspi xfer (p >>= f) s t := by
  obtain ⟨c, a, s', t', hreach, hloses, hend, hrest⟩ := h
  obtain ⟨b, hb⟩ := hf a
  refine ⟨c.bind f, b, s', t', hreach.bind f, ?_, ?_, hrest⟩
  · rwa [Config.bind, Prog.head_bind hloses.ne_done]
  · have hend' : (flexspi (completionDevice xfer) fspi).Reach (c.bind f) ⟨f a, s', t'⟩ :=
      hend.bind f
    rwa [hb] at hend'

/-- Run a first program, then lose the completion. -/
lemma LosesIn.seq {φ : Head bus → Assertion bus Bus DeviceAction}
    {P : Assertion bus Bus DeviceAction} {Q : α → Assertion bus Bus DeviceAction} {p : Driver α}
    {f : α → Driver β} (hp : (flexspi (completionDevice xfer) fspi).Attains φ P p Q) (hs : P s t)
    (hf : ∀ a s t, Q a s t → LosesIn fspi xfer (f a) s t) : LosesIn fspi xfer (p >>= f) s t := by
  obtain ⟨a, s', t', hreach, hq⟩ := hp.reach_bind f hs
  obtain ⟨c, b, s'', t'', hreach', hrest⟩ := hf a s' t' hq
  exact ⟨c, b, s'', t'', hreach.reach.trans hreach', hrest⟩

/-- The command completes right before the acknowledge of a round loads `INTR`. -/
lemma ack_loses (hmoving : Moving fspi s t) (hrunning : s.dev.running = true)
    (hdelivered : Delivered xfer s.dev) (n : Nat) :
    LosesIn fspi xfer (orReg (fspi + Reg.intr) (bit n)) s t := by
  have hpermits : completionDevice xfer s.dev .complete = true := by
    simp [completionDevice, hrunning, hdelivered]
  obtain ⟨htriggered, hobserved, -⟩ := hmoving
  have hdrift := (drift_act fspi t hpermits).reach (orReg (fspi + Reg.intr) (bit n))
  have hload := reach_load (completionDevice xfer) fspi Reg.intr
    (fun v => store (fspi + Reg.intr) (v ||| bit n)) { s with dev := s.dev.perform .complete }
    (t ++ [.act .complete])
  have hset : (s.dev.perform .complete).intr.getLsbD cmdDone = true := by
    simp [Controller.perform]
  refine ⟨_, (), _, _, hdrift.trans hload, ⟨_, rfl, ?_, hset, ?_, ?_⟩, reach_call _ _ _ _, ?_, ?_⟩
  · rw [Controller.load_intr, BitVec.getLsbD_or, hset]
    rfl
  · rw [completion_load, completion_act]
    exact htriggered
  · rw [completion_load, completion_act]
    exact hobserved
  · rw [exec_store]
    rw [Controller.load_intr, Controller.store_intr, getLsbD_and_not _ _ (by decide),
      BitVec.getLsbD_or, hset]
    rfl
  · rw [completion_store, completion_load, completion_act]
    simp [htriggered]

/-! ### Rounds -/

/-- The flow is `f`, in the data phase. -/
def MovingAt (fspi : Nat) (f : Flow) : Assertion bus Bus DeviceAction := fun s t =>
  s.flow = f ∧ Moving fspi s t

/-- A round up to its acknowledge. -/
def openRound (fspi flag : Nat) (chunk : Driver Nat) : Driver Nat := do
  waitBit (fspi + Reg.intr) flag
  clearFlags fspi
  chunk

lemma openRound_attains {flag : Nat} (hflag : flag = txEmpty ∨ flag = rxWatermarkFlag)
    {chunk : Driver Nat} (hquiet : chunk.Every (QuietHead fspi))
    (haway : chunk.Every (AwayHead fspi)) (f : Flow) :
    (flexspi (completionDevice xfer) fspi).Attains anytime (MovingAt fspi f)
      (openRound fspi flag chunk) fun _ => MovingAt fspi ((f.raise (bit flag)).rewrite 0#32) := by
  have hlt : flag < 32 := by rcases hflag with rfl | rfl <;> decide
  have hraise : ∀ d, completionDevice xfer d (.raise (bit flag)) = true := by
    intro d
    rcases hflag with rfl | rfl <;> rfl
  have hset : (f.raise (bit flag)).intr.getLsbD flag = true := by
    simp [Flow.raise, hlt]
  have hrun : (flexspi (completionDevice xfer) fspi).Attains (whenFlow fun _ => True) (At f)
      (openRound fspi flag chunk) fun _ => At ((f.raise (bit flag)).rewrite 0#32) := by
    refine act_attains (.raise (bit flag)) (fun s _ => hraise s.dev)
      (fun s hs => by rw [flow_raise, hs]) ?_
    refine Attains.bind (wait_attains hlt hset trivial) fun _ => ?_
    exact Attains.bind (clearFlags_attains trivial trivial) fun _ => quiet_attains hquiet trivial
  have hkeep : (flexspi (completionDevice xfer) fspi).Triple (KeepsCompletion fspi) (Moving fspi)
      (openRound fspi flag chunk) fun _ => Moving fspi :=
    Triple.bind (moving_invariant.wait flag hflag) fun _ =>
      Triple.bind moving_invariant.clearFlags fun _ => moving_invariant.keeps haway
  exact (hrun.conseq (fun _ _ h => h.1) fun _ _ _ => id).and_triple (hkeep.pre fun _ _ h => h.2)

/-- A whole round, in which the command does not complete. -/
lemma round_attains {flag : Nat} (hflag : flag = txEmpty ∨ flag = rxWatermarkFlag)
    {chunk : Driver Nat} (hquiet : chunk.Every (QuietHead fspi))
    (haway : chunk.Every (AwayHead fspi)) (f : Flow) :
    (flexspi (completionDevice xfer) fspi).Attains anytime (MovingAt fspi f)
      (openRound fspi flag chunk >>= fun b =>
        orReg (fspi + Reg.intr) (bit flag) >>= fun _ => pure b)
      fun _ => MovingAt fspi (((f.raise (bit flag)).rewrite 0#32).rewrite (bit flag)) := by
  have hbit : (bit flag).getLsbD cmdDone = false := by rcases hflag with rfl | rfl <;> decide
  have hack : (flexspi (completionDevice xfer) fspi).Attains anytime
      (MovingAt fspi ((f.raise (bit flag)).rewrite 0#32)) (orReg (fspi + Reg.intr) (bit flag))
      fun _ => MovingAt fspi (((f.raise (bit flag)).rewrite 0#32).rewrite (bit flag)) :=
    ((rewrite_attains (ψ := fun _ => True) _ trivial).conseq (fun _ _ h => h.1)
      fun _ _ _ => id).and_triple ((moving_rewrite hbit).pre fun _ _ h => h.2)
  exact Attains.bind (openRound_attains hflag hquiet haway f) fun b =>
    Attains.bind hack fun _ => Attains.ret fun _ _ => id

/-- A round in which the command completes behind the chunk. -/
lemma round_loses {flag : Nat} (hflag : flag = txEmpty ∨ flag = rxWatermarkFlag)
    {chunk : Driver Nat} (hquiet : chunk.Every (QuietHead fspi))
    (haway : chunk.Every (AwayHead fspi)) {f : Flow} (hs : MovingAt fspi f s t)
    (hend : ∀ s : Bus, s.flow = (f.raise (bit flag)).rewrite 0#32 →
      s.dev.running = true ∧ Delivered xfer s.dev) :
    LosesIn fspi xfer (openRound fspi flag chunk >>= fun b =>
      orReg (fspi + Reg.intr) (bit flag) >>= fun _ => pure b) s t := by
  refine LosesIn.seq (openRound_attains hflag hquiet haway f) hs fun b s' t' hs' => ?_
  obtain ⟨hrunning, hdelivered⟩ := hend s' hs'.1
  exact (ack_loses hs'.2 hrunning hdelivered flag).bind_ret fun _ => ⟨b, rfl⟩

/-! ### Loops -/

lemma writeRound_eq (watermark : Watermark) (buffer size : Nat) :
    writeRound fspi watermark buffer size =
      openRound fspi txEmpty (writeChunk fspi watermark buffer size) >>= fun b =>
        orReg (fspi + Reg.intr) (bit txEmpty) >>= fun _ => pure b := rfl

lemma readRound_eq (watermark : Watermark) (buffer size : Nat) :
    readRound fspi watermark buffer size =
      openRound fspi rxWatermarkFlag (readChunk fspi watermark buffer size) >>= fun b =>
        orReg (fspi + Reg.intr) (bit rxWatermarkFlag) >>= fun _ => pure b := rfl

/-- A store to `INTR` with bit 6 set pushes a watermark level. -/
lemma rewrite_pushed {f : Flow} {m : Word} (h : (f.intr ||| m).getLsbD txEmpty = true) :
    (f.rewrite m).pushed = f.pushed + 2 * f.txWatermark.val := by
  simp only [Flow.rewrite, Flow.storeIntr, h, if_true]

/-- In the last round of a write, `clear_flags` has pushed all that is left, before the round has
written anything. -/
lemma writeLoop_loses (hkind : xfer.cmdType = .write ∨ xfer.cmdType = .config)
    {size : Nat} (hsize : size ≠ 0) (buffer : Nat) {f : Flow} (hrunning : f.running = true)
    (hpushed : xfer.dataSize.toNat ≤ 4 * f.pushed + size) (hs : MovingAt fspi f s t) :
    LosesIn fspi xfer (writeLoop fspi f.txWatermark buffer size) s t := by
  induction size using Nat.strongRecOn generalizing buffer f s t with
  | ind size ih =>
    have hquiet : (writeChunk fspi f.txWatermark buffer size).Every (QuietHead fspi) :=
      (writeChunk_every _ buffer size).mono fun _ => quiet_of_fill
    have haway : (writeChunk fspi f.txWatermark buffer size).Every (AwayHead fspi) :=
      (writeChunk_every _ buffer size).mono fun _ => away_of_fill
    have hclear : ((f.raise (bit txEmpty)).rewrite 0#32).pushed =
        f.pushed + 2 * f.txWatermark.val :=
      rewrite_pushed (by simp [Flow.raise, txEmpty])
    rw [writeLoop, dif_neg hsize, writeRound_eq]
    by_cases hlast : size ≤ 8 * f.txWatermark.val
    · refine (round_loses (.inl rfl) hquiet haway hs fun s₁ hs₁ => ⟨?_, ?_⟩).bind_ret fun b => ?_
      · exact (congrArg Flow.running hs₁).trans hrunning
      · have hfifo : s₁.dev.core.txFifo.length = f.pushed + 2 * f.txWatermark.val :=
          (congrArg Flow.pushed hs₁).trans hclear
        rcases hkind with hkind | hkind
        · simp only [Delivered, hkind]
          omega
        · simp only [Delivered, hkind]
          omega
      · have hrest : writeRest f.txWatermark size = 0 := by
          unfold writeRest
          split <;> omega
        rw [hrest, writeLoop, dif_pos rfl]
        exact ⟨(), rfl⟩
    · refine LosesIn.seq (round_attains (.inl rfl) hquiet haway f) hs fun b s₁ t₁ hs₁ => ?_
      have hrest : writeRest f.txWatermark size = size - 8 * f.txWatermark.val :=
        if_pos (by omega)
      refine ih _ (writeRest_lt _ hsize) ?_ b
        (f := ((f.raise (bit txEmpty)).rewrite 0#32).rewrite (bit txEmpty)) hrunning ?_ hs₁
      · omega
      · rw [rewrite_pushed (by simp [txEmpty]), hclear, hrest]
        omega

/-- Once all words of a read have arrived, the command may complete in the last round. -/
lemma readLoop_loses (hkind : xfer.cmdType = .read) (watermark : Watermark) {size : Nat}
    (hsize : size ≠ 0) (buffer : Nat) {f : Flow} (hrunning : f.running = true)
    (harrived : xfer.dataSize.toNat ≤ 4 * (f.arrived - f.base)) (hs : MovingAt fspi f s t) :
    LosesIn fspi xfer (readLoop fspi watermark buffer size) s t := by
  induction size using Nat.strongRecOn generalizing buffer f s t with
  | ind size ih =>
    have hquiet : (readChunk fspi watermark buffer size).Every (QuietHead fspi) :=
      (readChunk_every _ buffer size).mono fun _ => quiet_of_fetch
    have haway : (readChunk fspi watermark buffer size).Every (AwayHead fspi) :=
      (readChunk_every _ buffer size).mono fun _ => away_of_fetch
    rw [readLoop, dif_neg hsize, readRound_eq]
    by_cases hlast : readRest watermark size = 0
    · refine (round_loses (.inr rfl) hquiet haway hs fun s₁ hs₁ => ⟨?_, ?_⟩).bind_ret fun b => ?_
      · exact (congrArg Flow.running hs₁).trans hrunning
      · have hreceived : s₁.dev.received.length = f.arrived := congrArg Flow.arrived hs₁
        have hbase : s₁.dev.core.base = f.base := congrArg Flow.base hs₁
        simp only [Delivered, hkind, hreceived, hbase]
        exact harrived
      · rw [hlast, readLoop, dif_pos rfl]
        exact ⟨(), rfl⟩
    · exact LosesIn.seq (round_attains (.inr rfl) hquiet haway f) hs fun b s₁ t₁ hs₁ =>
        ih _ (readRest_lt _ hsize) hlast b
          (f := ((f.raise (bit rxWatermarkFlag)).rewrite 0#32).rewrite (bit rxWatermarkFlag))
          hrunning harrived hs₁

/-! ### The transfer -/

/-- The command runs, and the words counted from `base` on are those that arrive now. -/
def Started (fspi : Nat) : Assertion bus Bus DeviceAction := fun s t =>
  s.dev.running = true ∧ s.dev.core.base ≤ s.dev.received.length ∧ Moving fspi s t

lemma startCommand_started (xfer : FlexspiTransfer) :
    (flexspi (completionDevice xfer) fspi).Attains anytime (Fresh fspi) (startCommand fspi xfer)
      fun _ => Started fspi := by
  have hstart : (flexspi (completionDevice xfer) fspi).Attains anytime (Fresh fspi)
      (startCommand fspi xfer)
      fun _ s _ => s.dev.running = true ∧ s.dev.core.base = s.dev.received.length :=
    (startCommand_attains xfer).conseq (fun _ _ _ => trivial) fun _ _ _ => id
  refine (hstart.and_triple (startCommand_moving (G := fun _ _ _ => True)
    fun _ _ _ _ => trivial)).post fun _ s t h => ⟨h.1.1, Nat.le_of_eq h.1.2, h.2.1⟩

/-- The words of the transfer arrive all at once. -/
lemma exists_drift_arrive (xfer : FlexspiTransfer) (hs : Started fspi s t) (n : Nat) :
    ∃ t', (flexspi (completionDevice xfer) fspi).Drift s t (s.deliver n) t' ∧
      n ≤ (s.deliver n).flow.arrived - (s.deliver n).flow.base ∧
      MovingAt fspi (s.deliver n).flow (s.deliver n) t' := by
  obtain ⟨-, hbase, hmoving⟩ := hs
  have hpermits : ∀ k < n, completionDevice xfer (s.deliver k).dev (.receive 0#32) = true :=
    fun _ _ => rfl
  obtain ⟨t', hd⟩ := exists_drift_deliver fspi n s t hpermits
  refine ⟨t', hd, ?_, rfl, stable_moving.drift hd hmoving⟩
  change n ≤ (s.deliver n).dev.received.length - s.dev.core.base
  rw [deliver_received]
  omega

lemma LosesIn.reach {p p' : Driver α} {s' : Bus} {t' : BusTrace}
    (h : (flexspi (completionDevice xfer) fspi).Reach ⟨p, s, t⟩ ⟨p', s', t'⟩)
    (hp : LosesIn fspi xfer p' s' t') : LosesIn fspi xfer p s t := by
  obtain ⟨c, a, s'', t'', hreach, hrest⟩ := hp
  exact ⟨c, a, s'', t'', h.trans hreach, hrest⟩

lemma moving_away (hs : Moving fspi s t) {o : Access} (ho : Away fspi o) (r : o.Res) :
    Moving fspi s (t ++ [.call o r]) := by
  rw [Moving, completion_away t ho]
  exact hs

lemma writeBlocking_loses (hkind : xfer.cmdType = .write ∨ xfer.cmdType = .config)
    (hsize : xfer.dataSize.toNat ≠ 0) (hle : xfer.dataSize.toNat ≤ 32 * 32)
    (hs : Started fspi s t) :
    LosesIn fspi xfer (writeBlocking fspi xfer.data xfer.dataSize.toNat) s t := by
  rw [writeBlocking, check, Prog.check, if_pos hle, Prog.ret_bind]
  refine LosesIn.reach (reach_load _ fspi Reg.iptxfcr _ s t) ?_
  refine LosesIn.bind_ret ?_ fun _ => ⟨0, rfl⟩
  have haway : Away fspi (.load (fspi + Reg.iptxfcr)) := away_load (by decide)
  exact writeLoop_loses hkind hsize xfer.data (f := s.flow) hs.1 (Nat.le_add_left _ _)
    ⟨rfl, moving_away hs.2.2 haway _⟩

lemma readBlocking_loses (hkind : xfer.cmdType = .read) (hsize : xfer.dataSize.toNat ≠ 0)
    (hle : xfer.dataSize.toNat ≤ 32 * 32) (hs : Started fspi s t) :
    LosesIn fspi xfer (readBlocking fspi xfer.data xfer.dataSize.toNat) s t := by
  have hflush : (flexspi (completionDevice xfer) fspi).Attains anytime (Started fspi)
      (orReg (fspi + Reg.iprxfcr) 1#32) fun _ => Started fspi := by
    have hrun : (flexspi (completionDevice xfer) fspi).Attains anytime (Started fspi)
        (orReg (fspi + Reg.iprxfcr) 1#32)
        fun _ s _ => s.dev.running = true ∧ s.dev.core.base ≤ s.dev.received.length :=
      orReg_attains (fun _ _ _ => trivial) (fun _ _ _ _ _ => trivial)
        fun s t v hs _ => ⟨hs.1, hs.2.1⟩
    exact (hrun.and_triple ((moving_invariant.keeps (away_orReg _ (by decide) (by decide))).pre
      fun _ _ h => h.2.2)).post fun _ s t h => ⟨h.1.1, h.1.2, h.2⟩
  rw [readBlocking, check, Prog.check, if_pos hle, Prog.ret_bind]
  refine LosesIn.reach (reach_load _ fspi Reg.iprxfcr _ s t) ?_
  have haway : Away fspi (.load (fspi + Reg.iprxfcr)) := away_load (by decide)
  refine LosesIn.seq hflush ⟨hs.1, hs.2.1, moving_away hs.2.2 haway _⟩ fun _ s₁ t₁ hs₁ => ?_
  obtain ⟨t₂, hd, harrived, hmoving⟩ :=
    exists_drift_arrive xfer hs₁ ((xfer.dataSize.toNat + 3) / 4)
  refine LosesIn.reach (hd.reach _) (LosesIn.bind_ret ?_ fun _ => ⟨0, rfl⟩)
  exact readLoop_loses hkind _ hsize xfer.data hs₁.1 (by omega) hmoving

/-- With data to move, the data phase can lose the completion. -/
lemma moveData_loses (hacc : xfer.Accepted) (hsize : xfer.dataSize.toNat ≠ 0)
    (hs : Started fspi s t) : LosesIn fspi xfer (moveData fspi xfer) s t := by
  unfold moveData
  cases hkind : xfer.cmdType with
  | write => exact writeBlocking_loses (.inl hkind) hsize hacc.2 hs
  | config => exact writeBlocking_loses (.inr hkind) hsize hacc.2 hs
  | read => exact readBlocking_loses hkind hsize hacc.2 hs
  | command => exact absurd hkind hacc.1

/-- With data to move, some run loses the completion and then waits for it forever. -/
lemma exists_loses (fspi : Nat) (hacc : xfer.Accepted) (hsize : xfer.dataSize.toNat ≠ 0) (s : Bus) :
    ∃ c c', (flexspi (completionDevice xfer) fspi).Reach ⟨transferBlocking fspi xfer, s, []⟩ c ∧
      LosesCompletion fspi c.prog.head c.state c.trace ∧
      (flexspi (completionDevice xfer) fspi).Reach c c' ∧
      StuckCompleted fspi c'.prog.head c'.state c'.trace := by
  obtain ⟨_, s₁, t₁, hstart, hstarted⟩ := startCommand_started xfer s [] completion_nil
  obtain ⟨c, r, s₂, t₂, hreach, hloses, hend, hclear, hcompleted⟩ :=
    moveData_loses hacc hsize hstarted
  rw [transferBlocking_eq]
  refine ⟨c.bind (awaitCommand fspi), ⟨awaitCommand fspi r, s₂, t₂⟩,
    hstart.reach.seq (hreach.bind _), ?_, hend.bind _, rfl, hclear, hcompleted⟩
  rwa [Config.bind, Prog.head_bind hloses.ne_done]

/-! ## The condition -/

/-- **When the completion is not lost.**  A run in which no load of `INTR` between the trigger
and the final wait's success sees bit 0 set neither clears bit 0 unobserved nor waits for a
completion that has passed.  All runs are so exactly for a transfer without data. -/
theorem completion_kept_iff (fspi : Nat) (xfer : FlexspiTransfer) (hacc : xfer.Accepted) (s : Bus) :
    (∀ c, (flexspi (completionDevice xfer) fspi).Reach ⟨transferBlocking fspi xfer, s, []⟩ c →
      (completion fspi c.trace).reread = false →
        ¬ LosesCompletion fspi c.prog.head c.state c.trace ∧
        ¬ StuckCompleted fspi c.prog.head c.state c.trace) ∧
    ((∀ c, (flexspi (completionDevice xfer) fspi).Reach ⟨transferBlocking fspi xfer, s, []⟩ c →
      ¬ LosesCompletion fspi c.prog.head c.state c.trace) ↔ xfer.dataSize.toNat = 0) ∧
    ((∀ c, (flexspi (completionDevice xfer) fspi).Reach ⟨transferBlocking fspi xfer, s, []⟩ c →
      ¬ StuckCompleted fspi c.prog.head c.state c.trace) ↔ xfer.dataSize.toNat = 0) := by
  have hkeep : ∀ c, (flexspi (completionDevice xfer) fspi).Reach
      ⟨transferBlocking fspi xfer, s, []⟩ c → (completion fspi c.trace).reread = false →
        ¬ LosesCompletion fspi c.prog.head c.state c.trace ∧
        ¬ StuckCompleted fspi c.prog.head c.state c.trace := by
    intro c hreach hreread
    by_cases hdone : c.prog.head = .done
    · exact ⟨fun h => h.ne_done hdone, fun h => nomatch hdone.symm.trans h.1⟩
    · exact (transferBlocking_keeps xfer).guarantee completion_nil hreach hdone hreread
  have hempty : xfer.dataSize.toNat = 0 → ∀ c, (flexspi (completionDevice xfer) fspi).Reach
      ⟨transferBlocking fspi xfer, s, []⟩ c → c.prog.head ≠ .done →
        (completion fspi c.trace).reread = false := fun hsize c hreach hdone =>
    (transferBlocking_neverReread hacc.1 hsize).guarantee completion_nil hreach hdone
  refine ⟨hkeep, ⟨fun hnever => ?_, fun hsize c hreach hloses => ?_⟩,
    ⟨fun hnever => ?_, fun hsize c hreach hstuck => ?_⟩⟩
  · by_contra hsize
    obtain ⟨c, c', hreach, hloses, -⟩ := exists_loses fspi hacc hsize s
    exact hnever c hreach hloses
  · exact (hkeep c hreach (hempty hsize c hreach hloses.ne_done)).1 hloses
  · by_contra hsize
    obtain ⟨c, c', hreach, -, hlater, hstuck⟩ := exists_loses fspi hacc hsize s
    exact hnever c' (hreach.trans hlater) hstuck
  · exact (hkeep c hreach (hempty hsize c hreach (by simp [hstuck.1]))).2 hstuck

/-- A read of `dataSize` bytes. -/
def readOf (dataSize : BitVec 16) : FlexspiTransfer where
  deviceAddress := 0#32
  port := .portA1
  cmdType := .read
  seqIndex := 0#8
  seqNumber := 1#8
  data := 100
  dataSize := dataSize

/-- A read of no bytes never waits for a completion that has passed, a read of four may. -/
theorem completion_kept_empty :
    (∀ c, (flexspi (completionDevice (readOf 0#16)) 0).Reach
      ⟨transferBlocking 0 (readOf 0#16), ⟨Controller.reset, fun _ => 0#8⟩, []⟩ c →
      ¬ StuckCompleted 0 c.prog.head c.state c.trace) ∧
    ∃ c, (flexspi (completionDevice (readOf 4#16)) 0).Reach
      ⟨transferBlocking 0 (readOf 4#16), ⟨Controller.reset, fun _ => 0#8⟩, []⟩ c ∧
      StuckCompleted 0 c.prog.head c.state c.trace := by
  constructor
  · exact (completion_kept_iff 0 (readOf 0#16) ⟨by decide, by decide⟩ _).2.2.mpr rfl
  · by_contra hnone
    have hsize := (completion_kept_iff 0 (readOf 4#16) ⟨by decide, by decide⟩
      ⟨Controller.reset, fun _ => 0#8⟩).2.2.mp fun c hreach hstuck => hnone ⟨c, hreach, hstuck⟩
    exact absurd hsize (by decide)

/-- **A completion is lost**: a read of four bytes whose word, watermark flag and completion come
before the first poll of bit 7.  The first `clear_flags` clears bit 0, and the final wait finds it
clear. -/
theorem transferBlocking_loses_completion :
    ¬ ∀ (fspi : Nat) (xfer : FlexspiTransfer) (s : Bus), xfer.Accepted →
      ∀ c, (flexspi (completionDevice xfer) fspi).Reach ⟨transferBlocking fspi xfer, s, []⟩ c →
        ¬ LosesCompletion fspi c.prog.head c.state c.trace ∧
        ¬ StuckCompleted fspi c.prog.head c.state c.trace := by
  intro hevery
  obtain ⟨c, hreach, htest⟩ : ∃ c, (flexspi (completionDevice (readOf 4#16)) 0).Reach
      ⟨transferBlocking 0 (readOf 4#16), ⟨Controller.reset, fun _ => 0#8⟩, []⟩ c ∧
      decide (c.prog.wait? = some ⟨Reg.intr, cmdDone⟩ ∧
        c.state.dev.intr.getLsbD cmdDone = false ∧
        (completion 0 c.trace).completed = true) = true :=
    exists_reach_of_run (timed [(19, .receive 0#32), (0, .raise (bit rxWatermarkFlag)),
      (0, .complete)] 11)
      (by decide +kernel)
  obtain ⟨hwait, hclear, hcompleted⟩ := of_decide_eq_true htest
  refine (hevery 0 (readOf 4#16) _ ⟨by decide, by decide⟩ c hreach).2 ⟨?_, hclear, hcompleted⟩
  exact Prog.head_of_wait? hwait

end QspiTool
