import QspiTool.Device.FlagRule
import QspiTool.Interaction.Monitor

/-!
# The error flag during a transfer

The stores of a transfer to `INTR` write back what was loaded, `clear_flags` as well as the
acknowledges: an error is erased by the first of them whose load has found it.  `errorWatch`
follows bit 3 of `INTR` through the actions of the device and the accesses of the driver, and says
what the last of these stores has erased.  That store is the last access of `transfer_blocking`
(`run_sinceStore`).
-/

namespace QspiTool

open Words Interaction Machine

variable {permits : Permits} {fspi : Nat} {s₀ : Bus}

/-! ## When errors are flagged -/

/-- What is to be known of the error flag and of the accesses to `INTR`. -/
structure ErrorWatch where
  /-- The command has been triggered. -/
  triggered : Bool
  /-- An error has been flagged since. -/
  flagged : Bool
  /-- An error has been flagged, before the trigger or behind it, that no store has erased. -/
  standing : Bool
  /-- `flagged` at the last load of `INTR`. -/
  seen : Bool
  /-- `standing` at the last load of `INTR`. -/
  carried : Bool
  /-- At the last store to `INTR` an error has been flagged since the trigger, and one was there
  to be loaded. -/
  erased : Bool
  /-- `flagged` at the last store to `INTR`. -/
  acknowledged : Bool
  deriving DecidableEq

/-- Watches the device's errors, from a state in which bit 3 of `INTR` is `standing`.  A store to
`INTR` erases what the load in front of it has found. -/
def errorWatch (fspi : Nat) (standing : Bool) : Monitor bus DeviceAction where
  State := ErrorWatch
  init := ⟨false, false, standing, false, false, false, false⟩
  next q e := match e with
    | .call (.load a) _ =>
        if a = fspi + Reg.intr then { q with seen := q.flagged, carried := q.standing } else q
    | .call (.store a v) _ =>
        if a = fspi + Reg.intr then
          { q with
            standing := q.standing && !q.carried
            erased := q.flagged && (q.seen || q.carried)
            acknowledged := q.flagged }
        else { q with
          triggered := q.triggered || (decide (a = fspi + Reg.ipcmd) && v.getLsbD 0) }
    | .act a =>
        { q with
          flagged := q.flagged || (q.triggered && a.flags.getLsbD cmdError)
          standing := q.standing || a.flags.getLsbD cmdError }
    | _ => q

/-- What the watch says after a run that has started in `s₀`. -/
def errors (fspi : Nat) (s₀ : Bus) (t : BusTrace) : ErrorWatch :=
  (errorWatch fspi (s₀.dev.intr.getLsbD cmdError)).after t

/-- An error has been flagged since the trigger. -/
def ErrorFlagged (fspi : Nat) (s₀ : Bus) (t : BusTrace) : Prop :=
  (errors fspi s₀ t).flagged = true

/-- An error has been flagged between the trigger and the last store to `INTR`, which is the last
access of `transfer_blocking`. -/
def ErrorInTransfer (fspi : Nat) (s₀ : Bus) (t : BusTrace) : Prop :=
  (errors fspi s₀ t).acknowledged = true

/-- An error has been flagged between the trigger and the load of the last read-modify-write of
`INTR`, or behind that load while one from before the trigger still stood. -/
def ErrorErased (fspi : Nat) (s₀ : Bus) (t : BusTrace) : Prop :=
  (errors fspi s₀ t).erased = true

instance (fspi : Nat) (s₀ : Bus) (t : BusTrace) : Decidable (ErrorFlagged fspi s₀ t) :=
  inferInstanceAs (Decidable (_ = _))

instance (fspi : Nat) (s₀ : Bus) (t : BusTrace) : Decidable (ErrorInTransfer fspi s₀ t) :=
  inferInstanceAs (Decidable (_ = _))

/-! ## What the watch remembers -/

@[simp] lemma errors_load (t : BusTrace) (a : Nat) (r : Word) :
    errors fspi s₀ (t ++ [.call (.load a) r]) =
      if a = fspi + Reg.intr then
        { errors fspi s₀ t with
          seen := (errors fspi s₀ t).flagged
          carried := (errors fspi s₀ t).standing }
      else errors fspi s₀ t :=
  Monitor.after_snoc _ _ _

@[simp] lemma errors_store (t : BusTrace) (a : Nat) (v : Word) (r : Unit) :
    errors fspi s₀ (t ++ [.call (.store a v) r]) =
      if a = fspi + Reg.intr then
        { errors fspi s₀ t with
          standing := (errors fspi s₀ t).standing && !(errors fspi s₀ t).carried
          erased := (errors fspi s₀ t).flagged &&
            ((errors fspi s₀ t).seen || (errors fspi s₀ t).carried)
          acknowledged := (errors fspi s₀ t).flagged }
      else { errors fspi s₀ t with
        triggered := (errors fspi s₀ t).triggered ||
          (decide (a = fspi + Reg.ipcmd) && v.getLsbD 0) } :=
  Monitor.after_snoc _ _ _

@[simp] lemma errors_spin (t : BusTrace) (w : BitWait) (v : Word) :
    errors fspi s₀ (t ++ [.spin w v]) = errors fspi s₀ t :=
  Monitor.after_snoc _ _ _

@[simp] lemma errors_act (t : BusTrace) (a : DeviceAction) :
    errors fspi s₀ (t ++ [.act a]) = { errors fspi s₀ t with
      flagged := (errors fspi s₀ t).flagged ||
        ((errors fspi s₀ t).triggered && a.flags.getLsbD cmdError)
      standing := (errors fspi s₀ t).standing || a.flags.getLsbD cmdError } :=
  Monitor.after_snoc _ _ _

/-- The error a store to `INTR` would erase now. -/
def ErrorWatch.Doomed (q : ErrorWatch) : Prop :=
  q.flagged = true ∧ (q.seen = true ∨ q.carried = true)

/-- A flagged error is standing or has been erased; so is one that a load has seen, and an erased
one has been seen. -/
structure ErrorWatch.Accounted (q : ErrorWatch) : Prop where
  flagged : q.flagged = true → q.standing = true ∨ q.erased = true
  seen : q.seen = true → q.carried = true ∨ q.erased = true
  erased : q.erased = true → q.Doomed
  acknowledged : q.erased = true → q.acknowledged = true

lemma doomed_next {standing : Bool} (q : ErrorWatch) (e : Event bus DeviceAction)
    (h : q.Doomed) : ErrorWatch.Doomed ((errorWatch fspi standing).next q e) := by
  obtain ⟨hflagged, hloaded⟩ := h
  rcases e with ⟨o, r⟩ | ⟨w, r⟩ | a
  · cases o with
    | load a =>
      simp only [errorWatch]
      split
      · exact ⟨hflagged, .inl hflagged⟩
      · exact ⟨hflagged, hloaded⟩
    | store a v =>
      simp only [errorWatch]
      split <;> exact ⟨hflagged, hloaded⟩
    | _ => exact ⟨hflagged, hloaded⟩
  · exact ⟨hflagged, hloaded⟩
  · exact ⟨by simp [errorWatch, hflagged], hloaded⟩

lemma erased_next {standing : Bool} (q : ErrorWatch) (e : Event bus DeviceAction)
    (h : q.Doomed ∧ q.erased = true) :
    ErrorWatch.Doomed ((errorWatch fspi standing).next q e) ∧
      ErrorWatch.erased ((errorWatch fspi standing).next q e) = true := by
  obtain ⟨hdoomed, herased⟩ := h
  refine ⟨doomed_next q e hdoomed, ?_⟩
  rcases e with ⟨o, r⟩ | ⟨w, r⟩ | a
  · cases o with
    | load a =>
      simp only [errorWatch]
      split <;> exact herased
    | store a v =>
      simp only [errorWatch]
      split
      · simpa [ErrorWatch.Doomed] using hdoomed
      · exact herased
    | _ => exact herased
  · exact herased
  · exact herased

/-- Only a store to `INTR` erases an error. -/
lemma store_of_erased {standing : Bool} {q : ErrorWatch} {e : Event bus DeviceAction}
    (hbefore : ¬ q.erased = true)
    (h : ErrorWatch.erased ((errorWatch fspi standing).next q e) = true) :
    (∃ v, e = .call (.store (fspi + Reg.intr) v) ()) ∧ q.Doomed := by
  rcases e with ⟨o, r⟩ | ⟨w, r⟩ | a
  · cases o with
    | load a =>
      simp only [errorWatch] at h
      split at h <;> exact absurd h hbefore
    | store a v =>
      simp only [errorWatch] at h
      split at h
      · rename_i ha
        subst ha
        exact ⟨⟨v, rfl⟩, by simpa [ErrorWatch.Doomed] using h⟩
      · exact absurd h hbefore
    | _ => exact absurd h hbefore
  · exact absurd h hbefore
  · exact absurd h hbefore

lemma accounted_next {standing : Bool} (q : ErrorWatch) (e : Event bus DeviceAction)
    (h : q.Accounted) : ErrorWatch.Accounted ((errorWatch fspi standing).next q e) := by
  have hdoomed : q.erased = true →
      ErrorWatch.Doomed ((errorWatch fspi standing).next q e) := fun he =>
    doomed_next q e (h.erased he)
  rcases e with ⟨o, r⟩ | ⟨w, r⟩ | a
  · cases o with
    | load a =>
      simp only [errorWatch] at hdoomed ⊢
      split at hdoomed <;> rename_i ha
      · rw [if_pos ha]
        exact ⟨h.flagged, h.flagged, hdoomed, h.acknowledged⟩
      · rw [if_neg ha]
        exact h
    | store a v =>
      simp only [errorWatch]
      split
      · obtain ⟨hflagged, hseen, herased, -⟩ := h
        refine ⟨fun hf => ?_, fun hs => ?_, fun he => ?_, fun he => ?_⟩
        · -- what stood has been carried, or stands on
          have hcases := hflagged hf
          simp only [ErrorWatch.Doomed] at herased
          cases hcarried : q.carried <;> grind
        · simp only [ErrorWatch.Doomed] at herased
          grind
        · simpa [ErrorWatch.Doomed] using he
        · simp only [Bool.and_eq_true] at he
          exact he.1
      · exact ⟨h.flagged, h.seen, h.erased, h.acknowledged⟩
    | _ => exact h
  · exact h
  · refine ⟨fun hf => ?_, h.seen, hdoomed, h.acknowledged⟩
    simp only [errorWatch, Bool.or_eq_true, Bool.and_eq_true] at hf ⊢
    rcases hf with hf | ⟨-, hraised⟩
    · exact (h.flagged hf).imp_left .inl
    · exact .inl (.inr hraised)

lemma errors_accounted (t : BusTrace) : (errors fspi s₀ t).Accounted := by
  refine Monitor.invariant (errorWatch fspi (s₀.dev.intr.getLsbD cmdError))
    (φ := ErrorWatch.Accounted) ?_ accounted_next t
  constructor <;> intro h <;> cases h

/-! ## The accesses of a transfer -/

/-- The watch knows whether bit 3 of `INTR` is set. -/
def Tracked (fspi : Nat) (s₀ : Bus) : Assertion bus Bus DeviceAction :=
  fun s t => s.dev.intr.getLsbD cmdError = (errors fspi s₀ t).standing

lemma stable_tracked : (flexspi permits fspi).Stable (Tracked fspi s₀) := by
  intro a s s' t h hact
  obtain rfl := act_eq hact
  simp only [Tracked] at h ⊢
  simp [Controller.perform_intr, h]

/-- `v` is what the last load of `INTR` has found of bit 3. -/
def Loaded (fspi : Nat) (s₀ : Bus) (v : Word) : Assertion bus Bus DeviceAction :=
  fun s t => Tracked fspi s₀ s t ∧ v.getLsbD cmdError = (errors fspi s₀ t).carried ∧
    ((errors fspi s₀ t).carried = true → (errors fspi s₀ t).standing = true)

lemma stable_loaded (v : Word) : (flexspi permits fspi).Stable (Loaded fspi s₀ v) := by
  rintro a s s' t ⟨htracked, hcarried, hstanding⟩ hact
  refine ⟨stable_tracked a s s' t htracked hact, ?_⟩
  rw [errors_act]
  exact ⟨hcarried, fun h => by simp [hstanding h]⟩

/-- What the driver stores to `INTR` carries bit 3 exactly when the load before has found it, and
then it is still set. -/
def StoresBack (fspi : Nat) (s₀ : Bus) : Head bus → Assertion bus Bus DeviceAction :=
  fun d s t => ∀ v, d = .call (.store (fspi + Reg.intr) v) →
    v.getLsbD cmdError = (errors fspi s₀ t).carried ∧
      ((errors fspi s₀ t).carried = true → s.dev.intr.getLsbD cmdError = true)

lemma storesBack_of_ne {d : Head bus} (h : ∀ v, d ≠ .call (.store (fspi + Reg.intr) v)) (s : Bus)
    (t : BusTrace) : StoresBack fspi s₀ d s t :=
  fun v hd => absurd hd (h v)

lemma waitBit_tracked {n : Nat} (hn : n < 32) :
    (flexspi permits fspi).Triple (StoresBack fspi s₀) (Tracked fspi s₀)
      (waitBit (fspi + Reg.intr) n) fun _ => Tracked fspi s₀ := by
  have hspin : ∀ s t v, Tracked fspi s₀ s t →
      Tracked fspi s₀ s (t ++ [.spin ⟨fspi + Reg.intr, n⟩ v]) := fun s t v h => by
    rwa [Tracked, errors_spin]
  exact waitBit_triple hn stable_tracked stable_tracked
    (fun s t _ => storesBack_of_ne (by rintro _ ⟨⟩) s t)
    (fun s t h _ => hspin s t _ h) fun s t h _ => hspin s t _ h

/-- A rewrite of `INTR`, with a bit added or not. -/
lemma rewrite_tracked {m : Word} (hm : m.getLsbD cmdError = false) :
    (flexspi permits fspi).Triple (StoresBack fspi s₀) (Tracked fspi s₀)
      (orReg (fspi + Reg.intr) m) fun _ => Tracked fspi s₀ := by
  refine Triple.bind (Q := Loaded fspi s₀) ?_ fun v => ?_
  · refine load_triple stable_tracked stable_loaded
      (fun s t _ => storesBack_of_ne (by rintro _ ⟨⟩) s t) ?_
    intro s t h
    simp only [Tracked] at h
    simp [Loaded, Tracked, h]
  · refine store_triple (stable_loaded v) stable_tracked ?_ ?_
    · rintro s t ⟨htracked, hcarried, hstanding⟩ v' hd
      cases hd
      rw [BitVec.getLsbD_or, hm, Bool.or_false]
      exact ⟨hcarried, fun h => htracked.trans (hstanding h)⟩
    · rintro s t ⟨htracked, hcarried, -⟩
      have hlt : decide (cmdError < 32) = true := by decide
      simp only [Tracked] at htracked ⊢
      rw [errors_store, if_pos rfl, Controller.store_intr, BitVec.getLsbD_and, BitVec.getLsbD_not,
        BitVec.getLsbD_or, htracked, hcarried, hm, hlt, Bool.or_false, Bool.true_and]

lemma tracked_invariant :
    FlagInvariant permits fspi (StoresBack fspi s₀) (Tracked fspi s₀) where
  stable := stable_tracked
  away o s t ho h := by
    refine ⟨storesBack_of_ne ?_ s t, ?_⟩
    · rintro v ⟨⟩
      exact ho.1 rfl
    · simp only [Tracked] at h ⊢
      rw [(exec_away ho s).1, h]
      cases o with
      | load a => rw [errors_load, if_neg ho]
      | store a v => rw [errors_store, if_neg ho.1]
      | _ => exact (congrArg ErrorWatch.standing (Monitor.after_snoc _ _ _)).symm
  wait flag hflag := waitBit_tracked (by rcases hflag with rfl | rfl <;> decide)
  rewrite m _ hm := rewrite_tracked hm

/-- A load changes nothing. -/
lemma load_tracked (off : Nat) :
    (flexspi permits fspi).Triple (StoresBack fspi s₀) (Tracked fspi s₀) (load (fspi + off))
      fun _ => Tracked fspi s₀ := by
  refine load_triple stable_tracked (fun _ => stable_tracked)
    (fun s t _ => storesBack_of_ne (by rintro _ ⟨⟩) s t) fun s t h => ?_
  simp only [Tracked] at h ⊢
  rw [errors_load, h]
  split <;> rfl

/-- The command is set up and triggered, and the data are moved. -/
lemma transferBlocking_tracked (xfer : FlexspiTransfer) :
    (flexspi permits fspi).Triple (StoresBack fspi s₀) (Tracked fspi s₀)
      (transferBlocking fspi xfer) fun _ => Tracked fspi s₀ := by
  have hinv : FlagInvariant permits fspi (StoresBack fspi s₀) (Tracked fspi s₀) :=
    tracked_invariant
  have htrigger : (flexspi permits fspi).Triple (StoresBack fspi s₀) (Tracked fspi s₀)
      (orReg (fspi + Reg.ipcmd) 1#32) fun _ => Tracked fspi s₀ := by
    refine Triple.bind (load_tracked _) fun v => store_triple stable_tracked stable_tracked
      (fun s t _ => storesBack_of_ne (fun v h => ?_) s t) fun s t h => ?_
    · injection h with h
      injection h with h
      exact absurd (Nat.add_left_cancel h) (by decide)
    · have hne : Reg.ipcmd ≠ Reg.intr := by decide
      simp only [Tracked] at h ⊢
      simp [Controller.store, hne, h]
  rw [transferBlocking_eq, startCommand, setupCommand_eq]
  refine Triple.bind (Q := fun _ => Tracked fspi s₀) ?_ fun _ => ?_
  · refine Triple.bind (Q := fun _ => Tracked fspi s₀) ?_ fun _ => htrigger
    exact Triple.bind (hinv.keeps (away_flshcr2 xfer.port)) fun _ =>
      Triple.bind hinv.clearFlags fun _ => hinv.keeps (programCommand_away xfer)
  · refine Triple.bind ((hinv.moveData (fun s t _ => ?_) xfer).post fun _ _ _ h => h.1) fun r => ?_
    · exact storesBack_of_ne (by rintro _ ⟨⟩) s t
    · refine Triple.bind (waitBit_tracked (by decide)) fun _ => ?_
      split
      · exact Triple.bind (hinv.rewrite _ (by decide) (by decide)) fun _ =>
          Triple.ret stable_tracked fun _ _ => id
      · exact Triple.ret stable_tracked fun _ _ => id

/-- **The accesses of the public transfers.** -/
lemma run_tracked (kind : Transfer) (ctx : QspiContext) (addr : Word) (buffer : Nat)
    (size : BitVec 64) :
    (flexspi permits ctx.flexspi).Triple (StoresBack ctx.flexspi s₀) (Tracked ctx.flexspi s₀)
      (kind.run ctx addr buffer size) fun _ => Tracked ctx.flexspi s₀ := by
  have hlogged : ∀ xfer, (flexspi permits ctx.flexspi).Triple (StoresBack ctx.flexspi s₀)
      (Tracked ctx.flexspi s₀) (loggedTransfer ctx.flexspi xfer)
      fun _ => Tracked ctx.flexspi s₀ := fun xfer =>
    Triple.bind (transferBlocking_tracked xfer) fun _ => Triple.bind (load_tracked _) fun _ =>
      Triple.bind (load_tracked _) fun _ => Triple.bind (load_tracked _) fun _ =>
        Triple.ret stable_tracked fun _ _ => id
  have hcheck : ∀ c [Decidable c], (flexspi permits ctx.flexspi).Triple
      (StoresBack ctx.flexspi s₀) (Tracked ctx.flexspi s₀) (check c)
      fun _ => Tracked ctx.flexspi s₀ := fun c _ =>
    (Triple.check stable_tracked fun s t _ _ =>
      storesBack_of_ne (by rintro _ ⟨⟩) s t).post fun _ _ _ h => h.1
  cases kind with
  | write lutIndex => exact hlogged _
  | read => exact Triple.bind (hcheck _) fun _ => hlogged _
  | readSample => exact Triple.bind (hcheck _) fun _ => hlogged _

/-! ## The return of `transfer_blocking` -/

/-- Since its last store to `INTR` the program has done exactly `l`. -/
def SinceStore (fspi : Nat) (l : BusTrace) : Assertion bus Bus DeviceAction :=
  fun _ t => ∃ t₁ v t₂, t = t₁ ++ .call (.store (fspi + Reg.intr) v) () :: t₂ ∧ ownEvents t₂ = l

lemma stable_sinceStore (l : BusTrace) : (flexspi permits fspi).Stable (SinceStore fspi l) := by
  rintro a s s' t ⟨t₁, v, t₂, rfl, hown⟩ -
  exact ⟨t₁, v, t₂ ++ [.act a], by simp, by rw [ownEvents_act, hown]⟩

lemma load_sinceStore (l : BusTrace) (off : Nat) :
    (flexspi permits fspi).Triple noGuarantee (SinceStore fspi l) (load (fspi + off))
      fun v => SinceStore fspi (l ++ [.call (.load (fspi + off)) v]) := by
  refine load_triple (stable_sinceStore l) (fun v => stable_sinceStore _) (fun _ _ _ => trivial) ?_
  rintro s t ⟨t₁, v, t₂, rfl, hown⟩
  exact ⟨t₁, v, t₂ ++ [.call (.load (fspi + off)) (s.dev.load off)], by simp,
    by rw [ownEvents_call, hown]⟩

/-- The last access of `transfer_blocking` is the store of the acknowledge. -/
lemma transferBlocking_sinceStore (xfer : FlexspiTransfer) :
    (flexspi permits fspi).Triple noGuarantee (fun _ _ => True) (transferBlocking fspi xfer)
      fun _ => SinceStore fspi [] := by
  have hstore : ∀ v, (flexspi permits fspi).Triple noGuarantee (fun _ _ => True)
      (store (fspi + Reg.intr) v) fun _ => SinceStore fspi [] := fun v =>
    store_triple stable_true (stable_sinceStore []) (fun _ _ _ => trivial) fun s t _ =>
      ⟨t, v, [], rfl, rfl⟩
  refine Triple.bind (Triple.any _) fun _ => Triple.bind (Triple.any _) fun _ => ?_
  refine Triple.bind (moveData_result xfer) fun r => ?_
  rintro s t rfl
  have hawait : (flexspi permits fspi).Triple noGuarantee (fun _ _ => True) (awaitCommand fspi 0)
      fun _ => SinceStore fspi [] := by
    rw [awaitCommand, if_pos rfl]
    refine Triple.bind (Triple.any _) fun _ => Triple.bind (Q := fun _ => SinceStore fspi []) ?_
      fun _ => Triple.ret (stable_sinceStore []) fun _ _ => id
    exact Triple.bind (Triple.any _) fun _ => hstore _
  exact hawait s t trivial

/-- The loads of `LOG_REGISTER` behind a transfer. -/
def reportLoads (fspi : Nat) (sts0 sts1 intr : Word) : BusTrace :=
  [.call (.load (fspi + Reg.sts0)) sts0, .call (.load (fspi + Reg.sts1)) sts1,
    .call (.load (fspi + Reg.intr)) intr]

/-- Behind its last store to `INTR` a public transfer only makes the loads of `LOG_REGISTER`. -/
lemma run_sinceStore (kind : Transfer) (ctx : QspiContext) (addr : Word) (buffer : Nat)
    (size : BitVec 64) :
    (flexspi permits ctx.flexspi).Triple noGuarantee (fun _ _ => True)
      (kind.run ctx addr buffer size) fun _ s t => ∃ sts0 sts1 intr,
        SinceStore ctx.flexspi (reportLoads ctx.flexspi sts0 sts1 intr) s t := by
  have hlogged : ∀ xfer, (flexspi permits ctx.flexspi).Triple noGuarantee (fun _ _ => True)
      (loggedTransfer ctx.flexspi xfer) fun _ s t => ∃ sts0 sts1 intr,
        SinceStore ctx.flexspi (reportLoads ctx.flexspi sts0 sts1 intr) s t := fun xfer =>
    Triple.bind (transferBlocking_sinceStore xfer) fun _ =>
      Triple.bind (load_sinceStore [] Reg.sts0) fun sts0 =>
        Triple.bind (load_sinceStore _ Reg.sts1) fun sts1 =>
          Triple.bind (load_sinceStore _ Reg.intr) fun intr =>
            Triple.ret (stable_exists fun _ => stable_exists fun _ => stable_exists fun _ =>
              stable_sinceStore _) fun _ _ h => ⟨sts0, sts1, intr, h⟩
  cases kind with
  | write lutIndex => exact hlogged _
  | read => exact Triple.bind (Triple.any _) fun _ => hlogged _
  | readSample => exact Triple.bind (Triple.any _) fun _ => hlogged _

end QspiTool
