import QspiTool.Device.ErrorWatch

/-!
# Which device errors are reported

No transfer looks at the error flag, so a transfer that returns, returns 0, and whatever errors its
stores to `INTR` erase are lost.  The last of these stores is the last access of
`transfer_blocking`, so an error is erased exactly when it has been flagged before the load that
goes with that store.  `QSPI_Busy` looks at the flag, and only then clears flags, with a second
load of `INTR`: an error that comes up between the two loads is cleared and not reported.

Two monitors say when the device flags its errors: `errorWatch` for errors between the trigger and
the return of `transfer_blocking`, `gapWatch` for an error in the gap of `QSPI_Busy`.
-/

namespace QspiTool

open Words Interaction Machine

variable {permits : Permits} {fspi : Nat} {s₀ : Bus}

/-! ## What it is to report an error -/

/-- The driver is about to clear the error flag. -/
def ClearsError (fspi : Nat) (c : Config bus Bus DeviceAction Int) : Prop :=
  ∃ v, c.prog.head = .call (.store (fspi + Reg.intr) v) ∧ v.getLsbD cmdError = true ∧
    c.state.dev.intr.getLsbD cmdError = true

/-- No store clears an error flagged since the trigger unless the call returns an error value. -/
def KeepsErrors (permits : Permits) (fspi : Nat) (c₀ c : Config bus Bus DeviceAction Int) : Prop :=
  (∃ c', (flexspi permits fspi).Reach c₀ c' ∧ (flexspi permits fspi).Reach c' c ∧
    ErrorFlagged fspi c₀.state c'.trace ∧ ClearsError fspi c') → c.prog.value? ≠ some 0

/-- A transfer reports its errors: it keeps them, and `transfer_blocking` returns 0 only when none
was flagged between the trigger and its return. -/
def TransferReports (permits : Permits) (fspi : Nat) (c₀ c : Config bus Bus DeviceAction Int) :
    Prop :=
  KeepsErrors permits fspi c₀ c ∧
    (c.prog.value? = some 0 → ¬ ErrorInTransfer fspi c₀.state c.trace)

/-- `QSPI_Busy` reports its errors: no store clears an error unless the call returns an error
value. -/
def BusyReports (permits : Permits) (fspi : Nat) (c₀ c : Config bus Bus DeviceAction Int) :
    Prop :=
  (∃ c', (flexspi permits fspi).Reach c₀ c' ∧ (flexspi permits fspi).Reach c' c ∧
    ClearsError fspi c') → c.prog.value? ≠ some 0

/-! ## What a transfer erases -/

/-- Where an error has been flagged and the driver is about to erase bit 3, an error is erased. -/
lemma erased_of_clears {p : Driver Int} {s₁ : Bus} {t₁ : BusTrace}
    {c : Config bus Bus DeviceAction Int}
    (hstores : StoresBack fspi s₀ p.head s₁ t₁) (hflagged : ErrorFlagged fspi s₀ t₁)
    (hclears : ClearsError fspi ⟨p, s₁, t₁⟩) (hlater : (flexspi permits fspi).Reach ⟨p, s₁, t₁⟩ c)
    (hret : c.prog.head = .done) : ErrorErased fspi s₀ c.trace := by
  obtain ⟨v, hhead, hv, -⟩ := hclears
  have hcarried : (errors fspi s₀ t₁).carried = true := (hstores v hhead).1.symm.trans hv
  have hdoomed : (errors fspi s₀ t₁).Doomed := ⟨hflagged, .inr hcarried⟩
  obtain ⟨t₂, ⟨⟩, t₃, htrace⟩ := hlater.exists_call hhead (by rw [hret]; rintro ⟨⟩)
  -- the error stays doomed up to the store, and erased behind it
  have hbefore : (errors fspi s₀ (t₁ ++ t₂)).Doomed :=
    Monitor.keeps_append (errorWatch fspi (s₀.dev.intr.getLsbD cmdError)) doomed_next hdoomed t₂
  have hbehind : (errors fspi s₀
      (t₁ ++ t₂ ++ [.call (.store (fspi + Reg.intr) v) ()])).Doomed ∧
      (errors fspi s₀ (t₁ ++ t₂ ++ [.call (.store (fspi + Reg.intr) v) ()])).erased = true := by
    rw [errors_store, if_pos rfl]
    exact ⟨hbefore, by simpa [ErrorWatch.Doomed] using hbefore⟩
  have hend := Monitor.keeps_append (errorWatch fspi (s₀.dev.intr.getLsbD cmdError))
    (φ := fun q => q.Doomed ∧ ErrorWatch.erased q = true) erased_next hbehind t₃
  rw [ErrorErased, htrace, List.append_cons]
  exact hend.2

/-- An erased error has been about to be erased. -/
lemma exists_clears_of_erased {c₀ c : Config bus Bus DeviceAction Int}
    (hstores : ∀ c', (flexspi permits fspi).Reach c₀ c' → c'.prog.head ≠ .done →
      StoresBack fspi c₀.state c'.prog.head c'.state c'.trace)
    (hstart : c₀.trace = []) (hreach : (flexspi permits fspi).Reach c₀ c)
    (herased : ErrorErased fspi c₀.state c.trace) :
    ∃ c', (flexspi permits fspi).Reach c₀ c' ∧ (flexspi permits fspi).Reach c' c ∧
      ErrorFlagged fspi c₀.state c'.trace ∧ ClearsError fspi c' := by
  obtain ⟨t₁, e, t₂, htrace, hfirst, hturn⟩ :=
    Monitor.exists_turn (errorWatch fspi (c₀.state.dev.intr.getLsbD cmdError))
      (φ := fun q => ErrorWatch.erased q = true) (fun h => nomatch h) herased
  have hstore : (∃ v, e = .call (.store (fspi + Reg.intr) v) ()) ∧
      (errors fspi c₀.state t₁).Doomed := store_of_erased hfirst hturn
  obtain ⟨⟨v, rfl⟩, hdoomed⟩ := hstore
  obtain ⟨c', hbefore, hlater, htrace', hhead⟩ :=
    hreach.exists_of_trace (t := t₁) (by rw [htrace, hstart]; rfl)
  rw [hstart, List.nil_append] at htrace'
  have hback := hstores c' hbefore (by rw [hhead]; rintro ⟨⟩) v hhead
  rw [htrace'] at hback
  -- what has been seen and is not erased yet has been carried
  have hcarried : (errors fspi c₀.state t₁).carried = true :=
    hdoomed.2.elim (fun hseen => ((errors_accounted t₁).seen hseen).resolve_right hfirst) id
  exact ⟨c', hbefore, hlater, htrace' ▸ hdoomed.1, v, hhead, hback.1.trans hcarried,
    hback.2 hcarried⟩

/-- A returned transfer keeps its errors exactly when none is erased. -/
lemma keepsErrors_iff {ctx : QspiContext} {kind : Transfer} {addr : Word} {buffer : Nat}
    {size : BitVec 64} {c : Config bus Bus DeviceAction Int}
    (hreach : (flexspi permits ctx.flexspi).Reach ⟨kind.run ctx addr buffer size, s₀, []⟩ c)
    (hret : c.prog.head = .done) :
    KeepsErrors permits ctx.flexspi ⟨kind.run ctx addr buffer size, s₀, []⟩ c ↔
      ¬ ErrorErased ctx.flexspi s₀ c.trace := by
  have hstores : ∀ c', (flexspi permits ctx.flexspi).Reach
      ⟨kind.run ctx addr buffer size, s₀, []⟩ c' → c'.prog.head ≠ .done →
      StoresBack ctx.flexspi s₀ c'.prog.head c'.state c'.trace := fun c' =>
    (run_tracked kind ctx addr buffer size).guarantee (show Tracked ctx.flexspi s₀ s₀ [] from rfl)
  have hzero : c.prog.value? = some 0 := by
    obtain ⟨p, s', t'⟩ := c
    obtain ⟨r, rfl⟩ := Prog.exists_ret_of_head hret
    obtain rfl := (run_result kind ctx addr buffer size).returns trivial hreach
    rfl
  constructor
  · exact fun hkeeps herased => hkeeps (exists_clears_of_erased hstores rfl hreach herased) hzero
  · rintro herased ⟨⟨p, s₁, t₁⟩, hbefore, hlater, hflagged, hclears⟩
    obtain ⟨v, hhead, -⟩ := id hclears
    exact absurd (erased_of_clears (hstores _ hbefore (by rw [hhead]; rintro ⟨⟩)) hflagged hclears
      hlater hret) herased

/-! ## `QSPI_Busy` -/

/-- How many accesses have been made, whether an error has been flagged right behind the fifth,
and whether a sixth access has followed such an error. -/
structure GapWatch where
  accesses : Nat
  pending : Bool
  lost : Bool
  deriving DecidableEq

/-- Watches the gap between the fifth and the sixth access: `QSPI_Busy` takes its answer from
the fifth, and the sixth is the load of `clear_flags`. -/
def gapWatch : Monitor bus DeviceAction where
  State := GapWatch
  init := ⟨0, false, false⟩
  next q e := match e with
    | .call _ _ =>
        { q with
          accesses := q.accesses + 1
          lost := q.lost || (decide (q.accesses = 5) && q.pending) }
    | .act a =>
        { q with pending := q.pending || (decide (q.accesses = 5) && a.flags.getLsbD cmdError) }
    | .spin _ _ => q

/-- What the watch says after a run. -/
def gap (t : BusTrace) : GapWatch := gapWatch.after t

@[simp] lemma gap_call (t : BusTrace) (o : Access) (r : o.Res) :
    gap (t ++ [.call o r]) = { gap t with
      accesses := (gap t).accesses + 1
      lost := (gap t).lost || (decide ((gap t).accesses = 5) && (gap t).pending) } :=
  Monitor.after_snoc _ _ _

@[simp] lemma gap_act (t : BusTrace) (a : DeviceAction) :
    gap (t ++ [.act a]) = { gap t with
      pending := (gap t).pending ||
        (decide ((gap t).accesses = 5) && a.flags.getLsbD cmdError) } :=
  Monitor.after_snoc _ _ _

@[simp] lemma gap_spin (t : BusTrace) (w : BitWait) (v : Word) :
    gap (t ++ [.spin w v]) = gap t :=
  Monitor.after_snoc _ _ _

/-- An error has been flagged between the fifth and the sixth access. -/
def ErrorInGap (t : BusTrace) : Prop := (gap t).lost = true

instance (t : BusTrace) : Decidable (ErrorInGap t) := inferInstanceAs (Decidable (_ = _))

lemma ErrorInGap.append {t : BusTrace} (h : ErrorInGap t) (u : BusTrace) :
    ErrorInGap (t ++ u) := by
  refine Monitor.keeps_append gapWatch (φ := fun q => GapWatch.lost q = true) ?_ h u
  intro q e hq
  rcases e with ⟨o, r⟩ | ⟨w, r⟩ | a <;> simp [gapWatch, hq]

/-- `k` accesses have been made and no error is in the gap. -/
def BeforeGap (k : Nat) : Assertion bus Bus DeviceAction :=
  fun _ t => gap t = ⟨k, false, false⟩

lemma stable_beforeGap {k : Nat} (hk : k < 5) : (flexspi permits fspi).Stable (BeforeGap k) := by
  intro a s s' t h _
  have hne : k ≠ 5 := by omega
  simp only [BeforeGap] at h ⊢
  simp [h, hne]

/-- The answer `v` has been loaded; an error that is not in it is in the gap. -/
def InGap (v : Word) : Assertion bus Bus DeviceAction :=
  fun s t => (gap t).accesses = 5 ∧ (gap t).lost = false ∧
    (v.getLsbD cmdError = false →
      (gap t).pending = s.dev.intr.getLsbD cmdError)

lemma stable_inGap (v : Word) : (flexspi permits fspi).Stable (InGap v) := by
  rintro a s s' t ⟨haccesses, hlost, hpending⟩ hact
  obtain rfl := act_eq hact
  rw [InGap, gap_act]
  refine ⟨haccesses, hlost, fun hv => ?_⟩
  simp [haccesses, hpending hv, Controller.perform_intr]

/-- `clear_flags` has loaded `v`. -/
def BehindGap (v : Word) : Assertion bus Bus DeviceAction :=
  fun s t => 6 ≤ (gap t).accesses ∧
    (gap t).lost = v.getLsbD cmdError ∧
    (v.getLsbD cmdError = true → s.dev.intr.getLsbD cmdError = true)

lemma stable_behindGap (v : Word) : (flexspi permits fspi).Stable (BehindGap v) := by
  rintro a s s' t ⟨haccesses, hlost, hflag⟩ hact
  rw [BehindGap, gap_act]
  exact ⟨haccesses, hlost, fun hv => (act_spec hact).2.2.2.1 _ (hflag hv)⟩

/-- A store to `INTR` that carries the error flag has been recorded. -/
def StoredError (fspi : Nat) (t : BusTrace) : Prop :=
  ∃ t₁ v t₂, t = t₁ ++ .call (.store (fspi + Reg.intr) v) () :: t₂ ∧ v.getLsbD cmdError = true

lemma StoredError.append {t : BusTrace} (h : StoredError fspi t) (u : BusTrace) :
    StoredError fspi (t ++ u) := by
  obtain ⟨t₁, v, t₂, rfl, hv⟩ := h
  exact ⟨t₁, v, t₂ ++ u, by simp, hv⟩

/-- The gap is behind, and an error in it has been stored back. -/
def GapSettled (fspi : Nat) : Assertion bus Bus DeviceAction :=
  fun _ t => 6 ≤ (gap t).accesses ∧ (ErrorInGap t → StoredError fspi t)

lemma gapSettled_snoc {t : BusTrace} {s : Bus} (h : GapSettled fspi s t) (s' : Bus)
    (e : Event bus DeviceAction) : GapSettled fspi s' (t ++ [e]) := by
  obtain ⟨haccesses, hstored⟩ := h
  have hne : (gap t).accesses ≠ 5 := by omega
  cases e with
  | call o r =>
    refine ⟨?_, fun hgap => (hstored ?_).append _⟩
    · rw [gap_call]
      exact Nat.le_succ_of_le haccesses
    · simpa [ErrorInGap, hne] using hgap
  | spin w r =>
    refine ⟨by rwa [gap_spin], fun hgap => ?_⟩
    rw [ErrorInGap, gap_spin] at hgap
    exact (hstored hgap).append _
  | act a =>
    refine ⟨by rwa [gap_act], fun hgap => ?_⟩
    rw [ErrorInGap, gap_act] at hgap
    exact (hstored hgap).append _

/-- What `QSPI_Busy` does: it clears an error only when the error is in the gap. -/
def ClearsInGap (fspi : Nat) : Head bus → Assertion bus Bus DeviceAction :=
  fun d s t => ∀ v, d = .call (.store (fspi + Reg.intr) v) → v.getLsbD cmdError = true →
    s.dev.intr.getLsbD cmdError = true ∧ ErrorInGap t

lemma load_beforeGap {k : Nat} (hk : k < 4) (off : Nat) :
    (flexspi permits fspi).Triple (ClearsInGap fspi) (BeforeGap k) (load (fspi + off))
      fun _ => BeforeGap (k + 1) := by
  refine load_triple (stable_beforeGap (by omega)) (fun _ => stable_beforeGap (by omega))
    (fun _ _ _ _ h => nomatch h) fun s t h => ?_
  have hne : k ≠ 5 := by omega
  simp only [BeforeGap] at h ⊢
  simp [h]

/-- The load the answer is taken from. -/
lemma load_answer :
    (flexspi permits fspi).Triple (ClearsInGap fspi) (BeforeGap 4) (load (fspi + Reg.intr))
      InGap := by
  refine load_triple (stable_beforeGap (by decide)) stable_inGap (fun _ _ _ _ h => nomatch h)
    fun s t h => ?_
  simp only [BeforeGap] at h
  simp [InGap, h]

/-- The load of `INTR` in `clear_flags` is the sixth access. -/
lemma load_behindGap {v : Word} (hv : v.getLsbD cmdError = false) :
    (flexspi permits fspi).Triple (ClearsInGap fspi) (InGap v) (load (fspi + Reg.intr))
      BehindGap := by
  refine load_triple (stable_inGap v) stable_behindGap (fun _ _ _ _ h => nomatch h) ?_
  rintro s t ⟨haccesses, hlost, hpending⟩
  rw [BehindGap, gap_call]
  simp [haccesses, hlost, hpending hv]

lemma gapSettled_away : AwayInvariant permits fspi (ClearsInGap fspi) (GapSettled fspi) where
  stable a s s' t h _ := gapSettled_snoc h s' _
  away o s t ho h := by
    refine ⟨?_, gapSettled_snoc h _ _⟩
    rintro v hhead -
    injection hhead with hhead
    subst hhead
    exact absurd rfl ho.1

/-- The store behind it writes an error in the gap back. -/
lemma store_behindGap (u : Word) :
    (flexspi permits fspi).Triple (ClearsInGap fspi) (BehindGap u) (store (fspi + Reg.intr) u)
      fun _ => GapSettled fspi := by
  refine store_triple (stable_behindGap u) gapSettled_away.stable ?_ ?_
  · rintro s t ⟨-, hlost, hflag⟩ v' hhead hv'
    cases hhead
    exact ⟨hflag hv', by rw [ErrorInGap, hlost, hv']⟩
  · rintro s t ⟨haccesses, hlost, -⟩
    have hne : (gap t).accesses ≠ 5 := by omega
    refine ⟨?_, fun hgap => ⟨t, u, [], rfl, ?_⟩⟩
    · rw [gap_call]
      exact Nat.le_succ_of_le haccesses
    · rw [← hlost]
      simpa [ErrorInGap, hne] using hgap

lemma clearFlags_gap {v : Word} (hv : v.getLsbD cmdError = false) :
    (flexspi permits fspi).Triple (ClearsInGap fspi) (InGap v) (clearFlags fspi)
      fun _ => GapSettled fspi :=
  Triple.bind (load_behindGap hv) fun u => Triple.bind (store_behindGap u) fun _ =>
    gapSettled_away.keeps clearStatus_away

/-- The answer of `QSPI_Busy`: where an error is in the gap, it is stored back and the answer
is 0. -/
def GapAnswer (fspi : Nat) (r : Int) : Assertion bus Bus DeviceAction :=
  fun _ t => ErrorInGap t → r = 0 ∧ StoredError fspi t

lemma stable_gapAnswer (r : Int) : (flexspi permits fspi).Stable (GapAnswer fspi r) := by
  intro a s s' t h _ hgap
  rw [ErrorInGap, gap_act] at hgap
  obtain ⟨hr, hstored⟩ := h hgap
  exact ⟨hr, hstored.append _⟩

/-- No error is in the gap where the answer is given at once. -/
lemma answer_inGap {P : Assertion bus Bus DeviceAction} (hP : ∀ s t, P s t → (gap t).lost = false)
    (r : Int) : (flexspi permits fspi).Triple (ClearsInGap fspi) P (.ret r) (GapAnswer fspi) := by
  refine Triple.ret (stable_gapAnswer r) fun s t h hgap => ?_
  rw [ErrorInGap, hP s t h] at hgap
  cases hgap

/-- **The accesses of `QSPI_Busy`.** -/
lemma qspiBusy_gap (ctx : QspiContext) :
    (flexspi permits ctx.flexspi).Triple (ClearsInGap ctx.flexspi) (BeforeGap 0) (qspiBusy ctx)
      (GapAnswer ctx.flexspi) := by
  unfold qspiBusy
  split
  · exact answer_inGap (fun s t h => by rw [h]) 1
  refine Triple.bind (load_beforeGap (by decide) _) fun _ => ?_
  refine Triple.bind (load_beforeGap (by decide) _) fun _ => ?_
  refine Triple.bind (load_beforeGap (by decide) _) fun _ => ?_
  refine Triple.bind (load_beforeGap (by decide) _) fun _ => ?_
  refine Triple.bind load_answer fun v => ?_
  split
  · exact answer_inGap (fun s t h => h.2.1) (-1)
  rename_i hv
  rw [and_bit_ne_zero _ (by decide), Bool.not_eq_true] at hv
  split
  · refine Triple.bind (clearFlags_gap hv) fun _ => ?_
    exact Triple.ret (stable_gapAnswer 0) fun s t h hgap => ⟨rfl, h.2 hgap⟩
  · exact answer_inGap (fun s t h => h.2.1) 1

/-! ## When no error is lost -/

/-- A returned transfer reports its errors exactly when there was none. -/
lemma transferReports_iff {ctx : QspiContext} {kind : Transfer} {addr : Word} {buffer : Nat}
    {size : BitVec 64} {s : Bus} {c : Config bus Bus DeviceAction Int}
    (hreach : (flexspi permits ctx.flexspi).Reach ⟨kind.run ctx addr buffer size, s, []⟩ c)
    (hret : c.prog.head = .done) :
    TransferReports permits ctx.flexspi ⟨kind.run ctx addr buffer size, s, []⟩ c ↔
      ¬ ErrorInTransfer ctx.flexspi s c.trace := by
  have hkeeps := keepsErrors_iff hreach hret
  obtain ⟨p, s', t'⟩ := c
  obtain ⟨r, rfl⟩ := Prog.exists_ret_of_head hret
  obtain rfl := (run_result kind ctx addr buffer size).returns trivial hreach
  constructor
  · exact fun hreports => hreports.2 rfl
  · intro hclean
    -- an erased error has been flagged before the store that erased it
    exact ⟨hkeeps.mpr fun herased => hclean ((errors_accounted _).acknowledged herased),
      fun _ => hclean⟩

/-- A returned `QSPI_Busy` reports its errors exactly when none came up in its gap. -/
lemma busyReports_iff {ctx : QspiContext} {s : Bus} {c : Config bus Bus DeviceAction Int}
    (hreach : (flexspi permits ctx.flexspi).Reach ⟨qspiBusy ctx, s, []⟩ c)
    (hret : c.prog.head = .done) :
    BusyReports permits ctx.flexspi ⟨qspiBusy ctx, s, []⟩ c ↔ ¬ ErrorInGap c.trace := by
  have hstart : BeforeGap 0 s [] := rfl
  have hclears : ∀ c', (flexspi permits ctx.flexspi).Reach ⟨qspiBusy ctx, s, []⟩ c' →
      c'.prog.head ≠ .done → ClearsInGap ctx.flexspi c'.prog.head c'.state c'.trace :=
    fun c' => (qspiBusy_gap ctx).guarantee hstart
  obtain ⟨p, s', t'⟩ := c
  obtain ⟨r, rfl⟩ := Prog.exists_ret_of_head hret
  constructor
  · intro hreports hgap
    obtain ⟨rfl, t₁, v, t₂, rfl, hv⟩ := (qspiBusy_gap ctx).returns hstart hreach hgap
    obtain ⟨c', hbefore, hlater, -, hhead⟩ := hreach.exists_of_trace (t := t₁) rfl
    exact hreports ⟨c', hbefore, hlater, v, hhead, hv,
      (hclears c' hbefore (by simp [hhead]) v hhead hv).1⟩ rfl
  · rintro hgap ⟨c', hbefore, hlater, v, hhead, hv, -⟩
    obtain ⟨u, hu⟩ := hlater.trace_prefix
    exact absurd (hu ▸ ((hclears c' hbefore (by simp [hhead]) v hhead hv).2.append u)) hgap

/-- **When device errors are reported.**  A transfer keeps its errors in exactly the runs in which
none is flagged between the trigger and the load of the acknowledge, and none behind that load
while one from before the trigger stands; it reports them in exactly the runs in which the device
flags none between the trigger and the return of `transfer_blocking`, behind whose last store only
the loads of `LOG_REGISTER` follow.  `QSPI_Busy` does so in exactly the runs in which none is
flagged between the load it takes its answer from and the next access. -/
theorem errors_reported_iff (permits : Permits) (ctx : QspiContext) (s : Bus) :
    (∀ (kind : Transfer) (addr : Word) (buffer : Nat) (size : BitVec 64)
        (c : Config bus Bus DeviceAction Int),
      (flexspi permits ctx.flexspi).Reach ⟨kind.run ctx addr buffer size, s, []⟩ c →
      c.prog.head = .done →
      (KeepsErrors permits ctx.flexspi ⟨kind.run ctx addr buffer size, s, []⟩ c ↔
        ¬ ErrorErased ctx.flexspi s c.trace) ∧
      (TransferReports permits ctx.flexspi ⟨kind.run ctx addr buffer size, s, []⟩ c ↔
        ¬ ErrorInTransfer ctx.flexspi s c.trace) ∧
      ∃ sts0 sts1 intr,
        SinceStore ctx.flexspi (reportLoads ctx.flexspi sts0 sts1 intr) c.state c.trace) ∧
    ∀ c : Config bus Bus DeviceAction Int,
      (flexspi permits ctx.flexspi).Reach ⟨qspiBusy ctx, s, []⟩ c → c.prog.head = .done →
      (BusyReports permits ctx.flexspi ⟨qspiBusy ctx, s, []⟩ c ↔ ¬ ErrorInGap c.trace) := by
  refine ⟨fun kind addr buffer size c hreach hret => ?_, fun c hreach hret =>
    busyReports_iff hreach hret⟩
  refine ⟨keepsErrors_iff hreach hret, transferReports_iff hreach hret, ?_⟩
  obtain ⟨p, s', t'⟩ := c
  obtain ⟨r, rfl⟩ := Prog.exists_ret_of_head hret
  exact (run_sinceStore kind ctx addr buffer size).returns trivial hreach

/-- A write of no bytes with an error behind the return of `transfer_blocking`, and `QSPI_Busy`
while a command is done. -/
theorem errors_reported_clean :
    (∃ c, (flexspi anyAction 4096).Reach
        ⟨qspiWrite readyContext 0#32 0#8 100 0#64, ⟨Controller.reset, fun _ => 0#8⟩, []⟩ c ∧
      c.prog.value? = some 0 ∧
      TransferReports anyAction 4096
        ⟨qspiWrite readyContext 0#32 0#8 100 0#64, ⟨Controller.reset, fun _ => 0#8⟩, []⟩ c) ∧
    ∃ c, (flexspi anyAction 4096).Reach
        ⟨qspiBusy readyContext, ⟨Controller.reset, fun _ => 0#8⟩, []⟩ c ∧
      c.prog.value? = some 0 ∧
      BusyReports anyAction 4096
        ⟨qspiBusy readyContext, ⟨Controller.reset, fun _ => 0#8⟩, []⟩ c := by
  refine ⟨?_, ?_⟩
  · obtain ⟨c, hreach, htest⟩ : ∃ c, (flexspi anyAction 4096).Reach
        ⟨qspiWrite readyContext 0#32 0#8 100 0#64, ⟨Controller.reset, fun _ => 0#8⟩, []⟩ c ∧
        decide (c.prog.value? = some 0 ∧
          ¬ ErrorInTransfer 4096 ⟨Controller.reset, fun _ => 0#8⟩ c.trace) = true :=
      exists_reach_of_run (timed [(17, .raise (bit cmdDone)), (3, .raise (bit cmdError))] 3)
        (by decide +kernel)
    obtain ⟨hret, hclean⟩ := of_decide_eq_true htest
    exact ⟨c, hreach, hret, ((errors_reported_iff anyAction readyContext _).1 (.write 0#8) 0#32
      100 0#64 c hreach (by rw [Prog.eq_ret_of_value? hret]; rfl)).2.1.mpr hclean⟩
  · obtain ⟨c, hreach, htest⟩ : ∃ c, (flexspi anyAction 4096).Reach
        ⟨qspiBusy readyContext, ⟨Controller.reset, fun _ => 0#8⟩, []⟩ c ∧
        decide (c.prog.value? = some 0 ∧ ¬ ErrorInGap c.trace) = true :=
      exists_reach_of_run (timed [(0, .raise (bit cmdDone))] 11) (by decide +kernel)
    obtain ⟨hret, hgap⟩ := of_decide_eq_true htest
    exact ⟨c, hreach, hret, ((errors_reported_iff anyAction readyContext _).2 c hreach
      (by rw [Prog.eq_ret_of_value? hret]; rfl)).mpr hgap⟩

/-- The driver is about to store the error flag to `INTR` of the controller at 4096, while it
is set there and has been flagged since the trigger. -/
def aboutToClear (c : Config bus Bus DeviceAction Int) : Bool :=
  match c.prog with
  | .call (.store a v) _ =>
      decide (a = 4096 + Reg.intr) && v.getLsbD cmdError && c.state.dev.intr.getLsbD cmdError &&
        decide (ErrorFlagged 4096 ⟨Controller.reset, fun _ => 0#8⟩ c.trace)
  | _ => false

/-- **An error is swallowed**: the device flags an error right after the trigger of a write of
four bytes, the first `clear_flags` of `write_blocking` erases it, and the call returns 0. -/
theorem qspiWrite_swallows_error :
    ¬ ∀ (permits : Permits) (ctx : QspiContext) (s : Bus), ctx.initDone = true →
      (∀ (kind : Transfer) (addr : Word) (buffer : Nat) (size : BitVec 64)
          (c : Config bus Bus DeviceAction Int), size.toNat ≤ 1024 →
        (flexspi permits ctx.flexspi).Reach ⟨kind.run ctx addr buffer size, s, []⟩ c →
        c.prog.head = .done →
        TransferReports permits ctx.flexspi ⟨kind.run ctx addr buffer size, s, []⟩ c) ∧
      ∀ c : Config bus Bus DeviceAction Int,
        (flexspi permits ctx.flexspi).Reach ⟨qspiBusy ctx, s, []⟩ c → c.prog.head = .done →
        BusyReports permits ctx.flexspi ⟨qspiBusy ctx, s, []⟩ c := by
  intro hevery
  obtain ⟨c', hbefore, htest⟩ : ∃ c', (flexspi anyAction 4096).Reach
      ⟨qspiWrite readyContext 0#32 0#8 100 4#64, ⟨Controller.reset, fun _ => 0#8⟩, []⟩ c' ∧
      (aboutToClear c' && ((flexspi anyAction 4096).run (timed [(9, .raise (bit cmdDone))] 6)
        c').any fun c => decide (c.prog.value? = some 0)) = true :=
    exists_reach_of_run (timed [(16, .raise (bit cmdError)), (1, .raise (bit txEmpty))] 2)
      (by decide +kernel)
  obtain ⟨hclear, hend⟩ := Bool.and_eq_true_iff.mp htest
  obtain ⟨c, hlater, hdone⟩ := exists_reach_of_run _ hend
  have hret := of_decide_eq_true hdone
  have hreports := (hevery anyAction readyContext _ rfl).1 (.write 0#8) 0#32 100 4#64 c
    (by decide) (hbefore.trans hlater) (by rw [Prog.eq_ret_of_value? hret]; rfl)
  refine hreports.1 ⟨c', hbefore, hlater, ?_⟩ hret
  obtain ⟨p, s, t⟩ := c'
  match p with
  | .call (.store a v) k =>
    simp only [aboutToClear, Bool.and_eq_true, decide_eq_true_eq] at hclear
    obtain ⟨⟨⟨rfl, hv⟩, hset⟩, hflagged⟩ := hclear
    exact ⟨hflagged, v, rfl, hv, hset⟩
  | .ret a | .abort | .poll w k => cases hclear

end QspiTool
