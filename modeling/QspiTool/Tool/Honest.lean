import QspiTool.Tool.Truthful

/-!
# Honest functions

The judgement about the functions of the tool, with a precondition and a postcondition on what the
operations so far tell, and a rule for each thing a function may do: say something, make an
operation, load a register for the log, map a bank or open the memory and say so if that fails.
-/

namespace QspiTool

open Words Interaction Machine Oracle CText View

variable {T : Terms} {P : View → Prop} {m : Message} {ms : List Message} {l : List (Deed bus)}
  {g : Slog} {v : Desk} {α β γ : Type}

/-- `p` is `q` with its log, and honest. -/
def Honest (T : Terms) (P : View → Prop) (p : Tool α) (q : Driver α) (Q : α → View → Prop) :
    Prop :=
  ∀ g v l, Account T g v l → P (T.view.after l) →
    libc.Follows (StopsHonest T) (p.run g) q
      (fun r a v' l' => r.1 = a ∧ Account T r.2 v' l' ∧ Q a (T.view.after l')) v l

variable {Q : α → View → Prop}

lemma stopsHonest_abort : ∀ d v l, StopsHonest T d v l → d = .abort := fun _ _ _ h => h.1

lemma honest_pure {a : α} (h : ∀ w, P w → Q a w) : Honest T P (pure a) (.ret a) Q :=
  fun _ _ _ ha hP => ⟨a, rfl, rfl, ha, h _ hP⟩

lemma Honest.pre {P' : View → Prop} {p : Tool α} {q : Driver α} (h : Honest T P p q Q)
    (hP : ∀ w, P' w → P w) : Honest T P' p q Q :=
  fun g v l ha hP' => h g v l ha (hP _ hP')

lemma Honest.post {Q' : α → View → Prop} {p : Tool α} {q : Driver α} (h : Honest T P p q Q)
    (hQ : ∀ a w, Q a w → Q' a w) : Honest T P p q Q' :=
  fun g v l ha hP => (h g v l ha hP).conseq (fun _ _ _ => id)
    fun _ _ _ _ hr => ⟨hr.1, hr.2.1, hQ _ _ hr.2.2⟩

/-- What the function of the driver may return. -/
lemma Honest.and_returns {p : Tool α} {q : Driver α} {φ : α → Prop} (h : Honest T P p q Q)
    (hq : q.Returns φ) : Honest T P p q fun a w => Q a w ∧ φ a := by
  intro g v l ha hP
  refine ((h g v l ha hP).and_returns hq).conseq (fun _ _ _ => id) ?_
  rintro ⟨_, g'⟩ a v' l' ⟨⟨rfl, h', hQ⟩, hφ⟩
  exact ⟨rfl, h', hQ, hφ⟩

/-- An honest function, and what comes behind it. -/
lemma Honest.follows_bind {p : Tool α} {q : Driver α} {f : α → Tool β} {k : α → Driver γ}
    {R : β × Slog → γ → Desk → List (Deed bus) → Prop} (hp : Honest T P p q Q)
    (h : Account T g v l) (hP : P (T.view.after l))
    (hf : ∀ a g' v' l', Account T g' v' l' → Q a (T.view.after l') →
      libc.Follows (StopsHonest T) ((f a).run g') (k a) R v' l') :
    libc.Follows (StopsHonest T) ((p >>= f).run g) (q >>= k) R v l := by
  rw [StateT.run_bind]
  refine (hp g v l h hP).bind stopsHonest_abort ?_
  rintro ⟨a, g'⟩ _ v' l' ⟨rfl, h', hQ⟩
  exact hf a g' v' l' h' hQ

lemma Honest.bind {p : Tool α} {q : Driver α} {f : α → Tool β} {k : α → Driver β}
    {U : β → View → Prop} (hp : Honest T P p q Q) (hf : ∀ a, Honest T (Q a) (f a) (k a) U) :
    Honest T P (p >>= f) (q >>= k) U :=
  fun _ _ _ h hP => hp.follows_bind h hP fun a g' v' l' h' hQ => hf a g' v' l' h' hQ

/-- A call of the C library leaves the state of the logger. -/
lemma run_aside (p : Stdio α) (g : Slog) :
    (liftM p : Tool α).run g = p.aside bus >>= fun a => pure (a, g) := rfl

lemma run_play (p : Driver α) (g : Slog) :
    (liftM p : Tool α).run g = p.play stdio >>= fun a => pure (a, g) := rfl

lemma run_log_bind (call : Slog → Stdio Slog) (f : Unit → Tool α) (g : Slog) :
    (Tool.log call >>= f).run g = (call g).aside bus >>= fun g' => (f ()).run g' := by
  simp only [Tool.log, bind_assoc, StateT.run_bind, StateT.run_get, pure_bind, run_aside,
    StateT.run_set]

/-! ## Messages -/

section

variable {f : Unit → Tool α} {q : Driver β} {R : α × Slog → β → Desk → List (Deed bus) → Prop}

/-- A message in the right place. -/
lemma say_follows {es : List Entry} (hready : LogReady T.levels g v)
    (hjournal : v.journal = T.journal ++ es ++ m.asked) (hshown : Displayed T.levels ms es)
    (h : ∀ g' v' es', LogReady T.levels g' v' → v'.journal = T.journal ++ es' →
      Displayed T.levels (ms ++ [m]) es' →
      libc.Follows (StopsHonest T) ((f ()).run g') q R v' l) :
    libc.Follows (StopsHonest T) ((Tool.say m >>= f).run g) q R v l := by
  rw [Tool.say, run_log_bind]
  refine Follows.aside_bind (slogDisplay_displays hready m) (fun _ hne => absurd rfl hne) ?_
  rintro g' v' ⟨hready', lines, hjournal', hlines⟩
  refine h g' v' (es ++ (m.asked ++ lines.flatten)) hready' ?_ (hshown.snoc ⟨lines, rfl, hlines⟩)
  rw [hjournal', hjournal]
  simp only [List.append_assoc]

/-- A remark. -/
lemma remark_follows (h : Account T g v l) (hm : m.isReport = false)
    (hfits : m.Fits (T.view.after l))
    (hf : ∀ g' v', Account T g' v' l → libc.Follows (StopsHonest T) ((f ()).run g') q R v' l) :
    libc.Follows (StopsHonest T) ((Tool.say m >>= f).run g) q R v l := by
  obtain ⟨hready, ms, es, htrue, hjournal, hshown⟩ := h
  refine say_follows hready (by rwa [Message.asked_of_remark hm, List.append_nil]) hshown ?_
  exact fun g' v' es' hready' hjournal' hshown' =>
    hf g' v' ⟨hready', ms ++ [m], es', htrue.remark hm hfits, hjournal', hshown'⟩

/-- A message about the operation that has just been made, once the C library has been asked. -/
lemma report_follows {d : Deed bus} {v₀ : Desk} (h : Honestly T v₀ l)
    (hready : LogReady T.levels g v) (hasked : v.journal = v₀.journal ++ m.asked)
    (hm : m.Reports d) (hfits : m.Fits (T.view.after (l ++ [d])))
    (hf : ∀ g' v', Account T g' v' (l ++ [d]) →
      libc.Follows (StopsHonest T) ((f ()).run g') q R v' (l ++ [d])) :
    libc.Follows (StopsHonest T) ((Tool.say m >>= f).run g) q R v (l ++ [d]) := by
  obtain ⟨ms, es, htrue, hjournal, hshown⟩ := h
  refine say_follows hready (by rw [hasked, hjournal]) hshown ?_
  exact fun g' v' es' hready' hjournal' hshown' =>
    hf g' v' ⟨hready', ms ++ [m], es', htrue.report hm hfits, hjournal', hshown'⟩

/-- A message about an operation that has failed, with what `strerror` answers. -/
lemma failure_follows {d : Deed bus} {failed : Text → Message} {rest : Unit → Tool α}
    (h : Account T g v l) (hasked : ∀ e, (failed e).asked = [.error e])
    (hm : ∀ e, (failed e).Reports d) (hfits : ∀ e, (failed e).Fits (T.view.after (l ++ [d])))
    (hf : ∀ g' v', Account T g' v' (l ++ [d]) →
      libc.Follows (StopsHonest T) ((rest ()).run g') q R v' (l ++ [d])) :
    libc.Follows (StopsHonest T)
      ((liftM Stdio.strerror >>= fun e => Tool.say (failed e) >>= rest).run g) q R v
      (l ++ [d]) := by
  have hensures : libc.Ensures (fun h _ => h ≠ .abort) Stdio.strerror
      (fun e v' => v' = v.enter (.error e)) v := by
    rw [ensures_strerror]
    exact ⟨by rintro ⟨⟩, fun _ => rfl⟩
  rw [StateT.run_bind, run_aside, bind_assoc]
  refine Follows.aside_bind hensures (fun _ hne => absurd rfl hne) ?_
  rintro e _ rfl
  have hready : LogReady T.levels g (v.enter (.error e)) :=
    ⟨h.ready.unlocked, h.ready.config, h.ready.streams⟩
  exact report_follows h.honestly hready (by rw [hasked]; rfl) (hm e) (hfits e) hf

end

lemma Honest.say_bind {f : Unit → Tool α} {q : Driver α} (hm : m.isReport = false)
    (hfits : ∀ w, P w → m.Fits w) (hf : Honest T P (f ()) q Q) :
    Honest T P (Tool.say m >>= f) q Q :=
  fun _ _ l h hP => remark_follows h hm (hfits _ hP) fun g' v' h' => hf g' v' l h' hP

lemma honest_say (hm : m.isReport = false) (hfits : ∀ w, P w → m.Fits w) :
    Honest T P (Tool.say m) (.ret ()) fun _ => P := by
  rw [← bind_pure (Tool.say m)]
  exact .say_bind hm hfits (honest_pure fun _ => id)

/-- What is only said afterwards. -/
lemma Honest.bind_ret {p : Tool α} {q : Driver α} {f : α → Tool α} {U : α → View → Prop}
    (hp : Honest T P p q Q) (hf : ∀ a, Honest T (Q a) (f a) (.ret a) U) :
    Honest T P (p >>= f) q U := by
  rw [← Prog.bind_ret q]
  exact hp.bind hf

/-! ## Operations that cannot fail -/

lemma Account.deed (h : Account T g v l) {d : Deed bus} (hd : ¬ Unsuccessful d) :
    Account T g v (l ++ [d]) := by
  obtain ⟨hready, ms, es, htrue, hshown⟩ := h
  exact ⟨hready, ms, es, htrue.deed hd, hshown⟩

lemma honest_op (o : Access) {Q : o.Res → View → Prop} (hd : ∀ r : o.Res, ¬ Unsuccessful ⟨o, r⟩)
    (hQ : ∀ r w, P w → Q r (w.step ⟨o, r⟩)) :
    Honest T P (liftM (Prog.op (S := bus) o)) (Prog.op (S := bus) o) Q := by
  intro g v l ha hP
  refine ⟨_, rfl, fun r => ⟨r, rfl, rfl, ha.deed (hd r), ?_⟩⟩
  rw [after_snoc]
  exact hQ r _ hP

/-- An access to a register or to a buffer. -/
lemma honest_access (hP : Lasting P) (o : Access) (h : Routine (.call o)) :
    Honest T P (liftM (Prog.op (S := bus) o)) (Prog.op (S := bus) o) fun r w =>
      P w ∧ w.last = some ⟨o, r⟩ :=
  honest_op o h.successful fun r w hw => ⟨by rw [h.step]; exact hP w _ hw, rfl⟩

/-- Accesses to registers and buffers need not be talked about. -/
lemma honest_routine (hP : Lasting P) {p : Driver α} (hp : p.Every Routine) :
    Honest T P (liftM p) p fun _ => P := by
  intro g v l h hw
  rw [run_play]
  nth_rewrite 2 [← Prog.bind_ret p]
  refine (follows_play (I := fun l => Account T g v l ∧ P (T.view.after l)) hp ?_ ?_
    ⟨h, hw⟩).bind stopsHonest_abort ?_
  · rintro o r l ho ⟨ha, hPl⟩
    refine ⟨ha.deed (ho.successful r), ?_⟩
    rw [after_snoc, ho.step]
    exact hP _ _ hPl
  · exact fun l _ ha => ⟨rfl, ha.1.honestly⟩
  · rintro a _ _ l' ⟨rfl, rfl, h', hw'⟩
    exact ⟨_, rfl, rfl, h', hw'⟩

lemma lift_bind (p : Driver α) (f : α → Driver β) :
    (liftM (p >>= f) : Tool β) = liftM p >>= fun a => liftM (f a) := by
  funext g
  change (p >>= f).play stdio >>= _ = (p.play stdio >>= _) >>= _
  rw [Prog.play_bind, bind_assoc, bind_assoc]
  rfl

/-- What is asserted may be used. -/
lemma Honest.check_bind {c : Prop} [Decidable c] {f : Unit → Tool α} {k : Unit → Driver α}
    (h : c → Honest T P (f ()) (k ()) Q) :
    Honest T P (liftM (check c) >>= f) (check c >>= k) Q := by
  intro g v l ha hP
  rw [StateT.run_bind, run_play]
  unfold check Prog.check
  split <;> rename_i hc
  · exact h hc g v l ha hP
  · exact ⟨rfl, ha.honestly⟩

/-- A register that is loaded for the log. -/
lemma Honest.logRegister_bind (hP : Lasting P) {f : Unit → Tool α} {line virt phys : Nat}
    {k : Word → Driver α}
    (hphys : ∀ w, P w → ∃ bank off, phys = Bank.base bank + off ∧ virt = w.registers bank + off)
    (hf : ∀ v, Honest T P (f ()) (k v) Q) :
    Honest T P (Tool.logRegister line virt phys >>= f) (load virt >>= k) Q := by
  intro g v l h hw
  rw [Tool.logRegister, bind_assoc, StateT.run_bind, run_play]
  refine follows_op fun value => ?_
  have hw' : P (T.view.after (l ++ [(⟨.load virt, value⟩ : Deed bus)])) := by
    rw [after_snoc]
    exact hP _ _ hw
  exact report_follows h.honestly h.ready (List.append_nil _).symm ⟨rfl, rfl⟩ (hphys _ hw')
    fun g' v' h' => hf value g' v' _ h' hw'

/-! ## Operations that may fail -/

/-- `map_memory`, and what is said if it fails. -/
lemma Honest.mapMemory_bind (bank : Bank) {fd : Int} {pageSize : Nat} {f : Nat × Int → Tool α}
    {rest : Unit → Tool α} {k : Nat × Int → Driver α} (hpage : ∀ w, P w → w.pageSize = pageSize)
    (hsaid : f (mapFailed, -1) =
      liftM Stdio.strerror >>= fun error => Tool.say (.mmapFailed bank error) >>= rest)
    (hfailed : Honest T (fun w' => ∃ w, P w ∧ w' = w.step
      ⟨.mmap (bank.size pageSize) fd (pageBase bank.base pageSize), mapFailed⟩)
      (rest ()) (k (mapFailed, -1)) Q)
    (hmapped : ∀ map : Nat, map ≠ mapFailed → Honest T (fun w' => ∃ w, P w ∧ w' = w.step
      ⟨.mmap (bank.size pageSize) fd (pageBase bank.base pageSize), map⟩)
      (f (map, 0)) (k (map, 0)) Q) :
    Honest T P (liftM (mapMemory fd bank.base (bank.size pageSize) pageSize) >>= f)
      (mapMemory fd bank.base (bank.size pageSize) pageSize >>= k) Q := by
  simp only [mapMemory, lift_bind, bind_assoc]
  refine .check_bind fun _ => .check_bind fun _ => .check_bind fun _ => ?_
  intro g v l h hw
  rw [StateT.run_bind]
  refine follows_op fun map => ?_
  by_cases hmap : (show Nat from map) = mapFailed
  · obtain rfl := hmap
    change libc.Follows (StopsHonest T) ((f (mapFailed, -1)).run g) (k (mapFailed, -1)) _ _ _
    rw [hsaid]
    refine failure_follows h (fun _ => rfl) (fun _ => ⟨rfl, pageSize, rfl⟩) (fun _ => ?_)
      fun g' v' h' => hfailed g' v' _ h' ⟨_, hw, after_snoc _ _ _⟩
    rw [after_snoc, step_failed]
    exact ⟨fd, by rw [hpage _ hw]⟩
  · have hpair : (if map = mapFailed then pure (map, -1) else pure (map, 0) : Driver (Nat × Int)) =
        .ret (map, 0) := if_neg hmap
    dsimp only
    rw [hpair]
    exact hmapped map hmap g v _ (h.deed (d := ⟨.mmap (bank.size pageSize) fd
      (pageBase bank.base pageSize), map⟩) hmap) ⟨_, hw, after_snoc _ _ _⟩

/-- The `open` of `QSPI_Init`, and what is said if it fails. -/
lemma Honest.openMem_bind (hP : Lasting P) {f : Int → Tool α} (rest : Int → Unit → Tool α)
    {k : Int → Driver α}
    (hsaid : ∀ fd < 0, f fd =
      liftM Stdio.strerror >>= fun error => Tool.say (.openFailed error) >>= rest fd)
    (hfailed : ∀ fd < 0, Honest T P (rest fd ()) (k fd) Q)
    (hopened : ∀ fd ≥ 0, Honest T (fun w => P w ∧ w.last = some ⟨.openMem, fd⟩) (f fd) (k fd) Q) :
    Honest T P (liftM openMem >>= f) (openMem >>= k) Q := by
  intro g v l h hw
  rw [StateT.run_bind]
  refine follows_op fun (fd : Int) => ?_
  have hw' : P (T.view.after (l ++ [(⟨.openMem, fd⟩ : Deed bus)])) := by
    rw [after_snoc]
    exact hP _ _ hw
  by_cases hfd : fd < 0
  · change libc.Follows (StopsHonest T) ((f fd).run g) (k fd) _ _ _
    rw [hsaid fd hfd]
    exact failure_follows h (fun _ => rfl) (fun _ => hfd) (fun _ => trivial)
      fun g' v' h' => hfailed fd hfd g' v' _ h' hw'
  · refine hopened fd (Int.not_lt.mp hfd) g v _ (h.deed (d := ⟨.openMem, fd⟩) hfd) ⟨hw', ?_⟩
    rw [after_snoc]
    rfl

end QspiTool
