import QspiTool.Interaction.Machine

/-!
# A program logic for programs under interference

`wp G p Q s t` is the weakest precondition of `p` at state `s` and trace `t` when the
environment may act between any two operations: whatever the schedule, each time the program
is about to do something the guarantee `G` holds of it, and each time it has returned the
postcondition `Q` holds.  `wp_sound` is the adequacy theorem.

Assertions that the environment cannot falsify are `Stable`.  `Triple G P p Q` is the
Hoare-style judgement; its rules ask for stable assertions between operations and never
mention schedules.  `Triple.invariant` is the frame rule of the logic: an assertion kept by
every operation a program can make (`Prog.Every`) is kept by the program.
-/

namespace Interaction

variable {S : Signature} {σ A α β : Type}

/-- A predicate on what has been reached: the state and the trace leading to it. -/
abbrev Assertion (S : Signature) (σ A : Type) := σ → Trace S A → Prop

namespace Machine

variable (M : Machine S σ A)

/-- `P` cannot be falsified by the environment. -/
def Stable (P : Assertion S σ A) : Prop :=
  ∀ a s s' t, P s t → M.act a s = some s' → P s' (t ++ [.act a])

/-- The weakest precondition under interference. -/
def wp (G : Head S → Assertion S σ A) : Prog S α → (α → Assertion S σ A) → Assertion S σ A
  | .ret a, Q => fun s t => ∀ s' t', M.Drift s t s' t' → Q a s' t'
  | .abort, _ => fun s t => ∀ s' t', M.Drift s t s' t' → G .abort s' t'
  | .call o k, Q => fun s t => ∀ s' t', M.Drift s t s' t' →
      G (.call o) s' t' ∧
        wp G (k (M.exec o s').1) Q (M.exec o s').2 (t' ++ [.call o (M.exec o s').1])
  | .poll w k, Q => fun s t => ∀ s' t', M.Spin w s t s' t' →
      G (.poll w) s' t' ∧
        (S.ready w (M.exec (S.probe w) s').1 = true →
          wp G k Q (M.exec (S.probe w) s').2 (t' ++ [.spin w (M.exec (S.probe w) s').1]))

/-- Whatever the schedule: started where `P` holds, `p` does only what `G` allows, and where it
returns `Q` holds. -/
def Triple (G : Head S → Assertion S σ A) (P : Assertion S σ A) (p : Prog S α)
    (Q : α → Assertion S σ A) : Prop :=
  ∀ s t, P s t → M.wp G p Q s t

variable {M} {G : Head S → Assertion S σ A} {P R : Assertion S σ A}
  {p : Prog S α} {f : α → Prog S β} {Q : α → Assertion S σ A} {U : β → Assertion S σ A}

lemma Stable.drift (hP : M.Stable P) {s s' : σ} {t t' : Trace S A} (h : M.Drift s t s' t')
    (hs : P s t) : P s' t' := by
  induction h with
  | refl => exact hs
  | tail _ hact ih => exact hP _ _ _ _ ih hact

lemma stable_and (hP : M.Stable P) (hR : M.Stable R) :
    M.Stable fun s t => P s t ∧ R s t :=
  fun a s s' t h hact => ⟨hP a s s' t h.1 hact, hR a s s' t h.2 hact⟩

lemma stable_true : M.Stable fun _ _ => True := fun _ _ _ _ _ _ => trivial

/-- What does not speak of the state is stable. -/
lemma stable_const (c : Prop) : M.Stable fun _ _ => c := fun _ _ _ _ hc _ => hc

lemma stable_and_const (hP : M.Stable P) (c : Prop) : M.Stable fun s t => P s t ∧ c :=
  stable_and hP (stable_const c)

lemma stable_exists {ι : Type} {P : ι → Assertion S σ A} (h : ∀ i, M.Stable (P i)) :
    M.Stable fun s t => ∃ i, P i s t := by
  rintro a s s' t ⟨i, hi⟩ hact
  exact ⟨i, h i a s s' t hi hact⟩

/-! ## Adequacy -/

lemma wp_drift {s s' : σ} {t t' : Trace S A} (h : M.Drift s t s' t') (hw : M.wp G p Q s t) :
    M.wp G p Q s' t' := by
  cases p with
  | ret a => exact fun _ _ h' => hw _ _ (h.trans h')
  | abort => exact fun _ _ h' => hw _ _ (h.trans h')
  | call o k => exact fun _ _ h' => hw _ _ (h.trans h')
  | poll w k => exact fun _ _ h' => hw _ _ (Spin.of_drift h h')

/-- One tick keeps the weakest precondition. -/
lemma wp_step {c c' : Config S σ A α} (h : M.Step c c') (hw : M.wp G c.prog Q c.state c.trace) :
    M.wp G c'.prog Q c'.state c'.trace := by
  obtain ⟨k, hk⟩ := h
  obtain ⟨p, s, t⟩ := c
  cases k with
  | env a =>
    obtain ⟨s', hs, rfl⟩ := Option.map_eq_some_iff.mp hk
    exact wp_drift (Drift.single t hs) hw
  | prog =>
    cases p with
    | ret a => cases hk
    | abort => cases hk
    | call o k =>
      obtain rfl := Option.some.inj hk
      exact (hw s t (Drift.refl s t)).2
    | poll w k =>
      obtain rfl := Option.some.inj hk
      dsimp only
      split <;> rename_i hready
      · exact (hw s t (Spin.refl s t)).2 hready
      · -- a failed probe is one more turn of the same spinning
        intro s' t' h'
        refine hw s' t' ?_
        have hspin := (Spin.refl (M := M) s t).probe (Bool.eq_false_iff.mpr hready)
        induction h' with
        | refl => exact hspin
        | act _ hact ih => exact ih.act hact
        | probe _ hfail ih => exact ih.probe hfail

/-- Every run keeps the weakest precondition. -/
lemma wp_reach {c c' : Config S σ A α} (h : M.Reach c c')
    (hw : M.wp G c.prog Q c.state c.trace) : M.wp G c'.prog Q c'.state c'.trace := by
  induction h with
  | refl => exact hw
  | tail _ hstep ih => exact wp_step hstep ih

lemma wp_ret {a : α} {s : σ} {t : Trace S A} (hw : M.wp G (.ret a) Q s t) : Q a s t :=
  hw s t (Drift.refl s t)

lemma wp_head {s : σ} {t : Trace S A} (hw : M.wp G p Q s t) (h : p.head ≠ .done) :
    G p.head s t := by
  cases p with
  | ret a => exact absurd rfl h
  | abort => exact hw s t (Drift.refl s t)
  | call o k => exact (hw s t (Drift.refl s t)).1
  | poll w k => exact (hw s t (Spin.refl s t)).1

/-- **Adequacy of the guarantee.** -/
theorem Triple.guarantee (h : M.Triple G P p Q) {s : σ} {t : Trace S A} (hP : P s t)
    {c : Config S σ A α} (hc : M.Reach ⟨p, s, t⟩ c) (hd : c.prog.head ≠ .done) :
    G c.prog.head c.state c.trace :=
  wp_head (wp_reach hc (h s t hP)) hd

/-- **Adequacy of the postcondition.** -/
theorem Triple.returns (h : M.Triple G P p Q) {s s' : σ} {t t' : Trace S A} (hP : P s t)
    {a : α} (hc : M.Reach ⟨p, s, t⟩ ⟨.ret a, s', t'⟩) : Q a s' t' :=
  wp_ret (wp_reach hc (h s t hP))

/-- An assertion that guarantee and postcondition give holds throughout. -/
lemma Triple.throughout {I : Assertion S σ A} (h : M.Triple (fun _ => I) P p Q)
    (hQ : ∀ a s t, Q a s t → I s t) {s : σ} {t : Trace S A} (hP : P s t)
    {c : Config S σ A α} (hc : M.Reach ⟨p, s, t⟩ c) : I c.state c.trace := by
  by_cases hdone : c.prog.head = .done
  · obtain ⟨q, s', t'⟩ := c
    obtain ⟨a, rfl⟩ := Prog.exists_ret_of_head hdone
    exact hQ a s' t' (h.returns hP hc)
  · exact h.guarantee hP hc hdone

/-- **What the guarantee keeps.**  An assertion that survives every access the guarantee allows, and
everything the environment does, holds throughout. -/
theorem Triple.keeps (h : M.Triple G P p Q) {I : Assertion S σ A} (hI : M.Stable I)
    (hcall : ∀ o s t, G (.call o) s t → I s t →
      I (M.exec o s).2 (t ++ [.call o (M.exec o s).1]))
    (hspin : ∀ w s t, G (.poll w) s t → I s t →
      I (M.exec (S.probe w) s).2 (t ++ [.spin w (M.exec (S.probe w) s).1]))
    {s : σ} {t : Trace S A} (hP : P s t) (hs : I s t) {c : Config S σ A α}
    (hc : M.Reach ⟨p, s, t⟩ c) : I c.state c.trace := by
  induction hc with
  | refl => exact hs
  | @tail c₁ c₂ hreach hstep ih =>
    obtain ⟨k, hk⟩ := hstep
    obtain ⟨q, s₁, t₁⟩ := c₁
    cases k with
    | env a =>
      obtain ⟨s₂, hact, rfl⟩ := Option.map_eq_some_iff.mp hk
      exact hI a s₁ s₂ t₁ ih hact
    | prog =>
      have hdone : q.head ≠ .done → G q.head s₁ t₁ := h.guarantee hP hreach
      cases q with
      | ret a => cases hk
      | abort => cases hk
      | call o k =>
        obtain rfl := Option.some.inj hk
        exact hcall o s₁ t₁ (hdone (by rintro ⟨⟩)) ih
      | poll w k =>
        obtain rfl := Option.some.inj hk
        exact hspin w s₁ t₁ (hdone (by rintro ⟨⟩)) ih

/-! ## Rules -/

lemma wp_mono {Q' : α → Assertion S σ A} (h : ∀ a s t, Q a s t → Q' a s t) {s : σ}
    {t : Trace S A} (hw : M.wp G p Q s t) : M.wp G p Q' s t := by
  induction p generalizing s t with
  | ret a => exact fun s' t' h' => h _ _ _ (hw s' t' h')
  | abort => exact hw
  | call o k ih => exact fun s' t' h' => ⟨(hw s' t' h').1, ih _ (hw s' t' h').2⟩
  | poll w k ih => exact fun s' t' h' => ⟨(hw s' t' h').1, fun hr => ih ((hw s' t' h').2 hr)⟩

lemma wp_allow {G' : Head S → Assertion S σ A} (h : ∀ d s t, G d s t → G' d s t) {s : σ}
    {t : Trace S A} (hw : M.wp G p Q s t) : M.wp G' p Q s t := by
  induction p generalizing s t with
  | ret a => exact hw
  | abort => exact fun s' t' h' => h _ _ _ (hw s' t' h')
  | call o k ih => exact fun s' t' h' => ⟨h _ _ _ (hw s' t' h').1, ih _ (hw s' t' h').2⟩
  | poll w k ih =>
    exact fun s' t' h' => ⟨h _ _ _ (hw s' t' h').1, fun hr => ih ((hw s' t' h').2 hr)⟩

lemma wp_bind {s : σ} {t : Trace S A}
    (hw : M.wp G p (fun a s t => M.wp G (f a) U s t) s t) : M.wp G (p >>= f) U s t := by
  induction p generalizing s t with
  | ret a => exact hw s t (Drift.refl s t)
  | abort => exact hw
  | call o k ih => exact fun s' t' h' => ⟨(hw s' t' h').1, ih _ (hw s' t' h').2⟩
  | poll w k ih => exact fun s' t' h' => ⟨(hw s' t' h').1, fun hr => ih ((hw s' t' h').2 hr)⟩

lemma wp_every {φ : Head S → Prop} (hp : p.Every φ) {s : σ} {t : Trace S A}
    (hw : M.wp G p Q s t) : M.wp (fun d s t => G d s t ∧ φ d) p Q s t := by
  induction p generalizing s t with
  | ret a => exact hw
  | abort => exact fun s' t' h' => ⟨hw s' t' h', hp⟩
  | call o k ih =>
    exact fun s' t' h' => ⟨⟨(hw s' t' h').1, hp.1⟩, ih _ (hp.2 _) (hw s' t' h').2⟩
  | poll w k ih =>
    exact fun s' t' h' => ⟨⟨(hw s' t' h').1, hp.1⟩, fun hr => ih hp.2 ((hw s' t' h').2 hr)⟩

lemma wp_and {G' : Head S → Assertion S σ A} {Q' : α → Assertion S σ A} {s : σ} {t : Trace S A}
    (hw : M.wp G p Q s t) (hw' : M.wp G' p Q' s t) :
    M.wp (fun d s t => G d s t ∧ G' d s t) p (fun a s t => Q a s t ∧ Q' a s t) s t := by
  induction p generalizing s t with
  | ret a => exact fun s' t' h => ⟨hw s' t' h, hw' s' t' h⟩
  | abort => exact fun s' t' h => ⟨hw s' t' h, hw' s' t' h⟩
  | call o k ih =>
    exact fun s' t' h => ⟨⟨(hw s' t' h).1, (hw' s' t' h).1⟩, ih _ (hw s' t' h).2 (hw' s' t' h).2⟩
  | poll w k ih =>
    exact fun s' t' h => ⟨⟨(hw s' t' h).1, (hw' s' t' h).1⟩, fun hr =>
      ih ((hw s' t' h).2 hr) ((hw' s' t' h).2 hr)⟩

namespace Triple

/-- **The conjunction rule.** -/
lemma and {G' : Head S → Assertion S σ A} {P' : Assertion S σ A} {Q' : α → Assertion S σ A}
    (h : M.Triple G P p Q) (h' : M.Triple G' P' p Q') :
    M.Triple (fun d s t => G d s t ∧ G' d s t) (fun s t => P s t ∧ P' s t) p
      fun a s t => Q a s t ∧ Q' a s t :=
  fun s t hs => wp_and (h s t hs.1) (h' s t hs.2)

/-- The syntactic judgement joins the guarantee. -/
lemma every {φ : Head S → Prop} (h : M.Triple G P p Q) (hp : p.Every φ) :
    M.Triple (fun d s t => G d s t ∧ φ d) P p Q :=
  fun s t hs => wp_every hp (h s t hs)

lemma conseq {P' : Assertion S σ A} {Q' : α → Assertion S σ A} (h : M.Triple G P p Q)
    (hP : ∀ s t, P' s t → P s t) (hQ : ∀ a s t, Q a s t → Q' a s t) : M.Triple G P' p Q' :=
  fun s t hs => wp_mono hQ (h s t (hP s t hs))

lemma pre {P' : Assertion S σ A} (h : M.Triple G P p Q) (hP : ∀ s t, P' s t → P s t) :
    M.Triple G P' p Q :=
  h.conseq hP fun _ _ _ => id

lemma post {Q' : α → Assertion S σ A} (h : M.Triple G P p Q)
    (hQ : ∀ a s t, Q a s t → Q' a s t) : M.Triple G P p Q' :=
  h.conseq (fun _ _ => id) hQ

/-- The guarantee may be weakened. -/
lemma allow {G' : Head S → Assertion S σ A} (h : M.Triple G P p Q)
    (hG : ∀ d s t, G d s t → G' d s t) : M.Triple G' P p Q :=
  fun s t hs => wp_allow hG (h s t hs)

lemma ret {a : α} (hQ : M.Stable (Q a)) (h : ∀ s t, P s t → Q a s t) :
    M.Triple G P (.ret a) Q :=
  fun s t hs _ _ hd => hQ.drift hd (h s t hs)

lemma abort (hP : M.Stable P) (h : ∀ s t, P s t → G .abort s t) :
    M.Triple G P (.abort : Prog S α) Q :=
  fun _ _ hs s' t' hd => h s' t' (hP.drift hd hs)

lemma bind (hp : M.Triple G P p Q) (hf : ∀ a, M.Triple G (Q a) (f a) U) :
    M.Triple G P (p >>= f) U :=
  fun s t hs => wp_bind (wp_mono (fun a s t => hf a s t) (hp s t hs))

/-- One operation.  The precondition is stable, so it still holds when the operation is made. -/
lemma op {o : S.Op} {Q : S.Res o → Assertion S σ A} (hP : M.Stable P)
    (hQ : ∀ r, M.Stable (Q r)) (hG : ∀ s t, P s t → G (.call o) s t)
    (h : ∀ s t, P s t → Q (M.exec o s).1 (M.exec o s).2 (t ++ [.call o (M.exec o s).1])) :
    M.Triple G P (Prog.op o) Q :=
  fun _ _ hs s' t' hd =>
    ⟨hG s' t' (hP.drift hd hs), fun _ _ hd' => (hQ _).drift hd' (h s' t' (hP.drift hd hs))⟩

/-- One wait: the precondition survives the failed probes, and what the successful one shows
may be used afterwards. -/
lemma await {w : S.Wait} {Q : Unit → Assertion S σ A} (hP : M.Stable P) (hQ : M.Stable (Q ()))
    (hG : ∀ s t, P s t → G (.poll w) s t)
    (hfail : ∀ s t, P s t → S.ready w (M.exec (S.probe w) s).1 = false →
      P (M.exec (S.probe w) s).2 (t ++ [.spin w (M.exec (S.probe w) s).1]))
    (hready : ∀ s t, P s t → S.ready w (M.exec (S.probe w) s).1 = true →
      Q () (M.exec (S.probe w) s).2 (t ++ [.spin w (M.exec (S.probe w) s).1])) :
    M.Triple G P (Prog.await w) Q := by
  intro s t hs s' t' hspin
  have hs' : P s' t' := by
    induction hspin with
    | refl => exact hs
    | act _ hact ih => exact hP _ _ _ _ ih hact
    | probe _ hf ih => exact hfail _ _ ih hf
  exact ⟨hG s' t' hs', fun hr _ _ hd => hQ.drift hd (hready s' t' hs' hr)⟩

lemma check {c : Prop} [Decidable c] (hP : M.Stable P)
    (h : ∀ s t, P s t → ¬ c → G .abort s t) :
    M.Triple G P (Prog.check c) fun _ s t => P s t ∧ c := by
  unfold Prog.check
  split <;> rename_i hc
  · exact Triple.ret (stable_and_const hP c) fun s t hs => ⟨hs, hc⟩
  · exact Triple.abort hP fun s t hs => h s t hs hc

/-- A precondition that does not depend on the state. -/
lemma of_pure {c : Prop} (h : c → M.Triple G P p Q) :
    M.Triple G (fun s t => P s t ∧ c) p Q :=
  fun s t hs => h hs.2 s t hs.1

/-- Split a precondition by cases. -/
lemma or {P' : Assertion S σ A} (h : M.Triple G P p Q) (h' : M.Triple G P' p Q) :
    M.Triple G (fun s t => P s t ∨ P' s t) p Q :=
  fun s t hs => hs.elim (h s t) (h' s t)

lemma exists_pre {ι : Type} {P : ι → Assertion S σ A} (h : ∀ i, M.Triple G (P i) p Q) :
    M.Triple G (fun s t => ∃ i, P i s t) p Q :=
  fun s t ⟨i, hs⟩ => h i s t hs

/-- **The invariant rule.**  An assertion that the environment keeps, and that every operation
`p` can make keeps, holds whenever `p` returns; with it the guarantee holds throughout. -/
theorem invariant {φ : Head S → Prop} (hp : p.Every φ) (hP : M.Stable P)
    (hG : ∀ d s t, φ d → P s t → G d s t)
    (hcall : ∀ o s t, φ (.call o) → P s t →
      P (M.exec o s).2 (t ++ [.call o (M.exec o s).1]))
    (hspin : ∀ w s t, φ (.poll w) → P s t →
      P (M.exec (S.probe w) s).2 (t ++ [.spin w (M.exec (S.probe w) s).1])) :
    M.Triple G P p fun _ => P := by
  intro s t hs
  induction p generalizing s t with
  | ret a => exact fun _ _ hd => hP.drift hd hs
  | abort => exact fun _ _ hd => hG _ _ _ hp (hP.drift hd hs)
  | call o k ih =>
    intro s' t' hd
    have hs' := hP.drift hd hs
    exact ⟨hG _ _ _ hp.1 hs', ih _ (hp.2 _) _ _ (hcall o s' t' hp.1 hs')⟩
  | poll w k ih =>
    intro s' t' hspin'
    have hs' : P s' t' := by
      clear ih
      induction hspin' with
      | refl => exact hs
      | act _ hact ih => exact hP _ _ _ _ ih hact
      | probe _ _ ih => exact hspin _ _ _ hp.1 ih
    exact ⟨hG _ _ _ hp.1 hs', fun _ => ih hp.2 _ _ (hspin w s' t' hp.1 hs')⟩

/-- Nothing is asked. -/
lemma any (p : Prog S α) : M.Triple (fun _ _ _ => True) P p fun _ _ _ => True := by
  have hp : p.Every fun _ => True := by
    induction p with
    | ret a => exact True.intro
    | abort => exact True.intro
    | call o k ih => exact ⟨True.intro, ih⟩
    | poll w k ih => exact ⟨True.intro, ih⟩
  exact (invariant hp stable_true (fun _ _ _ _ _ => True.intro) (fun _ _ _ _ _ => True.intro)
    fun _ _ _ _ _ => True.intro).pre fun _ _ _ => True.intro

/-- A guarantee that follows from what the program can do, wherever it stands. -/
lemma of_every {φ : Head S → Prop} (hp : p.Every φ) (hG : ∀ d s t, φ d → G d s t) :
    M.Triple G (fun _ _ => True) p fun _ _ _ => True :=
  ((Triple.any p).every hp).allow fun d s t hd => hG d s t hd.2

end Triple

/-- What a program can never do, no rest of it can. -/
lemma every_of_reach {φ : Head S → Prop} {c c' : Config S σ A α} (hp : c.prog.Every φ)
    (h : M.Reach c c') : c'.prog.Every φ := by
  induction h with
  | refl => exact hp
  | @tail c₁ c₂ _ hstep ih =>
    obtain ⟨k, hk⟩ := hstep
    obtain ⟨p, s, t⟩ := c₁
    cases k with
    | env a =>
      obtain ⟨s', -, rfl⟩ := Option.map_eq_some_iff.mp hk
      exact ih
    | prog =>
      cases p with
      | ret a => cases hk
      | abort => cases hk
      | call o k =>
        obtain rfl := Option.some.inj hk
        exact ih.2 _
      | poll w k =>
        obtain rfl := Option.some.inj hk
        dsimp only
        split
        · exact ih.2
        · exact ih

/-- The syntactic judgement bounds every run. -/
theorem every_reach {φ : Head S → Prop} (hp : p.Every φ) {s : σ} {t : Trace S A}
    {c : Config S σ A α} (h : M.Reach ⟨p, s, t⟩ c) (hd : c.prog.head ≠ .done) :
    φ c.prog.head :=
  (every_of_reach (c := ⟨p, s, t⟩) hp h).head hd

end Machine

end Interaction
