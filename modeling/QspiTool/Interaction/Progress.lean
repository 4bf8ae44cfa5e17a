import QspiTool.Interaction.Logic

/-!
# What a program can attain

The dual of `Interaction.Logic`.  `Attains φ P p Q` says that from every state where `P` holds
*some* schedule takes `p` to a return where `Q` holds, with `φ` true each time the program
moves; with `φ` one asks for a well-behaved schedule (a device that is never late, say), and
without one for any.  Its rules compose such schedules along the program.

A program tree is inductive, so the only way for a run to go on for ever is to spin: when the
environment can always answer the waits a program makes, some schedule takes the program to
its end (`exists_reach_end`).
-/

namespace Interaction

variable {S : Signature} {σ A α β : Type}

namespace Machine

variable (M : Machine S σ A)

/-- One tick, in which the program moves only where `φ` holds. -/
def StepUnder (φ : Head S → Assertion S σ A) (c c' : Config S σ A α) : Prop :=
  ∃ k, M.step k c = some c' ∧ (k = .prog → φ c.prog.head c.state c.trace)

/-- Some schedule leads from `c` to `c'`, the program moving only where `φ` holds. -/
def ReachUnder (φ : Head S → Assertion S σ A) : Config S σ A α → Config S σ A α → Prop :=
  Relation.ReflTransGen (M.StepUnder φ)

/-- The condition that is always met. -/
abbrev anytime : Head S → Assertion S σ A := fun _ _ _ => True

variable {M} {φ : Head S → Assertion S σ A}

namespace ReachUnder

lemma refl (c : Config S σ A α) : M.ReachUnder φ c c := Relation.ReflTransGen.refl

lemma trans {c₁ c₂ c₃ : Config S σ A α} (h : M.ReachUnder φ c₁ c₂)
    (h' : M.ReachUnder φ c₂ c₃) : M.ReachUnder φ c₁ c₃ :=
  Relation.ReflTransGen.trans h h'

lemma reach {c c' : Config S σ A α} (h : M.ReachUnder φ c c') : M.Reach c c' := by
  induction h with
  | refl => exact Reach.refl _
  | tail _ hstep ih =>
    obtain ⟨k, hk, -⟩ := hstep
    exact ih.trans (Reach.head hk (Reach.refl _))

lemma drift {s s' : σ} {t t' : Trace S A} (h : M.Drift s t s' t') (p : Prog S α) :
    M.ReachUnder φ ⟨p, s, t⟩ ⟨p, s', t'⟩ := by
  induction h with
  | refl => exact refl _
  | tail _ hact ih =>
    exact Relation.ReflTransGen.tail ih ⟨.env _, step_env _ hact, fun h => nomatch h⟩

lemma call {o : S.Op} {k : S.Res o → Prog S α} {s : σ} {t : Trace S A}
    (hφ : φ (.call o) s t) :
    M.ReachUnder φ ⟨.call o k, s, t⟩
      ⟨k (M.exec o s).1, (M.exec o s).2, t ++ [.call o (M.exec o s).1]⟩ :=
  Relation.ReflTransGen.single ⟨.prog, rfl, fun _ => hφ⟩

lemma poll {w : S.Wait} {k : Prog S α} {s : σ} {t : Trace S A} (hφ : φ (.poll w) s t)
    (h : S.ready w (M.exec (S.probe w) s).1 = true) :
    M.ReachUnder φ ⟨.poll w k, s, t⟩
      ⟨k, (M.exec (S.probe w) s).2, t ++ [.spin w (M.exec (S.probe w) s).1]⟩ :=
  Relation.ReflTransGen.single ⟨.prog, by simp [step, h], fun _ => hφ⟩

lemma bind {c c' : Config S σ A α} (f : α → Prog S β) (h : M.ReachUnder φ c c') :
    M.ReachUnder φ (c.bind f) (c'.bind f) := by
  induction h with
  | refl => exact refl _
  | @tail c₁ c₂ _ hstep ih =>
    obtain ⟨k, hk, hφ⟩ := hstep
    refine Relation.ReflTransGen.tail ih ⟨k, step_bind f hk, fun hprog => ?_⟩
    subst hprog
    -- a program that moves is not at its end, so the head is that of the first program
    obtain ⟨p, s, t⟩ := c₁
    cases p with
    | ret a => cases hk
    | abort => cases hk
    | call o k => exact hφ rfl
    | poll w k => exact hφ rfl

end ReachUnder

variable (M) in
/-- Some schedule takes `p` from `P` to a return where `Q` holds. -/
def Attains (φ : Head S → Assertion S σ A) (P : Assertion S σ A) (p : Prog S α)
    (Q : α → Assertion S σ A) : Prop :=
  ∀ s t, P s t → ∃ a s' t', M.ReachUnder φ ⟨p, s, t⟩ ⟨.ret a, s', t'⟩ ∧ Q a s' t'

namespace Attains

variable {P R : Assertion S σ A} {p : Prog S α} {f : α → Prog S β} {Q : α → Assertion S σ A}
  {U : β → Assertion S σ A}

lemma conseq {P' : Assertion S σ A} {Q' : α → Assertion S σ A} (h : M.Attains φ P p Q)
    (hP : ∀ s t, P' s t → P s t) (hQ : ∀ a s t, Q a s t → Q' a s t) :
    M.Attains φ P' p Q' := by
  intro s t hs
  obtain ⟨a, s', t', hreach, hq⟩ := h s t (hP s t hs)
  exact ⟨a, s', t', hreach, hQ a s' t' hq⟩

lemma post {Q' : α → Assertion S σ A} (h : M.Attains φ P p Q)
    (hQ : ∀ a s t, Q a s t → Q' a s t) : M.Attains φ P p Q' :=
  h.conseq (fun _ _ => id) hQ

lemma ret {a : α} (h : ∀ s t, P s t → Q a s t) : M.Attains φ P (.ret a) Q :=
  fun s t hs => ⟨a, s, t, ReachUnder.refl _, h s t hs⟩

/-- Let the environment act before the program moves. -/
lemma drift (h : ∀ s t, P s t → ∃ s' t', M.Drift s t s' t' ∧ R s' t')
    (hp : M.Attains φ R p Q) : M.Attains φ P p Q := by
  intro s t hs
  obtain ⟨s₁, t₁, hd, hr⟩ := h s t hs
  obtain ⟨a, s', t', hreach, hq⟩ := hp s₁ t₁ hr
  exact ⟨a, s', t', (ReachUnder.drift hd p).trans hreach, hq⟩

/-- Run the first program of a sequence. -/
lemma reach_bind (hp : M.Attains φ P p Q) (f : α → Prog S β) {s : σ} {t : Trace S A}
    (hs : P s t) :
    ∃ a s' t', M.ReachUnder φ ⟨p >>= f, s, t⟩ ⟨f a, s', t'⟩ ∧ Q a s' t' := by
  obtain ⟨a, s', t', hreach, hq⟩ := hp s t hs
  exact ⟨a, s', t', hreach.bind f, hq⟩

lemma bind (hp : M.Attains φ P p Q) (hf : ∀ a, M.Attains φ (Q a) (f a) U) :
    M.Attains φ P (p >>= f) U := by
  intro s t hs
  obtain ⟨a, s₁, t₁, hreach, hq⟩ := hp.reach_bind f hs
  obtain ⟨b, s', t', hreach', hu⟩ := hf a s₁ t₁ hq
  exact ⟨b, s', t', hreach.trans hreach', hu⟩

lemma op {o : S.Op} {Q : S.Res o → Assertion S σ A} (hφ : ∀ s t, P s t → φ (.call o) s t)
    (h : ∀ s t, P s t → Q (M.exec o s).1 (M.exec o s).2 (t ++ [.call o (M.exec o s).1])) :
    M.Attains φ P (Prog.op o) Q :=
  fun s t hs => ⟨_, _, _, ReachUnder.call (hφ s t hs), h s t hs⟩

lemma await {w : S.Wait} {Q : Unit → Assertion S σ A} (hφ : ∀ s t, P s t → φ (.poll w) s t)
    (hready : ∀ s t, P s t → S.ready w (M.exec (S.probe w) s).1 = true)
    (h : ∀ s t, P s t →
      Q () (M.exec (S.probe w) s).2 (t ++ [.spin w (M.exec (S.probe w) s).1])) :
    M.Attains φ P (Prog.await w) Q :=
  fun s t hs => ⟨(), _, _, ReachUnder.poll (hφ s t hs) (hready s t hs), h s t hs⟩

/-- What holds whenever `p` returns holds at the return attained. -/
lemma and_triple {G : Head S → Assertion S σ A} {R : α → Assertion S σ A}
    (h : M.Attains φ P p Q) (h' : M.Triple G P p R) :
    M.Attains φ P p fun a s t => Q a s t ∧ R a s t := by
  intro s t hs
  obtain ⟨a, s', t', hreach, hq⟩ := h s t hs
  exact ⟨a, s', t', hreach, hq, h'.returns hs hreach.reach⟩

/-- **The invariant rule.**  A program that only makes operations of its own can be run without
the environment, and keeps what each operation keeps. -/
lemma invariant {ψ : Head S → Prop} (hp : p.Every ψ) (habort : ¬ ψ .abort)
    (hpoll : ∀ w, ¬ ψ (.poll w)) (hφ : ∀ o s t, ψ (.call o) → P s t → φ (.call o) s t)
    (hcall : ∀ o s t, ψ (.call o) → P s t →
      P (M.exec o s).2 (t ++ [.call o (M.exec o s).1])) :
    M.Attains φ P p fun _ => P := by
  intro s t hs
  induction p generalizing s t with
  | ret a => exact ⟨a, s, t, ReachUnder.refl _, hs⟩
  | abort => exact absurd hp habort
  | poll w k ih => exact absurd hp.1 (hpoll w)
  | call o k ih =>
    obtain ⟨a, s', t', hreach, hq⟩ := ih _ (hp.2 _) _ _ (hcall o s t hp.1 hs)
    exact ⟨a, s', t', (ReachUnder.call (hφ o s t hp.1 hs)).trans hreach, hq⟩

end Attains

/-! ## Being about to do something -/

variable (M) in
/-- Some schedule takes `p`, wherever it starts, to where its next move is in `D`. -/
def CanReach (D : Head S → Prop) (p : Prog S α) : Prop :=
  ∀ s t, ∃ c, M.Reach ⟨p, s, t⟩ c ∧ D c.prog.head

namespace CanReach

variable {D : Head S → Prop} {p : Prog S α}

lemma here (h : D p.head) : M.CanReach D p := fun _ _ => ⟨_, Reach.refl _, h⟩

lemma bind_left (hD : ¬ D .done) (h : M.CanReach D p) (f : α → Prog S β) :
    M.CanReach D (p >>= f) := by
  intro s t
  obtain ⟨c, hreach, hd⟩ := h s t
  have hne : c.prog.head ≠ .done := fun hdone => hD (hdone ▸ hd)
  exact ⟨_, hreach.bind f, (Prog.head_bind hne f).symm ▸ hd⟩

lemma bind_right (hp : ∀ s t, ∃ a s' t', M.Reach ⟨p, s, t⟩ ⟨.ret a, s', t'⟩)
    {f : α → Prog S β} (hf : ∀ a, M.CanReach D (f a)) : M.CanReach D (p >>= f) := by
  intro s t
  obtain ⟨a, s', t', hreach⟩ := hp s t
  obtain ⟨c, hreach', hd⟩ := hf a s' t'
  exact ⟨c, hreach.seq hreach', hd⟩

end CanReach

/-! ## An environment that answers every wait -/

/-- The environment can make the wait `w` succeed, now or after some actions of its own. -/
def Answers (M : Machine S σ A) (w : S.Wait) (s : σ) (t : Trace S A) : Prop :=
  ∃ s' t', M.Drift s t s' t' ∧ S.ready w (M.exec (S.probe w) s').1 = true

/-- **Progress.**  If every wait of `p` can be answered from every state, some schedule runs `p`
to a return or to a failed assertion. -/
theorem exists_reach_end {φ : Head S → Prop} {p : Prog S α} (hp : p.Every φ)
    (hw : ∀ w s t, φ (.poll w) → M.Answers w s t) (s : σ) (t : Trace S A) :
    ∃ c, M.Reach ⟨p, s, t⟩ c ∧ (c.prog = .abort ∨ ∃ a, c.prog = .ret a) := by
  induction p generalizing s t with
  | ret a => exact ⟨_, Reach.refl _, .inr ⟨a, rfl⟩⟩
  | abort => exact ⟨_, Reach.refl _, .inl rfl⟩
  | call o k ih =>
    obtain ⟨c, hc, hend⟩ := ih _ (hp.2 _) (M.exec o s).2 (t ++ [.call o (M.exec o s).1])
    exact ⟨c, (reach_call o k s t).trans hc, hend⟩
  | poll w k ih =>
    obtain ⟨s', t', hd, hready⟩ := hw w s t hp.1
    obtain ⟨c, hc, hend⟩ := ih hp.2 (M.exec (S.probe w) s').2
      (t' ++ [.spin w (M.exec (S.probe w) s').1])
    exact ⟨c, (hd.reach _).trans ((reach_poll k t' hready).trans hc), hend⟩

/-- Progress for a program none of whose assertions can fail. -/
theorem exists_reach_ret {φ : Head S → Prop} {p : Prog S α} (hp : p.Every φ)
    (hw : ∀ w s t, φ (.poll w) → M.Answers w s t) (hab : ¬ φ .abort) (s : σ) (t : Trace S A) :
    ∃ a s' t', M.Reach ⟨p, s, t⟩ ⟨.ret a, s', t'⟩ := by
  obtain ⟨⟨q, s', t'⟩, hc, hend⟩ := exists_reach_end hp hw s t
  obtain hq | ⟨a, hq⟩ := hend
  · have hφ := every_reach hp hc (by simp_all)
    simp_all
  · simp only at hq
    subst hq
    exact ⟨a, s', t', hc⟩

end Machine

end Interaction
