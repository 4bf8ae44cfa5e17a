import QspiTool.Interaction.Oracle

/-!
# Plays with asides

Some of what a program does is done for its own sake and some is only said: it writes a log, it
counts, it asks for the time.  A program over `S.beside T` makes operations of `S`, its play, and
between them operations of `T`, its asides, which an oracle answers.  `Machine.beside` puts the
oracle beside the machine of the play.

`Follows` says that a program, its asides left out, is a given play: whatever is answered, it makes
the operations of the play, in their order and with their arguments, and no others.  The judgement
also relates what is said to what is done, since its postcondition speaks of the oracle's record
and of the operations of the play together.

It is sound and complete for runs.  Each run of the program is a run of the play with the same
states and the same trace (`Follows.reach`), so what is known of the play is known of the program;
and if the program stops only where the play does, each run of the play is one of the program
(`Follows.exists_reach`), since asides end by themselves.
-/

namespace Interaction

/-- The operations of `S`, and those of `T` beside them.  Only a play waits. -/
abbrev Signature.beside (S T : Signature) : Signature where
  Op := S.Op ⊕ T.Op
  Res
    | .inl o => S.Res o
    | .inr o => T.Res o
  Wait := S.Wait
  probe w := .inl (S.probe w)
  ready w r := S.ready w r

variable {S T : Signature} {σ A B V α β γ δ : Type}

namespace Prog

/-- A play without asides. -/
def play (T : Signature) : Prog S α → Prog (S.beside T) α
  | ret a => ret a
  | abort => abort
  | call o k => .call (S := S.beside T) (.inl o) fun r => (k r).play T
  | poll w k => .poll (S := S.beside T) w (k.play T)

lemma play_bind (p : Prog S α) (f : α → Prog S β) :
    (p >>= f).play T = p.play T >>= fun a => (f a).play T := by
  induction p with
  | ret a => rfl
  | abort => rfl
  | call o k ih => exact congrArg (call (S := S.beside T) (.inl o)) (funext ih)
  | poll w k ih => exact congrArg (poll (S := S.beside T) w) ih

/-- An aside. -/
def aside (S : Signature) [IsEmpty T.Wait] : Prog T α → Prog (S.beside T) α
  | ret a => ret a
  | abort => abort
  | call o k => .call (S := S.beside T) (.inr o) fun r => (k r).aside S
  | poll w _ => isEmptyElim w

end Prog

/-- The program is in an aside. -/
def Head.Aside : Head (S.beside T) → Prop
  | .call (.inr _) => True
  | _ => False

/-- The next step of a play. -/
def Head.play (T : Signature) : Head S → Head (S.beside T)
  | .done => .done
  | .abort => .abort
  | .call o => .call (S := S.beside T) (.inl o)
  | .poll w => .poll (S := S.beside T) w

/-! ## The machine -/

/-- The machine of the play, with the oracle beside it. -/
def Machine.beside (M : Machine S σ A) (O : Oracle T B V) :
    Machine (S.beside T) (σ × B × V) (A ⊕ B) where
  exec
    | .inl o, s => ((M.exec o s.1).1, (M.exec o s.1).2, s.2)
    | .inr o, s => (O.reply s.2.1 s.2.2 o, s.1, s.2.1, O.next s.2.2 o (O.reply s.2.1 s.2.2 o))
  act
    | .inl a, s => (M.act a s.1).map fun s' => (s', s.2)
    | .inr b, s => some (s.1, b, s.2.2)

/-- The event of the play, if it is one. -/
def Event.play? : Event (S.beside T) (A ⊕ B) → Option (Event S A)
  | .call (.inl o) r => some (.call o r)
  | .call (.inr _) _ => none
  | .spin w r => some (.spin w r)
  | .act (.inl a) => some (.act a)
  | .act (.inr _) => none

/-- The trace of the play. -/
def playOf (t : Trace (S.beside T) (A ⊕ B)) : Trace S A := t.filterMap Event.play?

lemma playOf_snoc (t : Trace (S.beside T) (A ⊕ B)) (e : Event (S.beside T) (A ⊕ B)) :
    playOf (t ++ [e]) = playOf t ++ e.play?.toList := by
  cases h : e.play? <;> simp [playOf, h]

/-! ## Deeds -/

/-- An operation with its answer. -/
abbrev Deed (S : Signature) := Σ o : S.Op, S.Res o

def Event.deed? : Event S A → Option (Deed S)
  | .call o r => some ⟨o, r⟩
  | .spin _ _ | .act _ => none

/-- The operations of a trace, oldest first. -/
def deeds (t : Trace S A) : List (Deed S) := t.filterMap Event.deed?

lemma deeds_snoc (t : Trace S A) (e : Event S A) :
    deeds (t ++ [e]) = deeds t ++ e.deed?.toList := by
  cases h : e.deed? <;> simp [deeds, h]

namespace Oracle

open Machine

/-- `p` follows the play `q`, from the record `v` and the deeds `l`: it stops only where `G` allows,
given what the play is about to do, and `R` holds of what the two return, of the record and of the
deeds. -/
def Follows (O : Oracle T B V) (G : Head S → V → List (Deed S) → Prop) :
    Prog (S.beside T) α → Prog S β → (α → β → V → List (Deed S) → Prop) → V → List (Deed S) → Prop
  | .ret a, q, R, v, l => ∃ b, q = .ret b ∧ R a b v l
  | .abort, q, _, v, l => G q.head v l
  | .call (.inl o) k, q, R, v, l =>
      ∃ k', q = .call o k' ∧ ∀ r, Follows O G (k r) (k' r) R v (l ++ [⟨o, r⟩])
  | .call (.inr o) k, q, R, v, l => ∀ r, O.May v o r → Follows O G (k r) q R (O.next v o r) l
  | .poll w k, q, R, v, l => ∃ k', q = .poll w k' ∧ Follows O G k k' R v l

variable {O : Oracle T B V} {G : Head S → V → List (Deed S) → Prop} {p : Prog (S.beside T) α}
  {q : Prog S β} {R : α → β → V → List (Deed S) → Prop} {v : V} {l : List (Deed S)}
  {M : Machine S σ A} {s : σ} {b : B} {t : Trace (S.beside T) (A ⊕ B)}

/-! ## Adequacy -/

/-- One tick of the program is one of the play, or none. -/
lemma Follows.step (h : O.Follows G p q R v (deeds (playOf t)))
    {c : Config (S.beside T) (σ × B × V) (A ⊕ B) α}
    (hc : (M.beside O).Step ⟨p, (s, b, v), t⟩ c) :
    ∃ q', M.Reach ⟨q, s, playOf t⟩ ⟨q', c.state.1, playOf c.trace⟩ ∧
      O.Follows G c.prog q' R c.state.2.2 (deeds (playOf c.trace)) := by
  obtain ⟨k, hk⟩ := hc
  cases k with
  | env a =>
    obtain ⟨⟨s', b', v'⟩, hact, rfl⟩ := Option.map_eq_some_iff.mp hk
    refine ⟨q, ?_⟩
    cases a with
    | inl a =>
      obtain ⟨s₁, hs, heq⟩ := Option.map_eq_some_iff.mp hact
      cases heq
      simp only [playOf_snoc, Event.play?, Option.toList_some, deeds_snoc, Event.deed?,
        Option.toList_none, List.append_nil]
      exact ⟨reach_env (playOf t) hs, h⟩
    | inr b₁ =>
      cases hact
      simp only [playOf_snoc, Event.play?, Option.toList_none, List.append_nil]
      exact ⟨Reach.refl _, h⟩
  | prog =>
    cases p with
    | ret a => cases hk
    | abort => cases hk
    | poll w k =>
      obtain rfl := Option.some.inj hk
      obtain ⟨k', rfl, hrest⟩ := h
      refine ⟨if S.ready w (M.exec (S.probe w) s).1 then k' else .poll w k', ?_⟩
      simp only [playOf_snoc, Event.play?, Option.toList_some, deeds_snoc, Event.deed?,
        Option.toList_none, List.append_nil]
      refine ⟨Reach.head (k := .prog) rfl (Reach.refl _), ?_⟩
      change O.Follows G (if S.ready w (M.exec (S.probe w) s).1 then k else .poll w k) _ _ _ _
      split
      · exact hrest
      · exact ⟨k', rfl, hrest⟩
    | call o k =>
      obtain rfl := Option.some.inj hk
      cases o with
      | inl o =>
        obtain ⟨k', rfl, hrest⟩ := h
        refine ⟨k' (M.exec o s).1, ?_⟩
        simp only [playOf_snoc, Event.play?, Option.toList_some, deeds_snoc, Event.deed?]
        exact ⟨reach_call o k' s (playOf t), hrest _⟩
      | inr o =>
        refine ⟨q, ?_⟩
        simp only [playOf_snoc, Event.play?, Option.toList_none, List.append_nil]
        exact ⟨Reach.refl _, h _ ⟨b, rfl⟩⟩

/-- **Soundness.**  Every run of the program is a run of the play. -/
theorem Follows.reach (h : O.Follows G p q R v (deeds (playOf t)))
    {c : Config (S.beside T) (σ × B × V) (A ⊕ B) α}
    (hc : (M.beside O).Reach ⟨p, (s, b, v), t⟩ c) :
    ∃ q', M.Reach ⟨q, s, playOf t⟩ ⟨q', c.state.1, playOf c.trace⟩ ∧
      O.Follows G c.prog q' R c.state.2.2 (deeds (playOf c.trace)) := by
  induction hc with
  | refl => exact ⟨q, Reach.refl _, h⟩
  | tail _ hstep ih =>
    obtain ⟨q₁, hreach, hfollows⟩ := ih
    obtain ⟨q₂, hreach', hfollows'⟩ := hfollows.step hstep
    exact ⟨q₂, hreach.trans hreach', hfollows'⟩

/-- Asides end by themselves. -/
lemma Follows.exists_play (h : O.Follows G p q R v l) (s : σ) (b : B)
    (t : Trace (S.beside T) (A ⊕ B)) :
    ∃ p' v' t', (M.beside O).Reach ⟨p, (s, b, v), t⟩ ⟨p', (s, b, v'), t'⟩ ∧
      playOf t' = playOf t ∧ ¬ p'.head.Aside ∧ O.Follows G p' q R v' l := by
  induction p generalizing v t with
  | ret a => exact ⟨_, v, t, Reach.refl _, rfl, id, h⟩
  | abort => exact ⟨_, v, t, Reach.refl _, rfl, id, h⟩
  | poll w k => exact ⟨_, v, t, Reach.refl _, rfl, id, h⟩
  | call o k ih =>
    cases o with
    | inl o => exact ⟨_, v, t, Reach.refl _, rfl, id, h⟩
    | inr o =>
      obtain ⟨p', v', t', hreach, hplay, haside, hfollows⟩ :=
        ih (O.reply b v o) (h _ ⟨b, rfl⟩) (t ++ [.call (.inr o) (O.reply b v o)])
      refine ⟨p', v', t', ?_, ?_, haside, hfollows⟩
      · exact (reach_call (M := M.beside O) (.inr o) k (s, b, v) t).trans hreach
      · rw [hplay, playOf_snoc, Event.play?, Option.toList_none, List.append_nil]

/-- One tick of the play. -/
lemma Follows.exists_step (hG : ∀ d v l, G d v l → d = .abort) {t' : Trace S A}
    (h : O.Follows G p q R v (deeds t')) (ht : playOf t = t') {c' : Config S σ A β}
    (hc : M.Step ⟨q, s, t'⟩ c') :
    ∃ c, (M.beside O).Reach ⟨p, (s, b, v), t⟩ c ∧ c.state.1 = c'.state ∧
      playOf c.trace = c'.trace ∧ O.Follows G c.prog c'.prog R c.state.2.2 (deeds c'.trace) := by
  subst ht
  obtain ⟨k, hk⟩ := hc
  cases k with
  | env a =>
    obtain ⟨s', hs, rfl⟩ := Option.map_eq_some_iff.mp hk
    have hact : (M.beside O).act (.inl a) (s, b, v) = some (s', b, v) :=
      congrArg (Option.map fun s' => (s', b, v)) hs
    refine ⟨⟨p, (s', b, v), t ++ [.act (.inl a)]⟩, reach_env t hact, rfl, ?_, ?_⟩
    · rw [playOf_snoc, Event.play?, Option.toList_some]
    · simpa [deeds_snoc, Event.deed?] using h
  | prog =>
    obtain ⟨p', v', t', hreach, hplay, haside, hfollows⟩ := h.exists_play (M := M) s b t
    rw [← hplay] at hk hfollows
    cases p' with
    | ret a =>
      obtain ⟨b, rfl, -⟩ := hfollows
      cases hk
    | abort =>
      rw [Prog.eq_abort_of_head (hG _ _ _ hfollows)] at hk
      cases hk
    | poll w k =>
      obtain ⟨k', rfl, hrest⟩ := hfollows
      obtain rfl := Option.some.inj hk
      refine ⟨_, hreach.trans (Reach.head (k := .prog) rfl (Reach.refl _)), rfl, ?_, ?_⟩
      · rw [playOf_snoc]
        rfl
      · simp only [deeds_snoc, Event.deed?, Option.toList_none, List.append_nil]
        change O.Follows G (if S.ready w (M.exec (S.probe w) s).1 then k else .poll w k) _ _ _ _
        split
        · exact hrest
        · exact ⟨k', rfl, hrest⟩
    | call o k =>
      cases o with
      | inr o => exact absurd trivial haside
      | inl o =>
        obtain ⟨k', rfl, hrest⟩ := hfollows
        obtain rfl := Option.some.inj hk
        refine ⟨_, hreach.trans (reach_call (M := M.beside O) (.inl o) k _ _), rfl, ?_, ?_⟩
        · rw [playOf_snoc]
          rfl
        · rw [deeds_snoc]
          exact hrest _

/-- **Completeness.**  Where the program stops only with the play, every run of the play is one of
the program, which goes on to what the play does next. -/
theorem Follows.exists_reach (hG : ∀ d v l, G d v l → d = .abort)
    (h : O.Follows G p q R v (deeds (playOf t))) (b : B) {c' : Config S σ A β}
    (hc : M.Reach ⟨q, s, playOf t⟩ c') :
    ∃ c, (M.beside O).Reach ⟨p, (s, b, v), t⟩ c ∧ c.state.1 = c'.state ∧
      playOf c.trace = c'.trace ∧ ¬ c.prog.head.Aside ∧
      O.Follows G c.prog c'.prog R c.state.2.2 (deeds c'.trace) := by
  suffices hplay : ∃ c, (M.beside O).Reach ⟨p, (s, b, v), t⟩ c ∧ c.state.1 = c'.state ∧
      playOf c.trace = c'.trace ∧ O.Follows G c.prog c'.prog R c.state.2.2 (deeds c'.trace) by
    obtain ⟨⟨p₁, ⟨s₁, b₁, v₁⟩, t₁⟩, hreach, hstate, htrace, hfollows⟩ := hplay
    obtain ⟨p₂, v₂, t₂, hreach', hplay, haside, hfollows'⟩ := hfollows.exists_play (M := M) s₁ b₁ t₁
    exact ⟨_, hreach.trans hreach', hstate, hplay.trans htrace, haside, hfollows'⟩
  induction hc with
  | refl => exact ⟨_, Reach.refl _, rfl, rfl, h⟩
  | @tail c₁ c₂ _ hstep ih =>
    obtain ⟨⟨p₁, ⟨s₁, b₁, v₁⟩, t₁⟩, hreach, hstate, htrace, hfollows⟩ := ih
    obtain ⟨q₁, s₂, t₂⟩ := c₁
    obtain rfl : s₁ = s₂ := hstate
    obtain ⟨c, hreach', hstate', htrace', hfollows'⟩ := hfollows.exists_step hG htrace hstep
    exact ⟨c, hreach.trans hreach', hstate', htrace', hfollows'⟩

/-- The runs of `p` are, their asides left out, exactly the runs of the play `q`, with the same
states, the same trace and the same end; `value` is what the play returns of what `p` returns. -/
structure SameRuns (M : Machine S σ A) (O : Oracle T B V) (value : α → β)
    (p : Prog (S.beside T) α) (q : Prog S β) (v : V) : Prop where
  sound : ∀ s b c, (M.beside O).Reach ⟨p, (s, b, v), []⟩ c →
    ∃ q', M.Reach ⟨q, s, []⟩ ⟨q', c.state.1, playOf c.trace⟩ ∧
      (∀ a, c.prog = .ret a → q' = .ret (value a)) ∧ (c.prog = .abort → q' = .abort)
  complete : ∀ s b c', M.Reach ⟨q, s, []⟩ c' →
    ∃ c, (M.beside O).Reach ⟨p, (s, b, v), []⟩ c ∧ c.state.1 = c'.state ∧
      playOf c.trace = c'.trace ∧ (∀ y, c'.prog = .ret y → ∃ a, c.prog = .ret a ∧ value a = y) ∧
      (c'.prog = .abort → c.prog = .abort)

/-- A program that is not in an aside has returned when its play has. -/
lemma Follows.exists_ret (hG : ∀ d v l, G d v l → d = .abort) {y : β}
    (h : O.Follows G p (.ret y) R v l) (haside : ¬ p.head.Aside) : ∃ a, p = .ret a ∧ R a y v l := by
  cases p with
  | ret a =>
    obtain ⟨b, hb, hret⟩ := h
    cases hb
    exact ⟨a, rfl, hret⟩
  | abort => cases hG _ _ _ h
  | poll w k =>
    obtain ⟨k', hk, -⟩ := h
    cases hk
  | call o k =>
    cases o with
    | inr o => exact absurd trivial haside
    | inl o =>
      obtain ⟨k', hk, -⟩ := h
      cases hk

lemma Follows.eq_abort (h : O.Follows G p (.abort : Prog S β) R v l) (haside : ¬ p.head.Aside) :
    p = .abort := by
  cases p with
  | abort => rfl
  | ret a =>
    obtain ⟨b, hb, -⟩ := h
    cases hb
  | poll w k =>
    obtain ⟨k', hk, -⟩ := h
    cases hk
  | call o k =>
    cases o with
    | inr o => exact absurd trivial haside
    | inl o =>
      obtain ⟨k', hk, -⟩ := h
      cases hk

/-- A program that is not in an aside does next what its play does next. -/
lemma Follows.head_eq (hG : ∀ d v l, G d v l → d = .abort) (h : O.Follows G p q R v l)
    (haside : ¬ p.head.Aside) : p.head = q.head.play T := by
  cases p with
  | ret a =>
    obtain ⟨b, rfl, -⟩ := h
    rfl
  | abort => exact (congrArg (Head.play T) (hG _ _ _ h)).symm
  | poll w k =>
    obtain ⟨k', rfl, -⟩ := h
    rfl
  | call o k =>
    cases o with
    | inr o => exact absurd trivial haside
    | inl o =>
      obtain ⟨k', rfl, -⟩ := h
      rfl

/-- A program that follows a play and stops only with it has the same runs. -/
theorem Follows.sameRuns (hG : ∀ d v l, G d v l → d = .abort) {value : α → β}
    (hR : ∀ a b v l, R a b v l → value a = b) (h : O.Follows G p q R v []) :
    SameRuns M O value p q v where
  sound s b c hc := by
    obtain ⟨q', hreach, hfollows⟩ := h.reach (t := []) hc
    refine ⟨q', hreach, fun a ha => ?_, fun habort => ?_⟩
    · rw [ha] at hfollows
      obtain ⟨y, rfl, hret⟩ := hfollows
      rw [hR _ _ _ _ hret]
    · rw [habort] at hfollows
      exact Prog.eq_abort_of_head (hG _ _ _ hfollows)
  complete s b c' hc := by
    obtain ⟨c, hreach, hstate, htrace, haside, hfollows⟩ := h.exists_reach hG (t := []) b hc
    refine ⟨c, hreach, hstate, htrace, fun y hy => ?_, fun habort => ?_⟩
    · rw [hy] at hfollows
      obtain ⟨a, ha, hret⟩ := hfollows.exists_ret hG haside
      exact ⟨a, ha, hR _ _ _ _ hret⟩
    · rw [habort] at hfollows
      exact hfollows.eq_abort haside

/-! ## Rules -/

lemma Follows.conseq {G' : Head S → V → List (Deed S) → Prop}
    {R' : α → β → V → List (Deed S) → Prop} (h : O.Follows G p q R v l)
    (hG : ∀ d v l, G d v l → G' d v l) (hR : ∀ a b v l, R a b v l → R' a b v l) :
    O.Follows G' p q R' v l := by
  induction p generalizing q v l with
  | ret a =>
    obtain ⟨b, hq, hret⟩ := h
    exact ⟨b, hq, hR _ _ _ _ hret⟩
  | abort => exact hG _ _ _ h
  | poll w k ih =>
    obtain ⟨k', hq, hrest⟩ := h
    exact ⟨k', hq, ih hrest⟩
  | call o k ih =>
    cases o with
    | inl o =>
      obtain ⟨k', hq, hrest⟩ := h
      exact ⟨k', hq, fun r => ih r (hrest r)⟩
    | inr o => exact fun r hr => ih r (h r hr)

/-- One after the other, if the program stops only with the play. -/
lemma Follows.bind (hG : ∀ d v l, G d v l → d = .abort) (h : O.Follows G p q R v l)
    {f : α → Prog (S.beside T) γ} {g : β → Prog S δ} {U : γ → δ → V → List (Deed S) → Prop}
    (hf : ∀ a b v l, R a b v l → O.Follows G (f a) (g b) U v l) :
    O.Follows G (p >>= f) (q >>= g) U v l := by
  induction p generalizing q v l with
  | ret a =>
    obtain ⟨b, rfl, hret⟩ := h
    exact hf _ _ _ _ hret
  | abort =>
    obtain rfl := Prog.eq_abort_of_head (hG _ _ _ h)
    exact h
  | poll w k ih =>
    obtain ⟨k', rfl, hrest⟩ := h
    exact ⟨_, rfl, ih hrest⟩
  | call o k ih =>
    cases o with
    | inl o =>
      obtain ⟨k', rfl, hrest⟩ := h
      exact ⟨_, rfl, fun r => ih r (hrest r)⟩
    | inr o => exact fun r hr => ih r (h r hr)

/-- What the play may return, it returns here too. -/
lemma Follows.and_returns (h : O.Follows G p q R v l) {φ : β → Prop} (hq : q.Returns φ) :
    O.Follows G p q (fun a b v l => R a b v l ∧ φ b) v l := by
  induction p generalizing q v l with
  | ret a =>
    obtain ⟨b, rfl, hret⟩ := h
    exact ⟨b, rfl, hret, hq⟩
  | abort => exact h
  | poll w k ih =>
    obtain ⟨k', rfl, hrest⟩ := h
    exact ⟨k', rfl, ih hrest hq⟩
  | call o k ih =>
    cases o with
    | inl o =>
      obtain ⟨k', rfl, hrest⟩ := h
      exact ⟨k', rfl, fun r => ih r (hrest r) (hq r)⟩
    | inr o => exact fun r hr => ih r (h r hr) hq

/-- An aside is not noticed by the play. -/
lemma Follows.aside_bind [IsEmpty T.Wait] {H : Head T → V → Prop} {p : Prog T γ}
    {Q : γ → V → Prop} {f : γ → Prog (S.beside T) α} (h : O.Ensures H p Q v)
    (hG : ∀ v, H .abort v → G q.head v l) (hf : ∀ a v, Q a v → O.Follows G (f a) q R v l) :
    O.Follows G (p.aside S >>= f) q R v l := by
  induction p generalizing v with
  | ret a => exact hf a v h
  | abort => exact hG v h
  | poll w k => exact isEmptyElim w
  | call o k ih => exact fun r hr => ih r (h.2 r hr)

/-- A play follows itself, and keeps what each of its operations keeps. -/
lemma follows_play {φ : Head S → Prop} {I : List (Deed S) → Prop} {p : Prog S α}
    (hp : p.Every φ) (hcall : ∀ o r l, φ (.call o) → I l → I (l ++ [⟨o, r⟩]))
    (habort : ∀ l, φ .abort → I l → G .abort v l) (h : I l) :
    O.Follows G (p.play T) p (fun a b v' l => b = a ∧ v' = v ∧ I l) v l := by
  induction p generalizing l with
  | ret a => exact ⟨a, rfl, rfl, rfl, h⟩
  | abort => exact habort l hp h
  | poll w k ih => exact ⟨k, rfl, ih hp.2 h⟩
  | call o k ih => exact ⟨k, rfl, fun r => ih r (hp.2 r) (hcall o r l hp.1 h)⟩

/-- One operation of the play. -/
lemma follows_op {o : S.Op} {f : S.Res o → Prog (S.beside T) α} {g : S.Res o → Prog S β}
    (h : ∀ r, O.Follows G (f r) (g r) R v (l ++ [⟨o, r⟩])) :
    O.Follows G ((Prog.op o).play T >>= f) (Prog.op o >>= g) R v l :=
  ⟨g, rfl, h⟩

end Oracle

end Interaction
