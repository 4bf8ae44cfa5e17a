import Mathlib.Logic.Relation
import QspiTool.Interaction.Program

/-!
# Machines: programs interleaved with an active environment

A `Machine` interprets the operations of a signature over a state, and has actions of its
own that may happen between any two operations (a device raising a flag, a word arriving in
a FIFO).  A configuration holds the rest of the program, the state and the trace of
everything that has happened.  One tick is either one operation of the program or one action
of the environment, so a list of ticks is a schedule and `run` is the execution of that
schedule: every interleaving is some list of ticks.

`Reach c c'` says that some schedule leads from `c` to `c'`.  Because the trace records each
tick, a configuration `c` with `Reach c₀ c` and `Reach c c'` is one the run to `c'` passes
through.
-/

namespace Interaction

/-- The meaning of the operations of `S` over the states `σ`, with the actions `A` that the
environment may take by itself; `act a s = none` says that `a` cannot happen in `s`. -/
structure Machine (S : Signature) (σ A : Type) where
  exec : (o : S.Op) → σ → S.Res o × σ
  act : A → σ → Option σ

/-- One step of a schedule. -/
inductive Tick (A : Type) : Type
  | prog
  | env (a : A)
  deriving DecidableEq

/-- What a run records. -/
inductive Event (S : Signature) (A : Type) : Type
  | call (o : S.Op) (r : S.Res o)
  /-- One probe of a wait condition, the successful one included. -/
  | spin (w : S.Wait) (r : S.Res (S.probe w))
  | act (a : A)

/-- The events of a run, oldest first. -/
abbrev Trace (S : Signature) (A : Type) := List (Event S A)

/-- The rest of the program, the state, and what has happened so far. -/
structure Config (S : Signature) (σ A α : Type) where
  prog : Prog S α
  state : σ
  trace : Trace S A

variable {S : Signature} {σ A α β : Type}

/-- Continue a configuration with another program once its own returns. -/
def Config.bind (c : Config S σ A α) (f : α → Prog S β) : Config S σ A β :=
  ⟨c.prog >>= f, c.state, c.trace⟩

namespace Machine

variable (M : Machine S σ A)

/-- One tick; `none` when the program has ended or the action is not possible. -/
def step : Tick A → Config S σ A α → Option (Config S σ A α)
  | .env a, c => (M.act a c.state).map fun s => ⟨c.prog, s, c.trace ++ [.act a]⟩
  | .prog, ⟨.ret _, _, _⟩ => none
  | .prog, ⟨.abort, _, _⟩ => none
  | .prog, ⟨.call o k, s, t⟩ =>
      some ⟨k (M.exec o s).1, (M.exec o s).2, t ++ [.call o (M.exec o s).1]⟩
  | .prog, ⟨.poll w k, s, t⟩ =>
      some ⟨if S.ready w (M.exec (S.probe w) s).1 then k else .poll w k,
        (M.exec (S.probe w) s).2, t ++ [.spin w (M.exec (S.probe w) s).1]⟩

/-- The execution of a schedule. -/
def run : List (Tick A) → Config S σ A α → Option (Config S σ A α)
  | [], c => some c
  | k :: ks, c => (M.step k c).bind (run ks)

/-- Some tick leads from `c` to `c'`. -/
def Step (c c' : Config S σ A α) : Prop := ∃ k, M.step k c = some c'

/-- Some schedule leads from `c` to `c'`. -/
def Reach : Config S σ A α → Config S σ A α → Prop := Relation.ReflTransGen M.Step

variable {M}

lemma Reach.refl (c : Config S σ A α) : M.Reach c c := Relation.ReflTransGen.refl

lemma Reach.trans {c₁ c₂ c₃ : Config S σ A α} (h : M.Reach c₁ c₂) (h' : M.Reach c₂ c₃) :
    M.Reach c₁ c₃ :=
  Relation.ReflTransGen.trans h h'

lemma Reach.head {k : Tick A} {c₁ c₂ c₃ : Config S σ A α} (h : M.step k c₁ = some c₂)
    (h' : M.Reach c₂ c₃) : M.Reach c₁ c₃ :=
  Relation.ReflTransGen.head ⟨k, h⟩ h'

lemma reach_of_run {ks : List (Tick A)} {c c' : Config S σ A α} (h : M.run ks c = some c') :
    M.Reach c c' := by
  induction ks generalizing c with
  | nil =>
    obtain rfl := Option.some.inj h
    exact Reach.refl c
  | cons k ks ih =>
    obtain ⟨c₁, h₁, h₂⟩ := Option.bind_eq_some_iff.mp h
    exact Reach.head h₁ (ih h₂)

/-- The schedule in which the environment takes each action after so many ticks of the program,
which takes `n` more in the end. -/
def timed : List (Nat × A) → (n : Nat) → List (Tick A)
  | [], n => List.replicate n .prog
  | (k, a) :: actions, n => List.replicate k .prog ++ .env a :: timed actions n

/-- A test of the configuration a schedule ends in finds a reachable configuration. -/
lemma exists_reach_of_run (ks : List (Tick A)) {c : Config S σ A α}
    {test : Config S σ A α → Bool} (h : (M.run ks c).any test = true) :
    ∃ c', M.Reach c c' ∧ test c' = true := by
  obtain ⟨c', hc', ht⟩ := (Option.any_eq_true _ _).mp h
  exact ⟨c', reach_of_run hc', ht⟩

/-- The same for a program that has returned. -/
lemma exists_return_of_run (ks : List (Tick A)) {c : Config S σ A α} {test : α → σ → Bool}
    (h : ((M.run ks c).any fun c' => c'.prog.value?.any fun a => test a c'.state) = true) :
    ∃ a s t, M.Reach c ⟨.ret a, s, t⟩ ∧ test a s = true := by
  obtain ⟨⟨p, s, t⟩, hreach, hvalue⟩ := M.exists_reach_of_run ks h
  obtain ⟨a, ha, htest⟩ := (Option.any_eq_true _ _).mp hvalue
  obtain rfl := Prog.eq_ret_of_value? ha
  exact ⟨a, s, t, hreach, htest⟩

/-! ## Single steps -/

lemma step_env {a : A} {p : Prog S α} {s s' : σ} (t : Trace S A) (h : M.act a s = some s') :
    M.step (.env a) ⟨p, s, t⟩ = some ⟨p, s', t ++ [.act a]⟩ := by
  simp [step, h]

lemma reach_env {a : A} {p : Prog S α} {s s' : σ} (t : Trace S A) (h : M.act a s = some s') :
    M.Reach ⟨p, s, t⟩ ⟨p, s', t ++ [.act a]⟩ :=
  Reach.head (step_env t h) (Reach.refl _)

lemma reach_call (o : S.Op) (k : S.Res o → Prog S α) (s : σ) (t : Trace S A) :
    M.Reach ⟨.call o k, s, t⟩
      ⟨k (M.exec o s).1, (M.exec o s).2, t ++ [.call o (M.exec o s).1]⟩ :=
  Reach.head (k := .prog) rfl (Reach.refl _)

lemma reach_poll {w : S.Wait} (k : Prog S α) {s : σ} (t : Trace S A)
    (h : S.ready w (M.exec (S.probe w) s).1 = true) :
    M.Reach ⟨.poll w k, s, t⟩
      ⟨k, (M.exec (S.probe w) s).2, t ++ [.spin w (M.exec (S.probe w) s).1]⟩ :=
  Reach.head (k := .prog) (by simp [step, h]) (Reach.refl _)

lemma step_bind {k : Tick A} {c c' : Config S σ A α} (f : α → Prog S β)
    (h : M.step k c = some c') : M.step k (c.bind f) = some (c'.bind f) := by
  obtain ⟨p, s, t⟩ := c
  cases k with
  | env a =>
    obtain ⟨s', hs, rfl⟩ := Option.map_eq_some_iff.mp h
    simp [step, Config.bind, hs]
  | prog =>
    cases p with
    | ret a => cases h
    | abort => cases h
    | call o k =>
      obtain rfl := Option.some.inj h
      rfl
    | poll w k =>
      obtain rfl := Option.some.inj h
      simp only [Config.bind, Prog.poll_bind, step]
      split <;> rfl

/-- What the first program of a sequence can reach, the sequence can reach. -/
lemma Reach.bind {c c' : Config S σ A α} (f : α → Prog S β) (h : M.Reach c c') :
    M.Reach (c.bind f) (c'.bind f) := by
  induction h with
  | refl => exact Reach.refl _
  | tail _ hstep ih =>
    obtain ⟨k, hk⟩ := hstep
    exact ih.trans (Reach.head (step_bind f hk) (Reach.refl _))

/-- Run the first program to its value, then the second. -/
lemma Reach.seq {p : Prog S α} {f : α → Prog S β} {a : α} {s s' : σ} {t t' : Trace S A}
    {c : Config S σ A β} (h : M.Reach ⟨p, s, t⟩ ⟨.ret a, s', t'⟩)
    (h' : M.Reach ⟨f a, s', t'⟩ c) : M.Reach ⟨p >>= f, s, t⟩ c :=
  (h.bind f).trans h'

/-- A tick of a sequence whose first program has not returned is one of the first program. -/
lemma step_of_bind {k : Tick A} {p : Prog S α} {s : σ} {t : Trace S A} {f : α → Prog S β}
    {c' : Config S σ A β} (hp : p.head ≠ .done) (h : M.step k ⟨p >>= f, s, t⟩ = some c') :
    ∃ c, M.step k ⟨p, s, t⟩ = some c ∧ c' = c.bind f := by
  cases p with
  | ret a => exact absurd rfl hp
  | abort =>
    cases k with
    | prog => cases h
    | env a =>
      obtain ⟨s', hs, rfl⟩ := Option.map_eq_some_iff.mp h
      exact ⟨_, step_env t hs, rfl⟩
  | call o q =>
    cases k with
    | prog => exact ⟨_, rfl, (Option.some.inj h).symm⟩
    | env a =>
      obtain ⟨s', hs, rfl⟩ := Option.map_eq_some_iff.mp h
      exact ⟨_, step_env t hs, rfl⟩
  | poll w q =>
    cases k with
    | prog =>
      refine ⟨_, rfl, (Option.some.inj h).symm.trans ?_⟩
      simp only [Config.bind]
      split <;> rfl
    | env a =>
      obtain ⟨s', hs, rfl⟩ := Option.map_eq_some_iff.mp h
      exact ⟨_, step_env t hs, rfl⟩

/-- A sequence that has returned has passed through the return of its first program. -/
theorem Reach.exists_mid {p : Prog S α} {f : α → Prog S β} {b : β} {s s' : σ} {t t' : Trace S A}
    (h : M.Reach ⟨p >>= f, s, t⟩ ⟨.ret b, s', t'⟩) :
    ∃ a s₁ t₁, M.Reach ⟨p, s, t⟩ ⟨.ret a, s₁, t₁⟩ ∧
      M.Reach ⟨p >>= f, s, t⟩ ⟨f a, s₁, t₁⟩ ∧ M.Reach ⟨f a, s₁, t₁⟩ ⟨.ret b, s', t'⟩ := by
  suffices hmid : ∃ a s₁ t₁, M.Reach ⟨p, s, t⟩ ⟨.ret a, s₁, t₁⟩ ∧
      M.Reach ⟨f a, s₁, t₁⟩ ⟨.ret b, s', t'⟩ by
    obtain ⟨a, s₁, t₁, hfirst, hsecond⟩ := hmid
    exact ⟨a, s₁, t₁, hfirst, hfirst.seq (Reach.refl _), hsecond⟩
  generalize hc : (⟨p >>= f, s, t⟩ : Config S σ A β) = c at h
  induction h using Relation.ReflTransGen.head_induction_on generalizing p s t with
  | refl =>
    cases p with
    | ret a => exact ⟨a, s, t, Reach.refl _, hc ▸ Reach.refl _⟩
    | abort => cases hc
    | call o q => cases hc
    | poll w q => cases hc
  | head hstep hrest ih =>
    subst hc
    by_cases hdone : p.head = .done
    · obtain ⟨a, rfl⟩ := Prog.exists_ret_of_head hdone
      obtain ⟨k, hk⟩ := hstep
      exact ⟨a, s, t, Reach.refl _, Reach.head hk hrest⟩
    · obtain ⟨k, hk⟩ := hstep
      obtain ⟨c₁, hc₁, rfl⟩ := step_of_bind hdone hk
      obtain ⟨a, s₁, t₁, hreach, hreach'⟩ := ih rfl
      exact ⟨a, s₁, t₁, Reach.head hc₁ hreach, hreach'⟩

/-- One tick records one event; an operation is recorded by the tick that makes it. -/
lemma step_trace {k : Tick A} {c c' : Config S σ A α} (h : M.step k c = some c') :
    ∃ e, c'.trace = c.trace ++ [e] ∧ ∀ o r, e = .call o r → c.prog.head = .call o := by
  obtain ⟨p, s, t⟩ := c
  cases k with
  | env a =>
    obtain ⟨s', -, rfl⟩ := Option.map_eq_some_iff.mp h
    exact ⟨.act a, rfl, fun _ _ h => nomatch h⟩
  | prog =>
    cases p with
    | ret a => cases h
    | abort => cases h
    | call o k =>
      obtain rfl := Option.some.inj h
      refine ⟨_, rfl, fun o' r' he => ?_⟩
      cases he
      rfl
    | poll w k =>
      obtain rfl := Option.some.inj h
      exact ⟨_, rfl, fun _ _ h => nomatch h⟩

/-- The trace only grows. -/
lemma Reach.trace_prefix {c c' : Config S σ A α} (h : M.Reach c c') :
    ∃ t, c'.trace = c.trace ++ t := by
  induction h with
  | refl => exact ⟨[], by simp⟩
  | tail _ hstep ih =>
    obtain ⟨t, ht⟩ := ih
    obtain ⟨k, hk⟩ := hstep
    obtain ⟨e, he, -⟩ := step_trace hk
    exact ⟨t ++ [e], by rw [he, ht, List.append_assoc]⟩

/-- What happens does not depend on what has been recorded. -/
lemma step_prepend {k : Tick A} {c c' : Config S σ A α} (h : M.step k c = some c')
    (t : Trace S A) :
    M.step k ⟨c.prog, c.state, t ++ c.trace⟩ = some ⟨c'.prog, c'.state, t ++ c'.trace⟩ := by
  obtain ⟨p, s, u⟩ := c
  cases k with
  | env a =>
    obtain ⟨s', hs, rfl⟩ := Option.map_eq_some_iff.mp h
    simp [step, hs]
  | prog =>
    cases p with
    | ret a => cases h
    | abort => cases h
    | call o k =>
      obtain rfl := Option.some.inj h
      simp [step]
    | poll w k =>
      obtain rfl := Option.some.inj h
      simp [step]

lemma Reach.prepend {c c' : Config S σ A α} (h : M.Reach c c') (t : Trace S A) :
    M.Reach ⟨c.prog, c.state, t ++ c.trace⟩ ⟨c'.prog, c'.state, t ++ c'.trace⟩ := by
  induction h with
  | refl => exact Reach.refl _
  | tail _ hstep ih =>
    obtain ⟨k, hk⟩ := hstep
    exact ih.trans (Reach.head (step_prepend hk t) (Reach.refl _))

/-- A run passes through the configuration that is about to make a recorded operation. -/
theorem Reach.exists_of_trace {c c' : Config S σ A α} (h : M.Reach c c') {t u : Trace S A}
    {o : S.Op} {r : S.Res o} (ht : c'.trace = c.trace ++ t ++ .call o r :: u) :
    ∃ c₁, M.Reach c c₁ ∧ M.Reach c₁ c' ∧ c₁.trace = c.trace ++ t ∧ c₁.prog.head = .call o := by
  induction h generalizing u with
  | refl =>
    have hlen := congrArg List.length ht
    simp only [List.length_append, List.length_cons] at hlen
    omega
  | @tail c₂ c₃ hreach hstep ih =>
    obtain ⟨k, hk⟩ := hstep
    obtain ⟨e, he, hcall⟩ := step_trace hk
    have hlast : M.Reach c₂ c₃ := Reach.head hk (Reach.refl _)
    rw [he] at ht
    obtain rfl | ⟨u', x, rfl⟩ := List.eq_nil_or_concat u
    · -- the last event is the one looked for
      obtain ⟨htrace, hevent⟩ := List.append_inj' ht rfl
      exact ⟨c₂, hreach, hlast, htrace, hcall o r (List.cons.inj hevent).1⟩
    · rw [List.concat_eq_append, ← List.cons_append, ← List.append_assoc] at ht
      obtain ⟨c₁, h₁, h₂, htrace, hhead⟩ := ih (List.append_inj' ht rfl).1
      exact ⟨c₁, h₁, h₂.trans hlast, htrace, hhead⟩

/-- A run that has gone on from an operation has recorded it. -/
theorem Reach.exists_call {c c' : Config S σ A α} (h : M.Reach c c') {o : S.Op}
    (hhead : c.prog.head = .call o) (hlater : c'.prog.head ≠ .call o) :
    ∃ t r u, c'.trace = c.trace ++ t ++ .call o r :: u := by
  induction h using Relation.ReflTransGen.head_induction_on with
  | refl => exact absurd hhead hlater
  | @head c c₁ hstep hrest ih =>
    obtain ⟨p, s, t₀⟩ := c
    obtain ⟨k, hk⟩ := hstep
    cases k with
    | env a =>
      obtain ⟨s', -, rfl⟩ := Option.map_eq_some_iff.mp hk
      obtain ⟨t, r, u, htrace⟩ := ih hhead
      exact ⟨.act a :: t, r, u, by rw [htrace]; simp⟩
    | prog =>
      cases p with
      | ret a => cases hk
      | abort => cases hk
      | poll w q => cases hhead
      | call o' q =>
        obtain rfl := Head.call.inj hhead
        obtain rfl := Option.some.inj hk
        obtain ⟨u, hu⟩ := Reach.trace_prefix hrest
        refine ⟨[], (M.exec o' s).1, u, ?_⟩
        rw [hu]
        simp

/-! ## The environment between two operations -/

/-- What the environment may do while the program waits for its turn. -/
inductive Drift (M : Machine S σ A) : σ → Trace S A → σ → Trace S A → Prop
  | refl (s : σ) (t : Trace S A) : Drift M s t s t
  | tail {s t s₁ t₁ s₂ a} : Drift M s t s₁ t₁ → M.act a s₁ = some s₂ →
      Drift M s t s₂ (t₁ ++ [.act a])

lemma Drift.trans {s s₁ s₂ : σ} {t t₁ t₂ : Trace S A} (h : M.Drift s t s₁ t₁)
    (h' : M.Drift s₁ t₁ s₂ t₂) : M.Drift s t s₂ t₂ := by
  induction h' with
  | refl => exact h
  | tail _ hact ih => exact ih.tail hact

lemma Drift.single {s s' : σ} (t : Trace S A) {a : A} (h : M.act a s = some s') :
    M.Drift s t s' (t ++ [.act a]) :=
  (Drift.refl s t).tail h

lemma Drift.reach {s s' : σ} {t t' : Trace S A} (h : M.Drift s t s' t') (p : Prog S α) :
    M.Reach ⟨p, s, t⟩ ⟨p, s', t'⟩ := by
  induction h with
  | refl => exact Reach.refl _
  | tail _ hact ih => exact ih.trans (reach_env _ hact)

/-- What may happen while the program spins on `w` without success. -/
inductive Spin (M : Machine S σ A) (w : S.Wait) : σ → Trace S A → σ → Trace S A → Prop
  | refl (s : σ) (t : Trace S A) : Spin M w s t s t
  | act {s t s₁ t₁ s₂ a} : Spin M w s t s₁ t₁ → M.act a s₁ = some s₂ →
      Spin M w s t s₂ (t₁ ++ [.act a])
  | probe {s t s₁ t₁} : Spin M w s t s₁ t₁ →
      S.ready w (M.exec (S.probe w) s₁).1 = false →
      Spin M w s t (M.exec (S.probe w) s₁).2 (t₁ ++ [.spin w (M.exec (S.probe w) s₁).1])

lemma Spin.of_drift {w : S.Wait} {s s₁ s₂ : σ} {t t₁ t₂ : Trace S A} (h : M.Drift s t s₁ t₁)
    (h' : M.Spin w s₁ t₁ s₂ t₂) : M.Spin w s t s₂ t₂ := by
  induction h' with
  | refl =>
    induction h with
    | refl => exact Spin.refl _ _
    | tail _ hact ih => exact ih.act hact
  | act _ hact ih => exact ih.act hact
  | probe _ hready ih => exact ih.probe hready

end Machine

end Interaction
