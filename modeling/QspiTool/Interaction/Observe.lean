import QspiTool.Interaction.Logic

/-!
# Observers

An observer looks at the state before each operation of a program and makes a list of what it
sees there.  Neither the program nor the environment knows of it: the state along a run is a
function of the trace (`replay`), so what an observer has seen is one too (`observed`), and no
machine has to be extended for it.

`Seen look s₀ t₀ l` says that the observer who began at `s₀`, when the trace was `t₀`, has seen
`l`.  An operation that shows nothing keeps it (`hidden_triple`).
-/

namespace Interaction

variable {S : Signature} {σ A α E : Type}

namespace Machine

/-! ## Replaying a trace -/

section

variable (M : Machine S σ A) (look : σ → S.Op → List E)

/-- The state after one more event. -/
def replay (s : σ) : Event S A → σ
  | .call o _ => (M.exec o s).2
  | .spin w _ => (M.exec (S.probe w) s).2
  | .act a => (M.act a s).getD s

/-- What the observer sees when the event happens. -/
def glimpse (s : σ) : Event S A → List E
  | .call o _ => look s o
  | .spin w _ => look s (S.probe w)
  | .act _ => []

/-- What the observer has seen after a trace from `s` on. -/
def observed : σ → Trace S A → List E
  | _, [] => []
  | s, e :: t => glimpse look s e ++ observed (M.replay s e) t

/-- The observer who began at `s₀`, when the trace was `t₀`, has seen `l`. -/
def Seen (s₀ : σ) (t₀ : Trace S A) (l : List E) : Assertion S σ A := fun s t =>
  ∃ u, t = t₀ ++ u ∧ s = u.foldl M.replay s₀ ∧ M.observed look s₀ u = l

end

variable {M : Machine S σ A} {look : σ → S.Op → List E} {s₀ s : σ} {t₀ t : Trace S A} {l : List E}

lemma observed_snoc (u : Trace S A) (e : Event S A) :
    M.observed look s₀ (u ++ [e]) =
      M.observed look s₀ u ++ glimpse look (u.foldl M.replay s₀) e := by
  induction u generalizing s₀ with
  | nil => simp [observed]
  | cons e' u ih => simp only [List.cons_append, observed, ih, List.foldl_cons, List.append_assoc]

lemma seen_start : M.Seen look s₀ t₀ [] s₀ t₀ := ⟨[], by simp, rfl, rfl⟩

/-- What has been seen can be read off the trace. -/
lemma Seen.observed_drop (h : M.Seen look s₀ t₀ l s t) :
    M.observed look s₀ (t.drop t₀.length) = l := by
  obtain ⟨u, rfl, -, hu⟩ := h
  rwa [List.drop_left]

/-- One event more. -/
lemma Seen.event (h : M.Seen look s₀ t₀ l s t) (e : Event S A) :
    M.Seen look s₀ t₀ (l ++ glimpse look s e) (M.replay s e) (t ++ [e]) := by
  obtain ⟨u, rfl, rfl, rfl⟩ := h
  exact ⟨u ++ [e], List.append_assoc _ _ _, by simp, observed_snoc u e⟩

lemma Seen.act (h : M.Seen look s₀ t₀ l s t) {a : A} {s' : σ} (hact : M.act a s = some s') :
    M.Seen look s₀ t₀ l s' (t ++ [.act a]) := by
  have hevent := h.event (.act a)
  rwa [glimpse, List.append_nil, replay, hact, Option.getD_some] at hevent

lemma stable_seen : M.Stable (M.Seen look s₀ t₀ l) := fun _ _ _ _ h hact => h.act hact

/-! ## Rules -/

/-- The observer sees nothing of what the program is about to do. -/
def Hidden (look : σ → S.Op → List E) : Head S → Prop
  | .call o => ∀ s, look s o = []
  | .poll w => ∀ s, look s (S.probe w) = []
  | .abort | .done => True

/-- **A program that shows nothing** leaves the observer with what it has seen. -/
lemma hidden_triple {p : Prog S α} (hp : p.Every (Hidden look)) :
    M.Triple (fun _ => M.Seen look s₀ t₀ l) (M.Seen look s₀ t₀ l) p
      fun _ => M.Seen look s₀ t₀ l := by
  refine Triple.invariant hp stable_seen (fun _ _ _ _ hs => hs) ?_ ?_
  · intro o s t ho hs
    have hevent := hs.event (.call o (M.exec o s).1)
    rwa [glimpse, ho s, List.append_nil] at hevent
  · intro w s t hw hs
    have hevent := hs.event (.spin w (M.exec (S.probe w) s).1)
    rwa [glimpse, hw s, List.append_nil] at hevent

/-- An operation shows the observer what the state before it says. -/
lemma Seen.call (h : M.Seen look s₀ t₀ l s t) (o : S.Op) :
    M.Seen look s₀ t₀ (l ++ look s o) (M.exec o s).2 (t ++ [.call o (M.exec o s).1]) :=
  h.event (.call o (M.exec o s).1)

end Machine

end Interaction
