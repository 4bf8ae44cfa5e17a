import Mathlib.Data.List.Induction
import QspiTool.Interaction.Logic

/-!
# Reading traces

A monitor reads the trace of a run event by event and keeps a state of its own.  It turns a
condition on the order of events (what the environment did between which operations) into a
value that assertions can speak about, and that a test can compute.

A trace records the accesses of the program and the actions of the environment between them.
`ownEvents` leaves out the latter.  The environment cannot change what the program has done, so
every assertion about it is stable, and a program without branches has done exactly the accesses
that are written in it, with the answers it got (`recorded_op`).
-/

namespace Interaction

/-- An observer of traces. -/
structure Monitor (S : Signature) (A : Type) where
  State : Type
  init : State
  next : State → Event S A → State

variable {S : Signature} {σ A α β : Type}

namespace Monitor

variable (m : Monitor S A)

/-- The state of the monitor after a trace. -/
def after (t : Trace S A) : m.State := t.foldl m.next m.init

@[simp] lemma after_snoc (t : Trace S A) (e : Event S A) :
    m.after (t ++ [e]) = m.next (m.after t) e := by
  simp [after]

/-- What the monitor keeps whatever happens, the rest of a run keeps. -/
lemma keeps_append {φ : m.State → Prop} (hφ : ∀ q e, φ q → φ (m.next q e)) {t : Trace S A}
    (h : φ (m.after t)) (u : Trace S A) : φ (m.after (t ++ u)) := by
  induction u generalizing t with
  | nil => rwa [List.append_nil]
  | cons e u ih =>
    rw [← List.singleton_append, ← List.append_assoc]
    exact ih (by rw [after_snoc]; exact hφ _ e h)

/-- What holds at the start and is kept whatever happens, holds after every trace. -/
lemma invariant {φ : m.State → Prop} (hinit : φ m.init) (hφ : ∀ q e, φ q → φ (m.next q e))
    (t : Trace S A) : φ (m.after t) :=
  m.keeps_append (t := []) hφ hinit t

/-- What has come to hold has come to hold with some event. -/
lemma exists_turn {φ : m.State → Prop} (hinit : ¬ φ m.init) {t : Trace S A}
    (h : φ (m.after t)) :
    ∃ t₁ e t₂, t = t₁ ++ e :: t₂ ∧ ¬ φ (m.after t₁) ∧ φ (m.next (m.after t₁) e) := by
  induction t using List.reverseRecOn with
  | nil => exact absurd h hinit
  | append_singleton t e ih =>
    by_cases hbefore : φ (m.after t)
    · obtain ⟨t₁, e', t₂, rfl, hfirst, hturn⟩ := ih hbefore
      exact ⟨t₁, e', t₂ ++ [e], by simp, hfirst, hturn⟩
    · rw [after_snoc] at h
      exact ⟨t, e, [], rfl, hbefore, h⟩

end Monitor

/-! ## What the program itself has done -/

/-- The event is one of the program. -/
def Event.isOwn : Event S A → Bool
  | .call _ _ | .spin _ _ => true
  | .act _ => false

/-- What the program has done so far, oldest first. -/
def ownEvents (t : Trace S A) : Trace S A := t.filter Event.isOwn

@[simp] lemma ownEvents_nil : ownEvents ([] : Trace S A) = [] := rfl

@[simp] lemma ownEvents_act (t : Trace S A) (a : A) :
    ownEvents (t ++ [.act a]) = ownEvents t := by
  simp [ownEvents, Event.isOwn]

@[simp] lemma ownEvents_call (t : Trace S A) (o : S.Op) (r : S.Res o) :
    ownEvents (t ++ [.call o r]) = ownEvents t ++ [.call o r] := by
  simp [ownEvents, Event.isOwn]

@[simp] lemma ownEvents_spin (t : Trace S A) (w : S.Wait) (r : S.Res (S.probe w)) :
    ownEvents (t ++ [.spin w r]) = ownEvents t ++ [.spin w r] := by
  simp [ownEvents, Event.isOwn]

namespace Machine

variable {M : Machine S σ A} {G : Head S → Assertion S σ A}

lemma stable_ownEvents (c : Trace S A → Prop) : M.Stable fun _ t => c (ownEvents t) := by
  intro a s s' t h _
  rwa [ownEvents_act]

/-- The program has done exactly `l`. -/
def Recorded (l : Trace S A) : Assertion S σ A := fun _ t => ownEvents t = l

lemma stable_recorded (l : Trace S A) : M.Stable (Recorded l) := stable_ownEvents (· = l)

/-- One more operation. -/
lemma recorded_op {l : Trace S A} (o : S.Op)
    (hG : ∀ s t, ownEvents t = l → G (.call o) s t) :
    M.Triple G (Recorded l) (Prog.op o) fun r => Recorded (l ++ [.call o r]) := by
  refine Triple.op (stable_recorded l) (fun r => stable_recorded _) hG ?_
  intro s t hs
  rw [Recorded, ownEvents_call, hs]

end Machine

end Interaction
