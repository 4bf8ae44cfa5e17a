import Mathlib.Logic.IsEmpty.Defs
import QspiTool.Interaction.Logic

/-!
# Surroundings that only answer

Some surroundings never act on what the program has done: they answer its operations, the answer
decides what an operation does, and all that may happen between two operations is that they
change their mind about the answers to come.  `Oracle` says what they answer and what each
operation then does to the record; `Oracle.machine` is the machine.

A program before an oracle can be verified as a sequential one.  `Ensures` is the weakest
precondition of the program in which every operation may get any answer the oracle could give,
with no environment between the operations.  It is sound for every interleaving
(`Ensures.triple`) and, without waits, exact (`ensures_iff_reach`).
-/

namespace Interaction

/-- `A` is what the oracle has in mind, `V` the record of what has been done. -/
structure Oracle (S : Signature) (A V : Type) where
  reply : A → V → (o : S.Op) → S.Res o
  next : V → (o : S.Op) → S.Res o → V

variable {S : Signature} {A V α β : Type}

namespace Oracle

open Machine

section

variable (O : Oracle S A V)

/-- The oracle as a machine: its actions are its changes of mind. -/
def machine : Machine S (A × V) A where
  exec o s := (O.reply s.1 s.2 o, s.1, O.next s.2 o (O.reply s.1 s.2 o))
  act a s := some (a, s.2)

/-- The oracle could answer `r`. -/
def May (v : V) (o : S.Op) (r : S.Res o) : Prop := ∃ a, O.reply a v o = r

/-- From the record `v`, whatever is answered: `p` does only what `G` allows, and where it
returns `Q` holds.  A program that waits ensures nothing. -/
def Ensures (G : Head S → V → Prop) : Prog S α → (α → V → Prop) → V → Prop
  | .ret a, Q, v => Q a v
  | .abort, _, v => G .abort v
  | .call o k, Q, v => G (.call o) v ∧ ∀ r, O.May v o r → Ensures G (k r) Q (O.next v o r)
  | .poll _ _, _, _ => False

end

variable {O : Oracle S A V} {G : Head S → V → Prop} {p : Prog S α} {f : α → Prog S β}
  {Q : α → V → Prop} {U : β → V → Prop} {v : V}

/-! ## Adequacy -/

/-- A change of mind leaves the record. -/
lemma record_of_drift {s s' : A × V} {t t' : Trace S A} (h : O.machine.Drift s t s' t') :
    s'.2 = s.2 := by
  induction h with
  | refl => rfl
  | tail _ hact ih => exact (congrArg Prod.snd (Option.some.inj hact)).symm.trans ih

/-- **Adequacy.**  What the sequential program ensures, every interleaving keeps to. -/
theorem Ensures.triple (h : O.Ensures G p Q v) :
    O.machine.Triple (fun d s _ => G d s.2) (fun s _ => s.2 = v) p fun a s _ => Q a s.2 := by
  induction p generalizing v with
  | ret a =>
    rintro s t rfl s' t' hdrift
    rw [record_of_drift hdrift]
    exact h
  | abort =>
    rintro s t rfl s' t' hdrift
    rw [record_of_drift hdrift]
    exact h
  | call o k ih =>
    rintro s t rfl s' t' hdrift
    have hrecord := record_of_drift hdrift
    have hcall : G (.call o) s'.2 ∧ ∀ r, O.May s'.2 o r →
        O.Ensures G (k r) Q (O.next s'.2 o r) := by rwa [hrecord]
    exact ⟨hcall.1, ih _ (hcall.2 _ ⟨s'.1, rfl⟩) _ _ rfl⟩
  | poll w k => exact h.elim

/-- What the guarantee says holds wherever the program stands. -/
theorem Ensures.guarantee {a : A} {t : Trace S A} (h : O.Ensures G p Q v)
    {c : Config S (A × V) A α} (hc : O.machine.Reach ⟨p, (a, v), t⟩ c)
    (hd : c.prog.head ≠ .done) : G c.prog.head c.state.2 :=
  h.triple.guarantee rfl hc hd

/-- What the postcondition says holds wherever the program has returned. -/
theorem Ensures.returns {a a' : A} {t t' : Trace S A} {v' : V} {x : α} (h : O.Ensures G p Q v)
    (hc : O.machine.Reach ⟨p, (a, v), t⟩ ⟨.ret x, (a', v'), t'⟩) : Q x v' :=
  h.triple.returns rfl hc

/-- **Exactness.**  Where there is nothing to wait for, what every interleaving keeps to, the
sequential program ensures: the oracle may think of the right answer before each operation. -/
theorem ensures_iff_reach [IsEmpty S.Wait] {a : A} {t : Trace S A} :
    O.Ensures G p Q v ↔
      ∀ c, O.machine.Reach ⟨p, (a, v), t⟩ c →
        (c.prog.head ≠ .done → G c.prog.head c.state.2) ∧
        ∀ x, c.prog = .ret x → Q x c.state.2 := by
  constructor
  · rintro h ⟨p', ⟨a', v'⟩, t'⟩ hc
    refine ⟨fun hd => h.guarantee hc hd, ?_⟩
    rintro x rfl
    exact h.returns hc
  · intro h
    induction p generalizing a v t with
    | ret x => exact (h _ (Reach.refl _)).2 x rfl
    | abort => exact (h _ (Reach.refl _)).1 (by rintro ⟨⟩)
    | call o k ih =>
      refine ⟨(h _ (Reach.refl _)).1 (by rintro ⟨⟩), ?_⟩
      rintro r ⟨a', rfl⟩
      refine ih _ (a := a') (t := t ++ [.act a'] ++ [.call o (O.reply a' v o)]) fun c hc => ?_
      have hmind : O.machine.Reach ⟨.call o k, (a, v), t⟩ ⟨.call o k, (a', v), t ++ [.act a']⟩ :=
        reach_env t rfl
      exact h c ((hmind.trans (reach_call o k _ _)).trans hc)
    | poll w k => exact isEmptyElim w

/-! ## Rules -/

@[simp] lemma ensures_ret {a : α} : O.Ensures G (.ret a) Q v ↔ Q a v := Iff.rfl

@[simp] lemma ensures_abort : O.Ensures G (.abort : Prog S α) Q v ↔ G .abort v := Iff.rfl

@[simp] lemma ensures_op {o : S.Op} {Q : S.Res o → V → Prop} :
    O.Ensures G (Prog.op o) Q v ↔ G (.call o) v ∧ ∀ r, O.May v o r → Q r (O.next v o r) := Iff.rfl

@[simp] lemma ensures_bind :
    O.Ensures G (p >>= f) U v ↔ O.Ensures G p (fun a v => O.Ensures G (f a) U v) v := by
  induction p generalizing v with
  | ret a => rfl
  | abort => rfl
  | call o k ih =>
    exact and_congr_right fun _ => forall_congr' fun r => imp_congr_right fun _ => ih r
  | poll w k => rfl

lemma ensures_ite {c : Prop} [Decidable c] {p q : Prog S α} :
    O.Ensures G (if c then p else q) Q v ↔
      (c → O.Ensures G p Q v) ∧ (¬ c → O.Ensures G q Q v) := by
  split <;> rename_i hc <;> simp [hc]

lemma Ensures.conseq {G' : Head S → V → Prop} {Q' : α → V → Prop} (h : O.Ensures G p Q v)
    (hG : ∀ d v, G d v → G' d v) (hQ : ∀ a v, Q a v → Q' a v) : O.Ensures G' p Q' v := by
  induction p generalizing v with
  | ret a => exact hQ a v h
  | abort => exact hG _ v h
  | call o k ih => exact ⟨hG _ v h.1, fun r hr => ih r (h.2 r hr)⟩
  | poll w k => exact h

lemma Ensures.post {Q' : α → V → Prop} (h : O.Ensures G p Q v) (hQ : ∀ a v, Q a v → Q' a v) :
    O.Ensures G p Q' v :=
  h.conseq (fun _ _ hd => hd) hQ

end Oracle

end Interaction
