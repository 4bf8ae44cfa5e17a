import Mathlib.Tactic.Lemma

/-!
# Polling programs over a signature of operations

A driver is a sequential program that talks to its surroundings one access at a time and
now and then spins until some access shows what it waits for.  `Prog S α` is the tree of
such a program: a leaf returns a value or stops at a failed assertion, `call o k` performs
the operation `o` and continues with its result, and `poll w k` repeats the probe of the
wait condition `w` until the answer is `ready`.

Every source-level loop other than a poll is an ordinary Lean recursion that *builds* the
tree, so the tree is inductive and induction over it needs no fuel.  What an operation does
is not fixed here: `Interaction.Machine` interprets it, and one program may be run on
several machines.

The syntactic judgement `Prog.Every φ p` says that every access the program can ever make,
whatever the answers, satisfies `φ`.
-/

namespace Interaction

/-- What a program may ask of its surroundings: operations with their result types, and the
conditions it may spin on, each with the operation that probes it. -/
structure Signature where
  Op : Type
  Res : Op → Type
  Wait : Type
  probe : Wait → Op
  ready : (w : Wait) → Res (probe w) → Bool

/-- The tree of a polling program. -/
inductive Prog (S : Signature) (α : Type) : Type
  | ret (a : α)
  /-- A failed assertion: the program stops for good. -/
  | abort
  | call (o : S.Op) (k : S.Res o → Prog S α)
  /-- Spin on `w`; the value that ends the spinning is dropped. -/
  | poll (w : S.Wait) (k : Prog S α)

/-- What a program is about to do. -/
inductive Head (S : Signature) : Type
  | done
  | abort
  | call (o : S.Op)
  | poll (w : S.Wait)

variable {S : Signature} {α β : Type}

namespace Prog

/-- Sequencing: graft `f a` onto every leaf `ret a`. -/
def bind : Prog S α → (α → Prog S β) → Prog S β
  | ret a, f => f a
  | abort, _ => abort
  | call o k, f => call o fun r => (k r).bind f
  | poll w k, f => poll w (k.bind f)

instance : Monad (Prog S) where
  pure := ret
  bind := bind

@[simp] lemma pure_eq (a : α) : (pure a : Prog S α) = ret a := rfl

@[simp] lemma ret_bind (a : α) (f : α → Prog S β) : (ret a >>= f) = f a := rfl

@[simp] lemma abort_bind (f : α → Prog S β) : ((abort : Prog S α) >>= f) = abort := rfl

@[simp] lemma call_bind (o : S.Op) (k : S.Res o → Prog S α) (f : α → Prog S β) :
    (call o k >>= f) = call o fun r => k r >>= f := rfl

@[simp] lemma poll_bind (w : S.Wait) (k : Prog S α) (f : α → Prog S β) :
    (poll w k >>= f) = poll w (k >>= f) := rfl

@[simp] lemma bind_ret (p : Prog S α) : (p >>= ret) = p := by
  induction p with
  | ret a => rfl
  | abort => rfl
  | call o k ih => exact congrArg (call o) (funext ih)
  | poll w k ih => exact congrArg (poll w) ih

lemma bind_assoc {γ : Type} (p : Prog S α) (f : α → Prog S β) (g : β → Prog S γ) :
    (p >>= f) >>= g = p >>= fun a => f a >>= g := by
  induction p with
  | ret a => rfl
  | abort => rfl
  | call o k ih => exact congrArg (call o) (funext ih)
  | poll w k ih => exact congrArg (poll w) ih

instance : LawfulMonad (Prog S) :=
  LawfulMonad.mk' (Prog S) (fun p => bind_ret p) (fun _ _ => rfl) (fun p f g => bind_assoc p f g)

/-- A single operation. -/
def op (o : S.Op) : Prog S (S.Res o) := call o ret

/-- A single wait. -/
def await (w : S.Wait) : Prog S Unit := poll w (ret ())

/-- An assertion: continue if `c` holds, stop otherwise. -/
def check (c : Prop) [Decidable c] : Prog S Unit := if c then ret () else abort

/-- What the program is about to do. -/
def head : Prog S α → Head S
  | ret _ => .done
  | abort => .abort
  | call o _ => .call o
  | poll w _ => .poll w

@[simp] lemma head_ret (a : α) : (ret a : Prog S α).head = .done := rfl

@[simp] lemma head_abort : (abort : Prog S α).head = .abort := rfl

@[simp] lemma head_call (o : S.Op) (k : S.Res o → Prog S α) : (call o k).head = .call o := rfl

@[simp] lemma head_poll (w : S.Wait) (k : Prog S α) : (poll w k).head = .poll w := rfl

/-- What a sequence is about to do, its first program is, unless that has returned. -/
lemma head_bind {p : Prog S α} (h : p.head ≠ .done) (f : α → Prog S β) :
    (p >>= f).head = p.head := by
  cases p with
  | ret a => exact absurd rfl h
  | abort => rfl
  | call o k => rfl
  | poll w k => rfl

/-- The value of a program that has returned. -/
def value? : Prog S α → Option α
  | ret a => some a
  | _ => none

lemma eq_ret_of_value? {p : Prog S α} {a : α} (h : p.value? = some a) : p = ret a := by
  cases p with
  | ret b => exact congrArg ret (Option.some.inj h)
  | abort => cases h
  | call o k => cases h
  | poll w k => cases h

/-- Whether an assertion of the program has failed. -/
def aborted : Prog S α → Bool
  | abort => true
  | _ => false

lemma eq_abort_of_aborted {p : Prog S α} (h : p.aborted = true) : p = abort := by
  cases p with
  | abort => rfl
  | ret a => cases h
  | call o k => cases h
  | poll w k => cases h

/-- What the program is waiting for, if it is. -/
def wait? : Prog S α → Option S.Wait
  | poll w _ => some w
  | _ => none

lemma head_of_wait? {p : Prog S α} {w : S.Wait} (h : p.wait? = some w) : p.head = .poll w := by
  cases p with
  | poll v k => exact congrArg Head.poll (Option.some.inj h)
  | ret a => cases h
  | abort => cases h
  | call o k => cases h

lemma exists_ret_of_head {p : Prog S α} (h : p.head = .done) : ∃ a, p = ret a := by
  cases p with
  | ret a => exact ⟨a, rfl⟩
  | abort => cases h
  | call o k => cases h
  | poll w k => cases h

lemma eq_abort_of_head {p : Prog S α} (h : p.head = .abort) : p = abort := by
  cases p with
  | abort => rfl
  | ret a => cases h
  | call o k => cases h
  | poll w k => cases h

/-! ## What a program can ever do -/

/-- Every access, wait and failed assertion of the program satisfies `φ`, whatever the
operations answer. -/
def Every (φ : Head S → Prop) : Prog S α → Prop
  | ret _ => True
  | abort => φ .abort
  | call o k => φ (.call o) ∧ ∀ r, (k r).Every φ
  | poll w k => φ (.poll w) ∧ k.Every φ

variable {φ ψ : Head S → Prop}

@[simp] lemma every_ret (a : α) : (ret a : Prog S α).Every φ := trivial

@[simp] lemma every_abort : (abort : Prog S α).Every φ ↔ φ .abort := Iff.rfl

@[simp] lemma every_call (o : S.Op) (k : S.Res o → Prog S α) :
    (call o k).Every φ ↔ φ (.call o) ∧ ∀ r, (k r).Every φ := Iff.rfl

@[simp] lemma every_poll (w : S.Wait) (k : Prog S α) :
    (poll w k).Every φ ↔ φ (.poll w) ∧ k.Every φ := Iff.rfl

@[simp] lemma every_op (o : S.Op) : (op o).Every φ ↔ φ (.call o) := by
  simp [op]

@[simp] lemma every_await (w : S.Wait) : (await w).Every φ ↔ φ (.poll w) := by
  simp [await]

lemma every_check (c : Prop) [Decidable c] :
    (check c : Prog S Unit).Every φ ↔ (c ∨ φ .abort) := by
  unfold check
  split <;> rename_i h <;> simp [h]

lemma Every.bind {p : Prog S α} {f : α → Prog S β} (hp : p.Every φ)
    (hf : ∀ a, (f a).Every φ) : (p >>= f).Every φ := by
  induction p with
  | ret a => exact hf a
  | abort => exact hp
  | call o k ih => exact ⟨hp.1, fun r => ih r (hp.2 r)⟩
  | poll w k ih => exact ⟨hp.1, ih hp.2⟩

lemma Every.mono (h : ∀ d, φ d → ψ d) {p : Prog S α} (hp : p.Every φ) : p.Every ψ := by
  induction p with
  | ret a => trivial
  | abort => exact h _ hp
  | call o k ih => exact ⟨h _ hp.1, fun r => ih r (hp.2 r)⟩
  | poll w k ih => exact ⟨h _ hp.1, ih hp.2⟩

lemma Every.head {p : Prog S α} (hp : p.Every φ) (h : p.head ≠ .done) : φ p.head := by
  cases p with
  | ret a => exact absurd rfl h
  | abort => exact hp
  | call o k => exact hp.1
  | poll w k => exact hp.1

/-! ## What a program may return -/

/-- Whatever is answered, what is returned is `φ`. -/
def Returns (φ : α → Prop) : Prog S α → Prop
  | ret a => φ a
  | abort => True
  | call _ k => ∀ r, (k r).Returns φ
  | poll _ k => k.Returns φ

lemma Returns.bind {ψ : α → Prop} {φ : β → Prop} {p : Prog S α} {f : α → Prog S β}
    (hp : p.Returns ψ) (hf : ∀ a, ψ a → (f a).Returns φ) : (p >>= f).Returns φ := by
  induction p with
  | ret a => exact hf a hp
  | abort => trivial
  | call o k ih => exact fun r => ih r (hp r)
  | poll w k ih => exact ih hp

lemma returns_any (p : Prog S α) : p.Returns fun _ => True := by
  induction p with
  | ret a => trivial
  | abort => trivial
  | call o k ih => exact ih
  | poll w k ih => exact ih

/-- What comes last decides. -/
lemma Returns.of_bind {φ : β → Prop} {p : Prog S α} {f : α → Prog S β}
    (hf : ∀ a, (f a).Returns φ) : (p >>= f).Returns φ :=
  (returns_any p).bind fun a _ => hf a

end Prog

end Interaction
