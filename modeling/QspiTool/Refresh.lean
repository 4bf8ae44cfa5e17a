import Mathlib.Data.List.Chain
import Mathlib.Tactic.Lemma

/-!
# Values that are kept while a key stays

A value is computed from an input and kept for the inputs after it, as long as they have the key of
the input it was computed from; it may also be dropped after any input, and is then computed anew.
`sources` lists, for each input, the input its value was computed from.

The key need not determine the value.  Every input gets its own value exactly when no input that
finds the value of the input before it kept has the same key and another value (`sources_right`).
-/

namespace Refresh

variable {δ κ β : Type} [DecidableEq κ] (key : δ → κ) (value : δ → β)

/-- The input whose value `x` gets, when the value of `held` is kept. -/
def source (held : Option δ) (x : δ) : δ :=
  match held with
  | some y => if key y = key x then y else x
  | none => x

/-- What is kept after an input with this source. -/
def keep (kept : Bool) (y : δ) : Option δ := if kept then some y else none

/-- Each input with its source; an input comes with whether its value is kept. -/
def sources (held : Option δ) : List (δ × Bool) → List (δ × δ)
  | [] => []
  | (x, kept) :: rest => (x, source key held x) :: sources (keep kept (source key held x)) rest

/-- The value of `p` is not kept for `q`, or it is the value of `q`. -/
def Renewed (p q : δ × Bool) : Prop := p.2 = true → key p.1 = key q.1 → value p.1 = value q.1

variable {key value} {held : Option δ} {x y : δ} {p : δ × Bool} {l : List (δ × Bool)}

lemma key_source : key (source key held x) = key x := by
  cases held with
  | none => rfl
  | some y =>
    simp only [source]
    split <;> simp [*]

/-- What is kept after `p`, if it has the value of `p`. -/
structure Agrees (key : δ → κ) (value : δ → β) (held : Option δ) (p : δ × Bool) : Prop where
  kept : held.isSome = p.2
  agrees : ∀ y ∈ held, key y = key p.1 ∧ value y = value p.1

lemma agrees_keep (kept : Bool) (hvalue : value (source key held x) = value x) :
    Agrees key value (keep kept (source key held x)) (x, kept) := by
  cases kept with
  | false => exact ⟨rfl, by simp [keep]⟩
  | true =>
    refine ⟨rfl, ?_⟩
    rintro _ ⟨⟩
    exact ⟨key_source, hvalue⟩

/-- An input after `p` gets its own value exactly when the value of `p` is renewed for it. -/
lemma source_right (h : Agrees key value held p) (kept : Bool) :
    value (source key held x) = value x ↔ Renewed key value p (x, kept) := by
  cases held with
  | none =>
    have hnone : p.2 = false := h.kept.symm
    simp [source, Renewed, hnone]
  | some y =>
    have hsome : p.2 = true := h.kept.symm
    obtain ⟨hkey, hvalue⟩ := h.agrees y rfl
    simp only [source, Renewed, hsome, true_imp_iff, hkey, ← hvalue]
    split <;> rename_i hsame <;> simp [hsame]

lemma sources_right_after (h : Agrees key value held p) :
    (∀ q ∈ sources key held l, value q.2 = value q.1) ↔
      (p :: l).IsChain (Renewed key value) := by
  induction l generalizing held p with
  | nil => simp [sources]
  | cons q l ih =>
    obtain ⟨x, kept⟩ := q
    rw [sources, List.forall_mem_cons, List.isChain_cons_cons, ← source_right h kept]
    exact and_congr_right fun hvalue => ih (agrees_keep kept hvalue)

/-- **When every input gets its own value.** -/
theorem sources_right :
    (∀ q ∈ sources key none l, value q.2 = value q.1) ↔ l.IsChain (Renewed key value) := by
  cases l with
  | nil => simp [sources]
  | cons q l =>
    obtain ⟨x, kept⟩ := q
    rw [sources, List.forall_mem_cons]
    exact (and_iff_right rfl).trans (sources_right_after (agrees_keep kept rfl))

end Refresh
