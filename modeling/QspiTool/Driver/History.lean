import QspiTool.Driver.Api
import QspiTool.Interaction.Machine

/-!
# Histories of public calls

What holds between the calls of a program is said of histories: a list of the calls made so far,
each with the context, the state and the trace before and after it.  The driver has no threads and
no callbacks, so the rest of the process moves between two calls; a `Setting` says how, and where a
history begins.
-/

namespace QspiTool

open Interaction Machine

/-- Where a history stands between two calls. -/
structure Stage (σ A : Type) where
  ctx : QspiContext
  state : σ
  trace : Trace bus A

/-- A call that has returned. -/
structure Made (σ A : Type) where
  call : Call
  before : Stage σ A
  after : Stage σ A

/-- The surroundings of the calls. -/
structure Setting (σ A : Type) where
  machine : Machine bus σ A
  Start : Stage σ A → Prop
  /-- What the rest of the process may do between two calls. -/
  Elsewhere : σ → σ → Prop
  Allowed : Stage σ A → Call → Prop

variable {σ A : Type}

/-- Some calls have been made, and the last one has returned. -/
inductive History (w : Setting σ A) : List (Made σ A) → Stage σ A → Prop
  | start {b : Stage σ A} (h : w.Start b) : History w [] b
  | elsewhere {ms : List (Made σ A)} {b : Stage σ A} {s : σ} (h : History w ms b)
      (hmove : w.Elsewhere b.state s) : History w ms { b with state := s }
  | call {ms : List (Made σ A)} {b b' : Stage σ A} {r : Option Int} (call : Call)
      (h : History w ms b) (hcall : w.Allowed b call)
      (hreach : w.machine.Reach ⟨call.run b.ctx, b.state, b.trace⟩
        ⟨.ret (b'.ctx, r), b'.state, b'.trace⟩) :
      History w (ms ++ [⟨call, b, b'⟩]) b'

/-- **The history rule.**  What holds at the start and is kept by the calls and by the rest of the
process holds between the calls. -/
theorem History.invariant {w : Setting σ A} {I : Stage σ A → Prop}
    (hstart : ∀ b, w.Start b → I b)
    (helsewhere : ∀ b s, I b → w.Elsewhere b.state s → I { b with state := s })
    (hcall : ∀ b b' call r, I b → w.Allowed b call →
      w.machine.Reach ⟨call.run b.ctx, b.state, b.trace⟩ ⟨.ret (b'.ctx, r), b'.state, b'.trace⟩ →
      I b')
    {ms : List (Made σ A)} {b : Stage σ A} (h : History w ms b) : I b := by
  induction h with
  | start h => exact hstart _ h
  | elsewhere _ hmove ih => exact helsewhere _ _ ih hmove
  | call call _ hallowed hreach ih => exact hcall _ _ call _ ih hallowed hreach

/-- Each call of a history was made where a history stood, and returned. -/
lemma History.made {w : Setting σ A} {ms : List (Made σ A)} {b : Stage σ A}
    (h : History w ms b) {m : Made σ A} (hm : m ∈ ms) :
    ∃ ms' r, History w ms' m.before ∧ w.Allowed m.before m.call ∧
      w.machine.Reach ⟨m.call.run m.before.ctx, m.before.state, m.before.trace⟩
        ⟨.ret (m.after.ctx, r), m.after.state, m.after.trace⟩ := by
  induction h with
  | start => cases hm
  | elsewhere _ _ ih => exact ih hm
  | @call ms b b' r call h hcall hreach ih =>
    rcases List.mem_append.mp hm with hm | hm
    · exact ih hm
    · obtain rfl := List.mem_singleton.mp hm
      exact ⟨ms, r, h, hcall, hreach⟩

/-! ## Histories by execution -/

namespace Setting

variable (w : Setting σ A)

/-- Make a call under a schedule, if it returns. -/
def make (call : Call) (ticks : List (Tick A)) (b : Stage σ A) : Option (Made σ A) :=
  (w.machine.run ticks ⟨call.run b.ctx, b.state, b.trace⟩).bind fun c =>
    c.prog.value?.map fun r => ⟨call, b, ⟨r.1, c.state, c.trace⟩⟩

/-- Make some calls, each under its schedule. -/
def play : Stage σ A → List (Call × List (Tick A)) → Option (List (Made σ A) × Stage σ A)
  | b, [] => some ([], b)
  | b, (call, ticks) :: plan =>
      (w.make call ticks b).bind fun m =>
        (play m.after plan).map fun r => (m :: r.1, r.2)

variable {w}

lemma reach_of_make {call : Call} {ticks : List (Tick A)} {b : Stage σ A} {m : Made σ A}
    (h : w.make call ticks b = some m) :
    m.call = call ∧ m.before = b ∧
      ∃ r, w.machine.Reach ⟨call.run b.ctx, b.state, b.trace⟩
        ⟨.ret (m.after.ctx, r), m.after.state, m.after.trace⟩ := by
  obtain ⟨⟨p, s, t⟩, hrun, hvalue⟩ := Option.bind_eq_some_iff.mp h
  obtain ⟨r, hr, rfl⟩ := Option.map_eq_some_iff.mp hvalue
  obtain rfl := Prog.eq_ret_of_value? hr
  exact ⟨rfl, rfl, r.2, reach_of_run hrun⟩

lemma history_of_play {ms ms' : List (Made σ A)} {b b' : Stage σ A}
    {plan : List (Call × List (Tick A))} (h : History w ms b)
    (hallowed : ∀ b, ∀ x ∈ plan, w.Allowed b x.1) (hplay : w.play b plan = some (ms', b')) :
    History w (ms ++ ms') b' := by
  induction plan generalizing ms ms' b with
  | nil =>
    obtain ⟨rfl, rfl⟩ := Prod.mk.inj (Option.some.inj hplay)
    rwa [List.append_nil]
  | cons x plan ih =>
    obtain ⟨m, hm, hrest⟩ := Option.bind_eq_some_iff.mp hplay
    obtain ⟨⟨ms₁, b₁⟩, hplay₁, heq⟩ := Option.map_eq_some_iff.mp hrest
    obtain ⟨rfl, rfl⟩ := Prod.mk.inj heq
    obtain ⟨hcall, hbefore, r, hreach⟩ := reach_of_make hm
    have hone : History w (ms ++ [m]) m.after := by
      have hnext := h.call x.1 (hallowed b x List.mem_cons_self) hreach
      rw [← hcall, ← hbefore] at hnext
      exact hnext
    rw [← List.singleton_append, ← List.append_assoc]
    exact ih hone (fun b x hx => hallowed b x (List.mem_cons_of_mem _ hx)) hplay₁

/-- A test of the history that some schedules make finds a history. -/
lemma exists_history {b : Stage σ A} (plan : List (Call × List (Tick A)))
    (test : List (Made σ A) → Stage σ A → Bool) (hstart : w.Start b)
    (hallowed : ∀ b, ∀ x ∈ plan, w.Allowed b x.1)
    (h : (w.play b plan).any (fun r => test r.1 r.2) = true) :
    ∃ ms b', History w ms b' ∧ test ms b' = true := by
  obtain ⟨⟨ms, b'⟩, hplay, htest⟩ := (Option.any_eq_true _ _).mp h
  exact ⟨ms, b', history_of_play (.start hstart) hallowed hplay, htest⟩

end Setting

end QspiTool
