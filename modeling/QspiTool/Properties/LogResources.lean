import QspiTool.Log.History

/-!
# The streams, the blocks and the mutex of the logger

What the logger takes from the C library it uses while it has it and gives back.

It writes to, flushes and closes only streams that are open, and frees only blocks that are in
use.  Between two calls the one stream it knows of is open, or none is; a stream stays open for
good only if `slog_init` is called while it is open.  A block stays in use for good only where the
callback is to get an empty line, which takes a message that is empty and has no newline.

With a mutex, everything but the calls on the mutex itself is done while it is held.
-/

namespace QspiTool

open Interaction Machine Oracle CText

/-! ## Blocks -/

/-- What the call logs is not empty, whatever the configuration. -/
def LogCall.Speaks : LogCall → Prop
  | display _ nNewLine pFormat => nNewLine = true ∨ pFormat ≠ []
  | _ => True

instance (call : LogCall) : Decidable call.Speaks := by
  cases call <;> unfold LogCall.Speaks <;> infer_instance

variable {cfg : SlogConfig} {ctx : SlogContext} {f f' : SlogFile} {g g' : Slog}
  {es : List Entry} {leaked : List Nat} {calls : List LogCall}

lemma lineText_ne_nil (h : ctx.nNewLine = true ∨ ctx.pFormat ≠ []) (tid : BitVec 64) :
    lineText cfg ctx tid ≠ [] := by
  intro hline
  simp only [lineText, slogLine, List.append_eq_nil_iff, Option.getD_some] at hline
  obtain ⟨⟨⟨-, hmessage⟩, -⟩, hnewline⟩ := hline
  rcases h with hnl | hmsg
  · rw [if_pos hnl] at hnewline
    exact absurd hnewline (by decide)
  · unfold shownText at hmessage
    split_ifs at hmessage
    · exact hmsg hmessage
    · rcases List.take_eq_nil_iff.mp hmessage with hzero | hnil
      · exact absurd hzero (by decide)
      · exact hmsg hnil

lemma Told.leaked_nil {eFlag : BitVec 32} {line : Text} {verdict : Int}
    (h : Told cfg eFlag line verdict es leaked) (hline : line ≠ []) : leaked = [] := by
  cases h with
  | empty _ hempty _ => exact absurd hempty hline
  | _ => rfl

lemma Reported.leaked_nil (h : Reported cfg ctx f f' es leaked)
    (hspeaks : ctx.nNewLine = true ∨ ctx.pFormat ≠ []) : leaked = [] := by
  cases h with
  | noMemory _ _ => rfl
  | shown tid hshown =>
    obtain ⟨verdict, told, filed, -, htold, -⟩ := hshown
    exact htold.leaked_nil (lineText_ne_nil hspeaks tid)

lemma LogCall.Effect.leaked_nil {call : LogCall} (h : call.Effect g g' es leaked)
    (hspeaks : call.Speaks) : leaked = [] := by
  cases h with
  | configured _ _ => rfl
  | logged _ _ hlogged => exact hlogged.leaked_nil hspeaks

lemma LogHistory.leaked_nil (h : LogHistory g calls g' es leaked)
    (hspeaks : ∀ call ∈ calls, call.Speaks) : leaked = [] := by
  induction h with
  | nil => rfl
  | cons heffect _ ih =>
    rw [ih fun call hcall => hspeaks call (List.mem_cons_of_mem _ hcall),
      heffect.leaked_nil (hspeaks _ (List.mem_cons_self ..))]
    rfl

/-! ## Streams -/

/-- After `slog_destroy` no stream is known. -/
lemma LogHistory.closed_of_destroy (h : LogHistory g calls g' es leaked)
    (hlast : calls.getLast? = some .destroy) : g'.Idle := by
  induction h with
  | nil => cases hlast
  | @cons g₁ g₂ g₃ call calls es₁ es₂ leaked₁ leaked₂ heffect hrest ih =>
    cases calls with
    | nil =>
      obtain rfl := Option.some.inj hlast
      cases hrest
      exact heffect.idle rfl
    | cons call' calls => exact ih (by simpa using hlast)

/-- **Streams and blocks are used while they are in use, and given back.**  At every point of every
sequence of calls only streams and blocks in use are used.  After the calls at most one stream is
open if `slog_init` was never called but first and after `slog_destroy`, and none if
`slog_destroy` was the last call; and no block is in use if no message without a newline was
empty. -/
theorem log_resources (calls : List LogCall) (a : Answers)
    {c : Config stdio (Answers × Desk) Answers Slog}
    (hreach : libc.machine.Reach ⟨logSession .zero calls, (a, .clear), []⟩ c) :
    Tidy c.prog.head c.state.2 ∧
    ∀ g, c.prog = .ret g →
      (∃ lost, c.state.2.streams = g.logFile.stream ++ lost ∧ (Paired true calls → lost = [])) ∧
      (Paired true calls → calls.getLast? = some .destroy → c.state.2.streams = []) ∧
      ((∀ call ∈ calls, call.Speaks) → c.state.2.blocks = []) := by
  constructor
  · by_cases hdone : c.prog.head = .done
    · rw [hdone]
      trivial
    · have hsession := logSession_ensures (P := Paired true calls) true kept_zero id
        fun _ _ => idle_zero
      exact (hsession.guarantee hreach hdone).1
  · intro g hg
    obtain ⟨p, ⟨a', d'⟩, t⟩ := c
    subst hg
    obtain ⟨leaked, lost, hhistory, hstreams, hlost, hblocks, -⟩ := logSession_returns hreach
    refine ⟨⟨lost, hstreams, hlost⟩, fun hpaired hlast => ?_, fun hspeaks => ?_⟩
    · rw [hstreams, hlost hpaired, SlogFile.stream_closed (hhistory.closed_of_destroy hlast).closed]
      rfl
    · exact hblocks.trans (hhistory.leaked_nil hspeaks)

/-- Two lines in one file, and the logger is destroyed. -/
def twoLines : List LogCall :=
  [.init none 255#16 false,
    .configSet { SlogConfig.initial none 255#16 with nToFile := true },
    .display slogInfo true "one".toList, .display slogInfo true "two".toList, .destroy]

/-- The two lines are in the file, and the stream is closed. -/
theorem log_resources_two_lines :
    ∃ c, libc.machine.Reach
        ⟨logSession .zero twoLines, (Answers.on 2024 5 6 7, .clear), []⟩ c ∧
      (∃ g, c.prog = .ret g) ∧ c.state.2.streams = [] ∧ c.state.2.blocks = [] := by
  obtain ⟨g, s, t, hreach, -⟩ : ∃ g s t, libc.machine.Reach
      ⟨logSession .zero twoLines, (Answers.on 2024 5 6 7, .clear), []⟩ ⟨.ret g, s, t⟩ ∧
      decide (s.2.journal ≠ []) = true :=
    exists_return_of_run (timed [] 8) (by decide +kernel)
  obtain ⟨-, hstreams, hblocks⟩ := (log_resources twoLines _ hreach).2 g rfl
  exact ⟨_, hreach, ⟨g, rfl⟩, hstreams (by decide) (by decide), hblocks (by decide)⟩

/-! ## The mutex -/

/-- **Everything is done under the mutex.**  At every point of every paired sequence of calls the
mutex is taken while it is free, given back while it is held, set up while there is none and
destroyed while it is free, and nothing else is done while it is free, unless the last call on it
has failed and the process is about to end; no other process ends.  After the calls it is free, or
there is none, and there is none if `slog_destroy` was the last call. -/
theorem log_serialised (calls : List LogCall) (hpaired : Paired true calls) (a : Answers)
    {c : Config stdio (Answers × Desk) Answers Slog}
    (hreach : libc.machine.Reach ⟨logSession .zero calls, (a, .clear), []⟩ c) :
    Disciplined c.prog.head c.state.2 ∧
    ∀ g, c.prog = .ret g →
      c.state.2.mutex = (if g.nTdSafe then .free else .none) ∧
      (calls.getLast? = some .destroy → c.state.2.mutex = .none) := by
  constructor
  · by_cases hdone : c.prog.head = .done
    · rw [hdone]
      trivial
    · have hsession := logSession_ensures (P := Paired true calls) true kept_zero id
        fun _ _ => idle_zero
      exact (hsession.guarantee hreach hdone).2 hpaired
  · intro g hg
    obtain ⟨p, ⟨a', d'⟩, t⟩ := c
    subst hg
    obtain ⟨leaked, lost, hhistory, -, -, -, hm⟩ := logSession_returns hreach
    refine ⟨hm hpaired, fun hlast => ?_⟩
    rw [hm hpaired, Slog.mutex, (hhistory.closed_of_destroy hlast).noMutex]
    rfl

/-- A line is about to be written, and there is a mutex on which no call has failed. -/
def writesLine (h : Head stdio) (d : Desk) : Bool :=
  match h with
  | .call (.fprintf _ _) => decide (d.mutex ≠ .none ∧ ¬ d.failed)
  | _ => false

lemma exists_of_writesLine {h : Head stdio} {d : Desk} (hwrites : writesLine h d = true) :
    ∃ stream text, h = .call (.fprintf stream text) ∧ d.mutex ≠ .none ∧ ¬ d.failed := by
  unfold writesLine at hwrites
  split at hwrites
  · exact ⟨_, _, rfl, of_decide_eq_true hwrites⟩
  · cases hwrites

/-- A line is written while the mutex is held. -/
theorem log_serialised_line :
    ∃ c stream text, libc.machine.Reach
        ⟨logSession .zero [.init none 255#16 true,
          .configSet { SlogConfig.initial none 255#16 with nToFile := true },
          .display slogInfo true "one".toList, .destroy], (Answers.on 2024 5 6 7, .clear), []⟩ c ∧
      c.prog.head = .call (.fprintf stream text) ∧ c.state.2.mutex = .held := by
  obtain ⟨c, hreach, htest⟩ : ∃ c, libc.machine.Reach
      ⟨logSession .zero [.init none 255#16 true,
        .configSet { SlogConfig.initial none 255#16 with nToFile := true },
        .display slogInfo true "one".toList, .destroy], (Answers.on 2024 5 6 7, .clear), []⟩ c ∧
      writesLine c.prog.head c.state.2 = true :=
    exists_reach_of_run (timed [] 12) (by decide +kernel)
  obtain ⟨stream, text, hhead, hmutex, hfailed⟩ := exists_of_writesLine htest
  have hserial := (log_serialised _ (by decide) _ hreach).1
  rw [hhead] at hserial
  have hheld : c.state.2.mutex ≠ .free := hserial.resolve_right hfailed
  refine ⟨c, stream, text, hreach, hhead, ?_⟩
  cases hm : c.state.2.mutex with
  | none => exact absurd hm hmutex
  | free => exact absurd hm hheld
  | held => rfl

end QspiTool
