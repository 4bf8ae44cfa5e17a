import QspiTool.Log.Functions

/-!
# Sequences of calls of the logger

What one call does, several do one after the other (`logSession_ensures`).  A sequence is `Paired`
when `slog_init` is only called first, or directly after `slog_destroy`: then it never forgets a
stream, and never sets up a mutex that is there already.
-/

namespace QspiTool

open Interaction Oracle CText

variable {P : Prop} {d : Desk} {g g' : Slog} {calls : List LogCall} {lost : List (Nat × Text)}

/-! ## Sequences in order -/

def LogCall.isInit : LogCall → Bool
  | init _ _ _ => true
  | _ => false

def LogCall.isDestroy : LogCall → Bool
  | destroy => true
  | _ => false

/-- `slog_init` is only called directly after `slog_destroy`, or first if the logger is idle. -/
def Paired (idle : Bool) : List LogCall → Prop
  | [] => True
  | call :: calls => (call.isInit = true → idle = true) ∧ Paired call.isDestroy calls

instance decidablePaired : (idle : Bool) → (calls : List LogCall) → Decidable (Paired idle calls)
  | _, [] => inferInstanceAs (Decidable True)
  | _, call :: calls =>
      haveI := decidablePaired call.isDestroy calls
      inferInstanceAs (Decidable (_ ∧ _))

/-- No mutex, and no stream. -/
structure Slog.Idle (g : Slog) : Prop where
  noMutex : g.nTdSafe = false
  closed : g.logFile.pHandle = 0

lemma LogCall.Effect.idle {call : LogCall} {es : List Entry} {leaked : List Nat}
    (h : call.Effect g g' es leaked) (hcall : call.isDestroy = true) : g'.Idle := by
  cases h with
  | configured _ _ =>
    cases call with
    | destroy => exact ⟨rfl, rfl⟩
    | _ => cases hcall
  | logged _ _ _ => cases hcall

lemma LogCall.dropped_of_idle {call : LogCall} (h : call.isInit = true → g.Idle) :
    call.dropped g = [] := by
  cases call with
  | init _ _ _ => exact SlogFile.stream_closed (h rfl).closed
  | _ => rfl

/-! ## What a sequence of calls does -/

/-- **Every sequence of calls keeps to its effects.**  Streams are only forgotten, and the mutex
only gets out of step, where `P` fails. -/
theorem logSession_ensures (idle : Bool) (hkept : DeskKept P g lost d)
    (hpaired : P → Paired idle calls) (hidle : P → idle = true → g.Idle) :
    libc.Ensures (Guarded P) (logSession g calls)
      (fun g' d' => ∃ es leaked lost', LogHistory g calls g' es leaked ∧ DeskKept P g' lost' d' ∧
        (P → lost' = lost) ∧ d'.blocks = leaked ++ d.blocks ∧ d'.journal = d.journal ++ es) d := by
  induction calls generalizing idle g d lost with
  | nil => exact ⟨[], [], lost, .nil g, hkept, fun _ => rfl, rfl, by simp⟩
  | cons call calls ih =>
    rw [logSession, ensures_bind]
    have hinit : P → call.isInit = true → g.Idle := fun hP hcall =>
      hidle hP ((hpaired hP).1 hcall)
    refine (LogCall.ensures hkept ?_).post ?_
    · rintro hP _ _ _ rfl
      exact (hinit hP rfl).noMutex
    · rintro g₁ d₁ ⟨es, leaked, heffect, hstreams, hblocks, hjournal, hm⟩
      refine (ih call.isDestroy ⟨hstreams, hm⟩ (fun hP => (hpaired hP).2)
        fun _ hcall => heffect.idle hcall).post ?_
      rintro g₂ d₂ ⟨es', leaked', lost', hhistory, hkept', hlost, hblocks', hjournal'⟩
      refine ⟨es ++ es', leaked' ++ leaked, lost', .cons heffect hhistory, hkept', fun hP => ?_,
        ?_, ?_⟩
      · rw [hlost hP, LogCall.dropped_of_idle (hinit hP), List.nil_append]
      · rw [hblocks', hblocks, List.append_assoc]
      · rw [hjournal', hjournal, List.append_assoc]

/-- A process that has just started has an idle logger. -/
lemma kept_zero : DeskKept P .zero [] .clear := ⟨rfl, fun _ => rfl⟩

lemma idle_zero : Slog.zero.Idle := ⟨rfl, rfl⟩

/-- What a process that has just started has done once its calls have returned. -/
theorem logSession_returns {a a' : Answers} {t : Trace stdio Answers} {d' : Desk}
    (hreach : libc.machine.Reach ⟨logSession .zero calls, (a, .clear), []⟩ ⟨.ret g', (a', d'), t⟩) :
    ∃ leaked lost', LogHistory .zero calls g' d'.journal leaked ∧
      d'.streams = g'.logFile.stream ++ lost' ∧ (Paired true calls → lost' = []) ∧
      d'.blocks = leaked ∧ (Paired true calls → d'.mutex = g'.mutex) := by
  obtain ⟨es, leaked, lost', hhistory, hkept, hlost, hblocks, hjournal⟩ :=
    (logSession_ensures (P := Paired true calls) true kept_zero id fun _ _ =>
      idle_zero).returns hreach
  have hes : d'.journal = es := hjournal
  subst hes
  exact ⟨leaked, lost', hhistory, hkept.streams, hlost, hblocks.trans (List.append_nil _),
    hkept.mutex⟩

end QspiTool
