import QspiTool.Properties.LogLevels

/-!
# Reading the terminal

A line on the terminal has the time of day, the level and the text of its message.  The fields are
kept apart by characters they do not contain, and so are the lines if no message breaks its own: so
nothing but these three can make a line, and the terminal tells exactly which messages were heard
and when (`terminal_tells`).  No message can pass for several, or for one of another level.

A message with a newline in it can: the logger does not mark where its lines begin.
-/

namespace QspiTool

open Interaction Machine Oracle CText

/-! ## A line -/

/-- What a line shows of a message. -/
structure Sight where
  nHour : BitVec 8
  nMin : BitVec 8
  nSec : BitVec 8
  nUsec : BitVec 16
  level : Level
  text : Text
  deriving DecidableEq

/-- The line, without its newline. -/
def Sight.line (s : Sight) : Text :=
  decimal 2 s.nHour.toNat ++ ':' :: (decimal 2 s.nMin.toNat ++ ':' ::
    (decimal 2 s.nSec.toNat ++ '.' :: (decimal 3 s.nUsec.toNat ++ ' ' ::
      (toolTag s.level ++ ' ' :: s.text))))

lemma toolTag_inj {l l' : Level} : toolTag l = toolTag l' ↔ l = l' := by
  cases l <;> cases l' <;> decide

lemma blank_notMem_toolTag (l : Level) : ' ' ∉ toolTag l := by cases l <;> decide

lemma newline_notMem_toolTag (l : Level) : '\n' ∉ toolTag l := by cases l <;> decide

/-- A line can be read back. -/
lemma Sight.line_injective : Function.Injective Sight.line := by
  rintro ⟨hour, min, sec, usec, level, text⟩ ⟨hour', min', sec', usec', level', text'⟩ h
  obtain ⟨hhour, h⟩ := decimal_append_inj (by decide) h
  obtain ⟨hmin, h⟩ := decimal_append_inj (by decide) h
  obtain ⟨hsec, h⟩ := decimal_append_inj (by decide) h
  obtain ⟨husec, h⟩ := decimal_append_inj (by decide) h
  obtain ⟨htag, htext⟩ := cut_inj (blank_notMem_toolTag level) (blank_notMem_toolTag level') h
  rw [Sight.mk.injEq]
  exact ⟨BitVec.eq_of_toNat_eq hhour, BitVec.eq_of_toNat_eq hmin, BitVec.eq_of_toNat_eq hsec,
    BitVec.eq_of_toNat_eq husec, toolTag_inj.mp htag, htext⟩

lemma Sight.newline_notMem_line {s : Sight} (h : '\n' ∉ s.text) : '\n' ∉ s.line := by
  have hdecimal : ∀ w n, '\n' ∉ decimal w n := fun w n hmem =>
    absurd (isDigit_of_mem_decimal hmem) (by decide)
  simp [Sight.line, hdecimal, newline_notMem_toolTag, h]

/-- The message is one line. -/
def OneLine (m : Level × Bool × Text) : Prop := m.2.1 = true ∧ '\n' ∉ m.2.2

instance (m : Level × Bool × Text) : Decidable (OneLine m) := inferInstanceAs (Decidable (_ ∧ _))

/-- What is seen of a message that is logged at this time. -/
def sight (m : Level × Bool × Text) (time : LocalTime) : Sight :=
  ⟨time.date.nHour, time.date.nMin, time.date.nSec, time.date.nUsec, m.1,
    m.2.2.take (slogMessageMax - 1)⟩

lemma toolLine_eq {m : Level × Bool × Text} (h : m.2.1 = true) (time : LocalTime) :
    toolLine m time.date = (sight m time).line ++ ['\n'] := by
  simp [toolLine, Sight.line, sight, h]

lemma OneLine.newline_notMem {m : Level × Bool × Text} (h : OneLine m) (time : LocalTime) :
    '\n' ∉ (sight m time).line :=
  Sight.newline_notMem_line fun hmem => h.2 (List.mem_of_mem_take hmem)

/-! ## The terminal -/

/-- All that has been printed. -/
def screenText (es : List Entry) : Text :=
  es.flatMap fun e =>
    match e with
    | .screen text => text
    | _ => []

/-- The times the clock has shown. -/
def clocks (es : List Entry) : List LocalTime :=
  es.filterMap fun e =>
    match e with
    | .clock time => some time
    | _ => none

/-- What is seen of the messages of a journal. -/
def sights (ms : List (Level × Bool × Text)) (es : List Entry) : List Sight :=
  ms.zipWith sight (clocks es)

variable {ms : List (Level × Bool × Text)} {parts : List (List Entry)}

lemma screenText_message (time : LocalTime) (text : Text) (es : List Entry) :
    screenText (.clock time :: .screen text :: es) = text ++ screenText es := rfl

lemma sights_message (m : Level × Bool × Text) (time : LocalTime) (text : Text)
    (es : List Entry) :
    sights (m :: ms) (.clock time :: .screen text :: es) = sight m time :: sights ms es := rfl

/-- The terminal shows the lines of what is seen. -/
lemma screenText_printed (hms : ∀ m ∈ ms, OneLine m) (h : List.Forall₂ Printed ms parts) :
    screenText parts.flatten = terminated '\n' ((sights ms parts.flatten).map Sight.line) ∧
      ∀ line ∈ (sights ms parts.flatten).map Sight.line, '\n' ∉ line := by
  induction h with
  | nil => exact ⟨rfl, by simp [sights]⟩
  | @cons m part ms parts hpart _ ih =>
    rw [List.forall_mem_cons] at hms
    obtain ⟨time, rfl⟩ := hpart
    obtain ⟨hscreen, hlines⟩ := ih hms.2
    rw [List.flatten_cons, List.cons_append, List.singleton_append, screenText_message,
      sights_message, hscreen, toolLine_eq hms.1.1, List.map_cons, terminated_cons,
      List.forall_mem_cons]
    exact ⟨by simp, hms.1.newline_notMem time, hlines⟩

/-- **The terminal tells what was heard and when.**  For any two runs of the tool, with any command
lines, in which every message that is heard is logged with a newline and contains none: what they
have printed is the same exactly when they have shown messages of the same levels, with the same
texts as far as the stack has room, at the same times of day and in the same order. -/
theorem terminal_tells {argv argv' : List Text} {calls calls' : List LevelCall}
    (hlines : ∀ m ∈ heard (levelsOf argv.tail) calls, OneLine m)
    (hlines' : ∀ m ∈ heard (levelsOf argv'.tail) calls', OneLine m) {a b a' b' : Answers}
    {d d' : Desk} {g g' : Slog} {t t' : Trace stdio Answers}
    (hreach : libc.machine.Reach
      ⟨toolLog argv (calls.map LevelCall.call), (a, .clear), []⟩ ⟨.ret g, (b, d), t⟩)
    (hreach' : libc.machine.Reach
      ⟨toolLog argv' (calls'.map LevelCall.call), (a', .clear), []⟩ ⟨.ret g', (b', d'), t'⟩) :
    screenText d.journal = screenText d'.journal ↔
      sights (heard (levelsOf argv.tail) calls) d.journal =
        sights (heard (levelsOf argv'.tail) calls') d'.journal := by
  obtain ⟨-, parts, hjournal, hparts⟩ := (toolLog_ensures argv calls).returns hreach
  obtain ⟨-, parts', hjournal', hparts'⟩ := (toolLog_ensures argv' calls').returns hreach'
  obtain ⟨hscreen, hbroken⟩ := screenText_printed hlines hparts
  obtain ⟨hscreen', hbroken'⟩ := screenText_printed hlines' hparts'
  rw [hjournal, hjournal', hscreen, hscreen']
  constructor
  · intro h
    exact Sight.line_injective.list_map (terminated_inj hbroken hbroken' h)
  · intro h
    rw [h]

/-- A message that `--no-debug` keeps back, and one that is heard. -/
def hiddenAndReady : List LevelCall :=
  [.say .debug true "lut".toList, .say .info true "ready".toList]

def ready : List LevelCall := [.say .info true "ready".toList]

/-- With `--no-debug` the first looks like the second without it. -/
theorem terminal_tells_ready :
    ∃ b b' d d' g g' t t',
      libc.machine.Reach ⟨toolLog ["tool".toList, argNoDebug] (hiddenAndReady.map LevelCall.call),
        (Answers.on 2024 5 6 7, .clear), []⟩ ⟨.ret g, (b, d), t⟩ ∧
      libc.machine.Reach ⟨toolLog ["tool".toList] (ready.map LevelCall.call),
        (Answers.on 2024 5 6 7, .clear), []⟩ ⟨.ret g', (b', d'), t'⟩ ∧
      screenText d.journal = screenText d'.journal := by
  obtain ⟨g, ⟨b, d⟩, t, hreach, hsights⟩ : ∃ g s t, libc.machine.Reach
      ⟨toolLog ["tool".toList, argNoDebug] (hiddenAndReady.map LevelCall.call),
        (Answers.on 2024 5 6 7, .clear), []⟩ ⟨.ret g, s, t⟩ ∧
      decide (sights (heard (levelsOf [argNoDebug]) hiddenAndReady) s.2.journal =
        [sight (.info, true, "ready".toList) (Answers.on 2024 5 6 7).time]) = true :=
    exists_return_of_run (timed [] 2) (by decide +kernel)
  obtain ⟨g', ⟨b', d'⟩, t', hreach', hsights'⟩ : ∃ g s t, libc.machine.Reach
      ⟨toolLog ["tool".toList] (ready.map LevelCall.call),
        (Answers.on 2024 5 6 7, .clear), []⟩ ⟨.ret g, s, t⟩ ∧
      decide (sights (heard (levelsOf []) ready) s.2.journal =
        [sight (.info, true, "ready".toList) (Answers.on 2024 5 6 7).time]) = true :=
    exists_return_of_run (timed [] 2) (by decide +kernel)
  refine ⟨b, b', d, d', g, g', t, t', hreach, hreach', ?_⟩
  refine (terminal_tells (by decide +kernel) (by decide +kernel) hreach hreach').mpr ?_
  exact (of_decide_eq_true hsights).trans (of_decide_eq_true hsights').symm

end QspiTool
