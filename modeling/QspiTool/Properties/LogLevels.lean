import Mathlib.Data.List.Forall2
import QspiTool.Log.History
import QspiTool.Log.Levels

/-!
# What the terminal shows

`main` gives the flags of the command line to `slog_init` and never touches the rest of the
configuration.  So the command line and the calls of `slog_enable` and `slog_disable` between the
messages decide what the terminal shows: exactly the messages that are `heard`, each as one line
(`toolLine`) and in their order, and nothing else, unless the command line asks for help.

`parse_flags` stops at `-nl` and at a request for help, whichever comes first, so that nothing
behind these counts (`stopper`).
-/

namespace QspiTool

open Interaction Machine Oracle CText Stdio

/-! ## The command line -/

/-- The first argument behind which `parse_flags` does not look. -/
def stopper (args : List Text) : Option Text :=
  args.find? fun arg => decide (arg = argNoLog ∨ IsHelp arg)

/-- The command line asks for help, and not for silence before that. -/
def AsksHelp (args : List Text) : Prop := ∃ arg ∈ stopper args, IsHelp arg

/-- The levels that the command line leaves on. -/
def levelsOf (args : List Text) (l : Level) : Bool :=
  decide (stopper args ≠ some argNoLog ∧ (l = .debug → argNoDebug ∉ args) ∧
    (l = .info → argNoInfo ∉ args))

/-- The process ends by itself only behind the usage, with nothing else on the terminal. -/
def OnlyHelp (program : Text) (args : List Text) (h : Head stdio) (d : Desk) : Prop :=
  h = .abort → AsksHelp args ∧ d.journal = (usageLines program).map Entry.screen

variable {flags : BitVec 16} {s s' : Level → Bool} {d : Desk} {program arg : Text}
  {args : List Text}

lemma stopper_cons_stop (h : arg = argNoLog ∨ IsHelp arg) :
    stopper (arg :: args) = some arg :=
  List.find?_cons_of_pos (decide_eq_true h)

lemma stopper_cons (h : ¬ (arg = argNoLog ∨ IsHelp arg)) :
    stopper (arg :: args) = stopper args :=
  List.find?_cons_of_neg fun hstop => h (of_decide_eq_true hstop)

/-- An argument turns a level off. -/
def turnsOff (arg : Text) (l : Level) : Bool :=
  decide (l = .debug ∧ arg = argNoDebug ∨ l = .info ∧ arg = argNoInfo)

lemma levelsOf_cons (h : ¬ (arg = argNoLog ∨ IsHelp arg)) (l : Level) :
    levelsOf (arg :: args) l = (!turnsOff arg l && levelsOf args l) := by
  rw [Bool.eq_iff_iff]
  simp only [levelsOf, turnsOff, stopper_cons h, decide_eq_true_eq, Bool.and_eq_true,
    Bool.not_eq_true', decide_eq_false_iff_not, List.mem_cons, eq_comm (b := arg)]
  grind

/-- What the rest of the arguments leaves on of a set of levels. -/
def leftOn (s : Level → Bool) (args : List Text) (l : Level) : Bool := s l && levelsOf args l

lemma leftOn_cons (h : ¬ (arg = argNoLog ∨ IsHelp arg))
    (hs : ∀ l, s' l = (s l && !turnsOff arg l)) : leftOn s' args = leftOn s (arg :: args) := by
  funext l
  rw [leftOn, leftOn, levelsOf_cons h, hs, Bool.and_assoc]

/-- What `parse_flags` leaves. -/
def Parsed (args : List Text) (s : Level → Bool) (d : Desk) (flags : BitVec 16) (d' : Desk) :
    Prop := d' = d ∧ ¬ AsksHelp args ∧ FlagsOf flags (leftOn s args)

/-- Lines printed one after the other. -/
lemma forM_printf_ensures {G : Head stdio → Desk → Prop} (hG : ∀ o d, G (.call o) d)
    {Q : Unit → Desk → Prop} (lines : List Text)
    (h : Q () { d with journal := d.journal ++ lines.map Entry.screen }) :
    libc.Ensures G (lines.forM printf) Q d := by
  induction lines generalizing d with
  | nil => simpa using h
  | cons line lines ih =>
    rw [List.forM, ensures_bind, ensures_printf]
    exact ⟨hG _ _, ih (by simpa [Desk.enter] using h)⟩

lemma usage_ensures (h : AsksHelp args) (hd : d.journal = []) (Q : BitVec 16 → Desk → Prop) :
    libc.Ensures (OnlyHelp program args) (usage program) Q d := by
  rw [usage, ensures_bind]
  refine forM_printf_ensures (fun _ _ => ?_) (usageLines program) fun _ => ⟨h, by simp [hd]⟩
  rintro ⟨⟩

/-- An argument behind which `parse_flags` looks on. -/
lemma parse_cons {p : Stdio (BitVec 16)} (h : ¬ (arg = argNoLog ∨ IsHelp arg))
    (hs : ∀ l, s' l = (s l && !turnsOff arg l))
    (hp : libc.Ensures (OnlyHelp program args) p (Parsed args s' d) d) :
    libc.Ensures (OnlyHelp program (arg :: args)) p (Parsed (arg :: args) s d) d := by
  have hasks : AsksHelp (arg :: args) ↔ AsksHelp args := by
    rw [AsksHelp, AsksHelp, stopper_cons h]
  refine hp.conseq (fun _ _ hhead habort => (hhead habort).imp_left hasks.mpr) ?_
  rintro flags' d' ⟨hd, hnot, hflags⟩
  rw [leftOn_cons h hs] at hflags
  exact ⟨hd, fun hask => hnot (hasks.mp hask), hflags⟩

lemma parseArgs_ensures (program : Text) (args : List Text) (hd : d.journal = [])
    (h : FlagsOf flags s) :
    libc.Ensures (OnlyHelp program args) (parseArgs program flags args) (Parsed args s d) d := by
  induction args generalizing flags s with
  | nil =>
    refine ⟨rfl, ?_, fun l => ?_⟩
    · rintro ⟨arg, harg, -⟩
      cases harg
    · rw [h l, leftOn]
      simp [levelsOf, stopper]
  | cons arg args ih =>
    rw [parseArgs]
    by_cases hnl : arg = argNoLog
    · -- nothing is on, whatever stands behind
      rw [if_pos hnl]
      have hstop : stopper (arg :: args) = some arg := stopper_cons_stop (.inl hnl)
      refine ⟨rfl, ?_, fun l => ?_⟩
      · rintro ⟨arg', harg', hhelp⟩
        obtain rfl := Option.some.inj (hstop.symm.trans harg')
        subst hnl
        exact absurd hhelp (by decide)
      · rw [leftOn, levelsOf, hstop, hnl]
        simp
    rw [if_neg hnl]
    by_cases hdebug : arg = argNoDebug
    · rw [if_pos hdebug]
      subst hdebug
      refine parse_cons (by decide) (fun l => ?_) (ih (flagsOf_cleared h .debug))
      rw [Function.update_apply]
      cases l <;> simp [turnsOff, show argNoDebug ≠ argNoInfo by decide]
    rw [if_neg hdebug]
    by_cases hinfo : arg = argNoInfo
    · rw [if_pos hinfo]
      subst hinfo
      refine parse_cons (by decide) (fun l => ?_) (ih (flagsOf_cleared h .info))
      rw [Function.update_apply]
      cases l <;> simp [turnsOff, show argNoInfo ≠ argNoDebug by decide]
    rw [if_neg hinfo]
    by_cases hhelp : IsHelp arg
    · rw [if_pos hhelp]
      exact usage_ensures ⟨arg, stopper_cons_stop (.inr hhelp), hhelp⟩ hd _
    · rw [if_neg hhelp]
      refine parse_cons (by simp [hnl, hhelp]) (fun l => ?_) (ih h)
      simp [turnsOff, hdebug, hinfo]

lemma parseFlags_ensures (argv : List Text) (hd : d.journal = []) :
    libc.Ensures (OnlyHelp (argv.headD []) argv.tail) (parseFlags argv)
      (Parsed argv.tail (fun _ => true) d) d := by
  unfold parseFlags
  split_ifs with hone
  · -- without arguments everything stays on
    have htail : argv.tail = [] := List.eq_nil_of_length_eq_zero (by simp [hone])
    rw [htail]
    exact parseArgs_ensures _ [] hd flagsOf_all
  · exact parseArgs_ensures _ argv.tail hd flagsOf_all

/-! ## The messages -/

/-- The configuration of the tool: what `slog_init` sets up, with flags that change. -/
def toolConfig (flags : BitVec 16) : SlogConfig :=
  SlogConfig.initial (some "qspi_tool".toList) flags

/-- The tag of a level, in its colour. -/
def toolTag (l : Level) : Text :=
  match slogGetTag l.flag with
  | none => []
  | some tag => slogGetColor l.flag ++ "<".toList ++ tag ++ ">".toList ++ slogColorReset

/-- A message on the terminal: the time, the tag, and as much of the text as the stack has room
for. -/
def toolLine (m : Level × Bool × Text) (date : SlogDate) : Text :=
  decimal 2 date.nHour.toNat ++ ":".toList ++ decimal 2 date.nMin.toNat ++ ":".toList ++
    decimal 2 date.nSec.toNat ++ ".".toList ++ decimal 3 date.nUsec.toNat ++ " ".toList ++
    toolTag m.1 ++ " ".toList ++ m.2.2.take (slogMessageMax - 1) ++
    (if m.2.1 then "\n".toList else [])

lemma lineText_tool (m : Level × Bool × Text) (date : SlogDate) (tid : BitVec 64) :
    lineText (toolConfig flags) ⟨m.2.2, m.1.flag, date, m.2.1⟩ tid = toolLine m date := by
  have htag : tagText (toolConfig flags) m.1.flag = toolTag m.1 := by
    unfold tagText toolTag
    cases slogGetTag m.1.flag <;> simp [toolConfig, SlogConfig.initial, slogGetIndent, slogEmpty]
  have hinfo : infoText (toolConfig flags) ⟨m.2.2, m.1.flag, date, m.2.1⟩ tid =
      dateText (toolConfig flags) date ++ toolTag m.1 := by
    rw [infoText, htag]
    simp [toolConfig, SlogConfig.initial, tidText]
  have hpos : 0 < (dateText (toolConfig flags) date ++ toolTag m.1).length :=
    List.length_pos_of_ne_nil (by simp [toolConfig, SlogConfig.initial, dateText])
  have hseparator : (toolConfig flags).sSeparator.text = " ".toList := rfl
  rw [lineText, hinfo, slogLine, if_pos hpos, hseparator]
  simp [toolConfig, SlogConfig.initial, dateText, shownText, toolLine, slogEmpty, slogNewline]

/-- A message on the terminal, and nothing else. -/
def Printed (m : Level × Bool × Text) (part : List Entry) : Prop :=
  ∃ time : LocalTime, part = [.clock time, .screen (toolLine m time.date)]

lemma heard_cons (s : Level → Bool) (call : LevelCall) (calls : List LevelCall) :
    heard s (call :: calls) = heard s [call] ++ heard (call.turn s) calls := by
  cases call with
  | say level nNewLine pFormat =>
    by_cases hon : s level <;> simp [heard, LevelCall.turn, hon]
  | _ => rfl

variable {g g' : Slog} {es : List Entry} {leaked : List Nat} {lost : List (Nat × Text)}

/-- Without a callback and without a file, a message is one line on the screen. -/
lemma printed_of_logged {f f' : SlogFile} (m : Level × Bool × Text) (time : LocalTime)
    (h : Reported (toolConfig flags) ⟨m.2.2, m.1.flag, time.date, m.2.1⟩ f f' es leaked) :
    Printed m (.clock time :: es) := by
  cases h with
  | noMemory hheap _ => cases hheap
  | shown tid hshown =>
    obtain ⟨verdict, told, filed, rfl, htold, hfiled⟩ := hshown
    rw [lineText_tool] at htold ⊢
    obtain ⟨-, rfl⟩ : _ ∧ filed = [] := by rwa [if_pos (.inl Bool.false_ne_true)] at hfiled
    cases htold with
    | none _ => exact ⟨time, rfl⟩
    | noMemory hcallback => exact absurd rfl hcallback
    | empty hcallback _ _ => exact absurd rfl hcallback
    | answered hcallback _ _ => exact absurd rfl hcallback

/-- With the screen on, a message is wanted exactly if its level is on. -/
lemma slogWanted_tool (hcfg : g.config = toolConfig flags) (hflags : FlagsOf flags s) (l : Level) :
    SlogWanted g.config l.flag ↔ s l = true := by
  rw [hcfg, ← hflags l, ← slogFlagsCheck_iff]
  exact and_iff_left (.inr (.inl rfl))

/-- What one call prints, and the levels that are on behind it. -/
lemma LevelCall.prints {call : LevelCall} (h : call.call.Effect g g' es leaked)
    (hcfg : g.config = toolConfig flags) (hflags : FlagsOf flags s) :
    (∃ flags', g'.config = toolConfig flags' ∧ FlagsOf flags' (call.turn s)) ∧
      ∃ parts, es = parts.flatten ∧ List.Forall₂ Printed (heard s [call]) parts := by
  obtain ⟨flags', hconfig, hturn⟩ := flagsOf_turn hflags call g hcfg
  generalize hcall : call.call = c at h hconfig
  cases h with
  | configured _ hunwanted =>
    refine ⟨⟨flags', hconfig, hturn⟩, [], rfl, ?_⟩
    cases call with
    | say level nNewLine pFormat =>
      have hoff : ¬ s level = true := fun hon =>
        hunwanted _ _ _ hcall.symm ((slogWanted_tool hcfg hflags level).mpr hon)
      rw [heard, if_neg hoff]
      exact .nil
    | _ => exact .nil
  | @logged eFlag nNewLine pFormat hwanted time f' es leaked hlogged =>
    cases call with
    | say level nNewLine pFormat =>
      cases hcall
      have hon : s level = true := (slogWanted_tool hcfg hflags level).mp hwanted
      rw [hcfg] at hlogged
      have hprinted := printed_of_logged (level, nNewLine, pFormat) time hlogged
      refine ⟨⟨flags, hcfg, hflags⟩, [_], (List.append_nil _).symm, ?_⟩
      rw [heard, if_pos hon]
      exact .cons hprinted .nil
    | _ => cases hcall

/-- Without a mutex `slog_enable` and `slog_disable` only change the state. -/
lemma slogConfigure_unlocked (hsafe : g.nTdSafe = false) (change : SlogConfig → SlogConfig) :
    slogConfigure g change = .ret { g with config := change g.config } := by
  simp [slogConfigure, slogSyncLock, slogSyncUnlock, whenever, hsafe]

/-- Without a mutex a call does only what the functions under the mutex do. -/
lemma LevelCall.ensures (hsafe : g.nTdSafe = false) (hd : d.streams = g.logFile.stream ++ lost)
    (call : LevelCall) :
    libc.Ensures (Sheltered d.mutex) (call.call.run g)
      (fun g' d' => g'.nTdSafe = false ∧ d'.streams = g'.logFile.stream ++ lost ∧
        ∃ es leaked, call.call.Effect g g' es leaked ∧ d'.journal = d.journal ++ es) d := by
  cases call with
  | say level nNewLine pFormat =>
    have hlock : slogSyncLock g = .ret () := by simp [slogSyncLock, whenever, hsafe]
    rw [call, LogCall.run, slogDisplay, hlock, Prog.ret_bind, ensures_bind]
    refine (display_ensures rfl hd level.flag nNewLine pFormat).post ?_
    rintro g' d' ⟨⟨hsafe', es, leaked, heffect, hstreams, -, hjournal⟩, -⟩
    rw [hsafe] at hsafe'
    have hunlock : slogSyncUnlock g' = .ret () := by simp [slogSyncUnlock, whenever, hsafe']
    rw [hunlock]
    exact ⟨hsafe', hstreams, es, leaked, heffect, hjournal⟩
  | _ =>
    rw [call, LogCall.run]
    first | rw [slogEnable] | rw [slogDisable]
    rw [slogConfigure_unlocked hsafe]
    exact ⟨hsafe, hd, [], [], .configured _ (by rintro _ _ _ ⟨⟩), (List.append_nil _).symm⟩

/-- **What a session without a mutex prints.** -/
lemma session_prints (hsafe : g.nTdSafe = false) (hd : d.streams = g.logFile.stream ++ lost)
    (hcfg : g.config = toolConfig flags) (hflags : FlagsOf flags s) (calls : List LevelCall) :
    libc.Ensures (fun h _ => h ≠ .abort) (logSession g (calls.map LevelCall.call))
      (fun _ d' => ∃ parts, d'.journal = d.journal ++ parts.flatten ∧
        List.Forall₂ Printed (heard s calls) parts) d := by
  induction calls generalizing g d flags s with
  | nil => exact ⟨[], (List.append_nil _).symm, .nil⟩
  | cons call calls ih =>
    rw [List.map_cons, logSession, ensures_bind]
    refine (LevelCall.ensures hsafe hd call).conseq ?_ ?_
    · rintro _ _ habort rfl
      exact habort
    · rintro g₁ d₁ ⟨hsafe₁, hstreams, es, leaked, heffect, hjournal⟩
      obtain ⟨⟨flags₁, hcfg₁, hflags₁⟩, parts, rfl, hparts⟩ := LevelCall.prints heffect hcfg hflags
      refine (ih hsafe₁ hstreams hcfg₁ hflags₁).post ?_
      rintro _ d₂ ⟨parts', hjournal', hparts'⟩
      refine ⟨parts ++ parts', ?_, ?_⟩
      · rw [hjournal', hjournal, List.flatten_append, List.append_assoc]
      · rw [heard_cons]
        exact List.rel_append hparts hparts'

lemma toolLog_ensures (argv : List Text) (calls : List LevelCall) :
    libc.Ensures (OnlyHelp (argv.headD []) argv.tail) (toolLog argv (calls.map LevelCall.call))
      (fun _ d => ¬ AsksHelp argv.tail ∧ ∃ parts, d.journal = parts.flatten ∧
        List.Forall₂ Printed (heard (levelsOf argv.tail) calls) parts) .clear := by
  rw [toolLog, ensures_bind]
  refine (parseFlags_ensures argv rfl).post ?_
  rintro flags d ⟨rfl, hnot, hflags⟩
  have hlevels : leftOn (fun _ => true) argv.tail = levelsOf argv.tail := rfl
  rw [hlevels] at hflags
  refine Ensures.conseq (session_prints (g := ⟨toolConfig flags, ⟨CStr.empty _, 0, 0⟩, false⟩)
    (d := .clear) rfl rfl rfl hflags calls) ?_ ?_
  · rintro _ _ hhead habort
    exact absurd habort hhead
  · rintro _ d' ⟨parts, hjournal, hparts⟩
    exact ⟨hnot, parts, hjournal, hparts⟩

/-- **What the terminal shows.**  Whatever the C library answers, the tool ends by itself only if
the command line asks for help before it asks for silence, and has then shown the usage and nothing
else.  Otherwise, once any sequence of messages and of calls of `slog_enable` and `slog_disable` has
returned, the terminal has shown the messages that were heard, a line for each and in their order,
and nothing else has been done. -/
theorem terminal_shows (argv : List Text) (calls : List LevelCall) (a : Answers)
    {c : Config stdio (Answers × Desk) Answers Slog}
    (hreach : libc.machine.Reach
      ⟨toolLog argv (calls.map LevelCall.call), (a, .clear), []⟩ c) :
    (c.prog.head = .abort → AsksHelp argv.tail ∧
      c.state.2.journal = (usageLines (argv.headD [])).map Entry.screen) ∧
    ∀ g, c.prog = .ret g → ¬ AsksHelp argv.tail ∧
      ∃ parts, c.state.2.journal = parts.flatten ∧
        List.Forall₂ Printed (heard (levelsOf argv.tail) calls) parts := by
  have htool := toolLog_ensures argv calls
  obtain ⟨p, ⟨a', d'⟩, t⟩ := c
  refine ⟨fun habort => ?_, ?_⟩
  · have hdone : Prog.head p ≠ .done := by
      rw [habort]
      rintro ⟨⟩
    exact htool.guarantee hreach hdone habort
  · rintro g rfl
    exact htool.returns hreach

/-- A message that is not heard, and the same one once its level is on. -/
def twiceSaid : List LevelCall :=
  [.say .debug true "lut".toList, .on .debug, .say .debug true "lut".toList]

/-- With `--no-debug` the second message is the only one on the terminal. -/
theorem terminal_shows_second :
    ∃ g a' d' t, libc.machine.Reach
        ⟨toolLog ["tool".toList, argNoDebug] (twiceSaid.map LevelCall.call),
          (Answers.on 2024 5 6 7, .clear), []⟩ ⟨.ret g, (a', d'), t⟩ ∧
      d'.journal.length = 2 ∧ ¬ AsksHelp [argNoDebug] ∧
      ∃ parts, d'.journal = parts.flatten ∧
        List.Forall₂ Printed (heard (levelsOf [argNoDebug]) twiceSaid) parts := by
  obtain ⟨g, ⟨a', d'⟩, t, hreach, hlength⟩ : ∃ g s t, libc.machine.Reach
      ⟨toolLog ["tool".toList, argNoDebug] (twiceSaid.map LevelCall.call),
        (Answers.on 2024 5 6 7, .clear), []⟩ ⟨.ret g, s, t⟩ ∧
      decide (s.2.journal.length = 2) = true :=
    exists_return_of_run (timed [] 2) (by decide +kernel)
  exact ⟨g, a', d', t, hreach, of_decide_eq_true hlength,
    (terminal_shows ["tool".toList, argNoDebug] twiceSaid _ hreach).2 g rfl⟩

end QspiTool
