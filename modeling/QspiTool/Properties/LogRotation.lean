import QspiTool.Log.History
import QspiTool.Refresh

/-!
# The file of a line

With `nRotate` every line is to go to the file of its own date.  `slog_display_message` keeps the
file open while the day of the month stays, and the day of the month is not the date: a line that
is logged a month after the one before it finds that file open.

So the open file is a value that is kept while a key stays, in the sense of `Refresh`: the value is
the path, made from the date, and the key is the day.  `filings` reads the dates and the paths off
the journal, and `log_rotates` says exactly which lines go astray.
-/

namespace QspiTool

open Interaction Machine Oracle CText Refresh

/-! ## Dates and paths in the journal -/

/-- The date the clock showed last. -/
def lastDate (date : SlogDate) : List Entry → SlogDate
  | [] => date
  | .clock time :: es => lastDate time.date es
  | .error _ :: es | .noMemory _ :: es | .told _ _ _ _ _ :: es | .screen _ :: es
  | .refused _ :: es | .line _ _ :: es =>
      lastDate date es

/-- The lines for the file, each with its date and the path it was appended to; none where the
file could not be opened. -/
def filingsFrom (date : SlogDate) : List Entry → List (SlogDate × Option Text)
  | [] => []
  | .clock time :: es => filingsFrom time.date es
  | .line path _ :: es => (date, some path) :: filingsFrom date es
  | .refused _ :: es => (date, none) :: filingsFrom date es
  | .error _ :: es | .noMemory _ :: es | .told _ _ _ _ _ :: es | .screen _ :: es =>
      filingsFrom date es

/-- The filings of a journal, which begins with a reading of the clock. -/
def filings (es : List Entry) : List (SlogDate × Option Text) :=
  filingsFrom (LocalTime.date ⟨0, 0, 0, 0, 0, 0, 0⟩) es

lemma filingsFrom_append (date : SlogDate) (es es' : List Entry) :
    filingsFrom date (es ++ es') = filingsFrom date es ++ filingsFrom (lastDate date es) es' := by
  induction es generalizing date with
  | nil => rfl
  | cons e es ih => cases e <;> simp [filingsFrom, lastDate, ih]

variable {cfg : SlogConfig} {f f' : SlogFile} {g g' : Slog} {held : Option SlogDate}
  {date : SlogDate} {es : List Entry} {leaked : List Nat}

/-! ## The open file is a kept value -/

/-- The file that is open was opened at the date that is held. -/
structure FileHolds (cfg : SlogConfig) (f : SlogFile) (held : Option SlogDate) : Prop where
  opened : f.pHandle ≠ 0 ↔ held.isSome = true
  name : ∀ y ∈ held, f.nCurrDay = y.nDay ∧ f.sFilePath.text = slogFileName cfg y

/-- A filing, with the date its path was made from. -/
structure FiledAs (cfg : SlogConfig) (q : SlogDate × Option Text) (p : SlogDate × SlogDate) :
    Prop where
  date : p.1 = q.1
  written : ∀ path ∈ q.2, path = slogFileName cfg p.2
  refused : q.2 = none → p.2 = p.1

/-- A line whose file stays open. -/
def staysOpen (cfg : SlogConfig) (q : SlogDate × Option Text) : SlogDate × Bool :=
  (q.1, q.2.isSome && cfg.nKeepOpen)

lemma openPath_rotate (hrotate : cfg.nRotate = true) :
    (openPath cfg f date).text = slogFileName cfg date := by
  rw [openPath, if_pos (.inl hrotate), slogFileName_fits]

lemma holds_written {y : SlogDate} (hday : f.nCurrDay = y.nDay)
    (hname : f.sFilePath.text = slogFileName cfg y) (hopen : f.pHandle ≠ 0) :
    FileHolds cfg (f.written cfg) (keep cfg.nKeepOpen y) := by
  unfold SlogFile.written keep
  cases cfg.nKeepOpen with
  | false => exact ⟨by simp, by simp⟩
  | true =>
    refine ⟨by simp [hopen], ?_⟩
    rintro _ ⟨⟩
    exact ⟨hday, hname⟩

/-- The stream is kept exactly when its path is. -/
lemma keeps_iff (hrotate : cfg.nRotate = true) (hheld : FileHolds cfg f held) :
    f.Keeps cfg date ↔ ∃ y, held = some y ∧ y.nDay = date.nDay := by
  cases held with
  | none =>
    have hclosed : f.pHandle = 0 := by simpa using hheld.opened
    simp [SlogFile.Keeps, hclosed]
  | some y =>
    have hopen : f.pHandle ≠ 0 := by simpa using hheld.opened
    simp [SlogFile.Keeps, hopen, hrotate, (hheld.name y rfl).1]

/-- One line for the file is one filing, from the date that is held or from its own. -/
lemma Filed.filed {line : Text} (hrotate : cfg.nRotate = true) (h : Filed cfg f date line f' es)
    (hheld : FileHolds cfg f held) :
    ∃ q, filingsFrom date es = [q] ∧
      FiledAs cfg q (date, source SlogDate.nDay held date) ∧
      FileHolds cfg f' (keep (staysOpen cfg q).2 (source SlogDate.nDay held date)) := by
  have hanew : ¬ f.Keeps cfg date → source SlogDate.nDay held date = date := by
    intro hkeeps
    rw [keeps_iff hrotate hheld] at hkeeps
    cases held with
    | none => rfl
    | some y => exact if_neg fun hday => hkeeps ⟨y, rfl, hday⟩
  cases h with
  | kept hkeeps =>
    obtain ⟨y, rfl, hday⟩ := (keeps_iff hrotate hheld).mp hkeeps
    have hsource : source SlogDate.nDay (some y) date = y := if_pos hday
    obtain ⟨hcurr, hname⟩ := hheld.name y rfl
    refine ⟨_, rfl, ⟨rfl, ?_, by rintro ⟨⟩⟩, ?_⟩
    · rintro _ ⟨⟩
      rw [hsource, hname]
    · rw [hsource]
      exact holds_written hcurr hname hkeeps.1
  | opened hkeeps stream hstream =>
    have hsource := hanew hkeeps
    refine ⟨_, rfl, ⟨rfl, ?_, by rintro ⟨⟩⟩, ?_⟩
    · rintro _ ⟨⟩
      rw [hsource, openPath_rotate hrotate]
    · rw [hsource]
      exact holds_written rfl (openPath_rotate hrotate) hstream
  | refused hkeeps error =>
    have hsource := hanew hkeeps
    refine ⟨_, rfl, ⟨rfl, by rintro _ ⟨⟩, fun _ => hsource⟩, ?_⟩
    exact ⟨by simp [staysOpen, keep], by simp [staysOpen, keep]⟩

/-! ## Messages -/

/-- Before the file, nothing is filed. -/
lemma filingsFrom_shown {eFlag : BitVec 32} {line : Text} {verdict : Int} {told : List Entry}
    (h : Told cfg eFlag line verdict told leaked) (es : List Entry) :
    filingsFrom date (told ++ onScreen cfg verdict line ++ es) = filingsFrom date es := by
  unfold onScreen
  cases h <;> split_ifs <;> rfl

/-- A message is filed once or not at all. -/
lemma Reported.filed {ctx : SlogContext} (hrotate : cfg.nRotate = true)
    (h : Reported cfg ctx f f' es leaked) (hheld : FileHolds cfg f held) :
    (filingsFrom ctx.date es = [] ∧ FileHolds cfg f' held) ∨
    ∃ q, filingsFrom ctx.date es = [q] ∧ FiledAs cfg q (q.1, source SlogDate.nDay held q.1) ∧
      FileHolds cfg f' (keep (staysOpen cfg q).2 (source SlogDate.nDay held q.1)) := by
  cases h with
  | noMemory _ _ => exact .inl ⟨rfl, hheld⟩
  | shown tid hshown =>
    obtain ⟨verdict, told, filed, rfl, htold, hfile⟩ := hshown
    rw [filingsFrom_shown htold]
    split_ifs at hfile
    · obtain ⟨rfl, rfl⟩ := hfile
      exact .inl ⟨rfl, hheld⟩
    · obtain ⟨q, hq, hfiled, hholds⟩ := hfile.filed hrotate hheld
      have hdate : ctx.date = q.1 := hfiled.date
      rw [hdate] at hfiled hholds
      exact .inr ⟨q, hq, hfiled, hholds⟩

def LogCall.isDisplay : LogCall → Bool
  | display _ _ _ => true
  | _ => false

lemma LogCall.Effect.filed {call : LogCall} (hcall : call.isDisplay = true)
    (hrotate : g.config.nRotate = true) (h : call.Effect g g' es leaked)
    (hheld : FileHolds g.config g.logFile held) (date : SlogDate) :
    g'.config = g.config ∧
    ((filingsFrom date es = [] ∧ FileHolds g.config g'.logFile held) ∨
    ∃ q, filingsFrom date es = [q] ∧
      FiledAs g.config q (q.1, source SlogDate.nDay held q.1) ∧
      FileHolds g.config g'.logFile
        (keep (staysOpen g.config q).2 (source SlogDate.nDay held q.1))) := by
  cases h with
  | configured _ _ =>
    cases call with
    | display _ _ _ => exact ⟨rfl, .inl ⟨rfl, hheld⟩⟩
    | _ => cases hcall
  | logged _ time hlogged => exact ⟨rfl, hlogged.filed hrotate hheld⟩

/-- What is filed of several messages is what the held dates say. -/
lemma LogHistory.filed {calls : List LogCall} (hcalls : ∀ call ∈ calls, call.isDisplay = true)
    (hrotate : g.config.nRotate = true) (h : LogHistory g calls g' es leaked)
    (hheld : FileHolds g.config g.logFile held) (date : SlogDate) :
    List.Forall₂ (FiledAs g.config) (filingsFrom date es)
      (sources SlogDate.nDay held ((filingsFrom date es).map (staysOpen g.config))) := by
  induction h generalizing held date with
  | nil => exact .nil
  | @cons g₁ g₂ g₃ call calls es₁ es₂ leaked₁ leaked₂ heffect _ ih =>
    obtain ⟨hcfg, hfiled⟩ := heffect.filed (hcalls _ (List.mem_cons_self ..)) hrotate hheld date
    have hrest := fun c hc => hcalls c (List.mem_cons_of_mem call hc)
    rw [hcfg] at ih
    rw [filingsFrom_append]
    rcases hfiled with ⟨hnone, hholds⟩ | ⟨q, hq, hq', hholds⟩
    · rw [hnone, List.nil_append]
      exact ih hrest hrotate hholds _
    · rw [hq, List.singleton_append, List.map_cons, staysOpen, sources]
      exact .cons hq' (ih hrest hrotate hholds _)

/-! ## Which lines go astray -/

/-- `q` is not logged to the file that is open for `p`, or has its date. -/
def Dated (p q : SlogDate × Option Text) : Prop :=
  p.2.isSome = true → p.1.nDay = q.1.nDay → p.1.nYear = q.1.nYear ∧ p.1.nMonth = q.1.nMonth

lemma dated_iff_renewed (hkeep : cfg.nKeepOpen = true) (p q : SlogDate × Option Text) :
    Dated p q ↔
      Renewed SlogDate.nDay (slogFileName cfg) (staysOpen cfg p) (staysOpen cfg q) := by
  simp only [Dated, Renewed, staysOpen, hkeep, Bool.and_true, slogFileName_inj]
  refine imp_congr_right fun _ => imp_congr_right fun hday => ?_
  simp [hday]

/-- The paths are right exactly when the sources are. -/
lemma forall_filed {qs : List (SlogDate × Option Text)} {ps : List (SlogDate × SlogDate)}
    (h : List.Forall₂ (FiledAs cfg) qs ps) :
    (∀ q ∈ qs, ∀ path ∈ q.2, path = slogFileName cfg q.1) ↔
      ∀ p ∈ ps, slogFileName cfg p.2 = slogFileName cfg p.1 := by
  induction h with
  | nil => simp
  | @cons q p qs ps hq _ ih =>
    rw [List.forall_mem_cons, List.forall_mem_cons, ih]
    refine and_congr_left fun _ => ?_
    obtain ⟨date, written⟩ := q
    obtain rfl : p.1 = date := hq.date
    cases written with
    | none => simp [hq.refused rfl]
    | some path =>
      rw [← hq.written path rfl]
      simp

/-- **Which lines go astray.**  From a state in which no file is open, with `nRotate`, whatever the
clock shows, the callback answers and `fopen` does: every line is appended to the file of its own
date exactly when the file is closed after each line, or no line finds the file of the line before
it open, is logged on the same day of the month, and in another month or year. -/
theorem log_rotates {calls : List LogCall} (hcalls : ∀ call ∈ calls, call.isDisplay = true)
    (hrotate : g.config.nRotate = true) (hclosed : g.logFile.pHandle = 0) {a a' : Answers}
    {d d' : Desk} {t : Trace stdio Answers}
    (hreach : libc.machine.Reach ⟨logSession g calls, (a, d), []⟩ ⟨.ret g', (a', d'), t⟩) :
    ∃ es, d'.journal = d.journal ++ es ∧
      ((∀ q ∈ filings es, ∀ path ∈ q.2, path = slogFileName g.config q.1) ↔
        (g.config.nKeepOpen = true → (filings es).IsChain Dated)) := by
  have hkept : DeskKept False g d.streams d :=
    ⟨by rw [SlogFile.stream_closed hclosed, List.nil_append], False.elim⟩
  obtain ⟨es, leaked, -, hhistory, -, -, -, hjournal⟩ :=
    (logSession_ensures true hkept False.elim False.elim).returns hreach
  refine ⟨es, hjournal, ?_⟩
  have hheld : FileHolds g.config g.logFile none := ⟨by simp [hclosed], by simp⟩
  have hright := forall_filed (hhistory.filed hcalls hrotate hheld
    (LocalTime.date ⟨0, 0, 0, 0, 0, 0, 0⟩))
  rw [sources_right, List.isChain_map] at hright
  refine hright.trans ?_
  cases hkeep : g.config.nKeepOpen with
  | true =>
    exact (List.IsChain.iff (dated_iff_renewed hkeep)).symm.trans (imp_iff_right rfl).symm
  | false =>
    -- no file stays open, so nothing has to be renewed
    refine iff_of_true (List.Pairwise.isChain (List.pairwise_of_forall fun p q => ?_)) ?_
    · intro hstays
      simp [staysOpen, hkeep] at hstays
    · rintro ⟨⟩

/-- A logger whose file is closed and stays open once it is opened. -/
def rotating : Slog :=
  ⟨{ SlogConfig.initial none 255#16 with nToFile := true }, ⟨CStr.empty _, 0, 0⟩, false⟩

/-- A line on the fifth of January and one on the fifth of February, in one file. -/
def fifths : List (SlogDate × Option Text) :=
  [((Answers.on 2024 1 5 7).time.date, some "./slog-2024-01-05.log".toList),
    ((Answers.on 2024 2 5 7).time.date, some "./slog-2024-01-05.log".toList)]

/-- The line of the fifth of February goes to the file of the fifth of January. -/
theorem log_rotates_fifth :
    ∃ g' a' d' t, libc.machine.Reach
        ⟨logSession rotating
          [.display slogInfo true "one".toList, .display slogInfo true "two".toList],
          (Answers.on 2024 1 5 7, .clear), []⟩ ⟨.ret g', (a', d'), t⟩ ∧
      ¬ ∀ q ∈ filings d'.journal, ∀ path ∈ q.2, path = slogFileName rotating.config q.1 := by
  obtain ⟨g', ⟨a', d'⟩, t, hreach, hfilings⟩ : ∃ g' s t, libc.machine.Reach
      ⟨logSession rotating
        [.display slogInfo true "one".toList, .display slogInfo true "two".toList],
        (Answers.on 2024 1 5 7, .clear), []⟩ ⟨.ret g', s, t⟩ ∧
      decide (filings s.2.journal = fifths) = true :=
    exists_return_of_run (timed [(4, Answers.on 2024 2 5 7)] 3) (by decide +kernel)
  refine ⟨g', a', d', t, hreach, fun hright => ?_⟩
  obtain ⟨es, hes, hiff⟩ := log_rotates (by decide) rfl rfl hreach
  have hjournal : d'.journal = es := hes
  have hqs : filings es = fifths := hjournal ▸ of_decide_eq_true hfilings
  have hchain := hiff.mp (hjournal ▸ hright) rfl
  rw [hqs, fifths, List.isChain_pair] at hchain
  exact absurd (hchain rfl rfl).2 (by decide)

end QspiTool
