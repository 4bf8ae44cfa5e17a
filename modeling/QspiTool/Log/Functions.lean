import QspiTool.Log.Lines

/-!
# The functions of the logger keep to their effects

One rule for each function of `Slog.lean`: from a desk whose newest stream is the one the log file
holds, if it holds one, the function uses only streams and blocks that are in use, and leaves what
`Log/Effects.lean` says.  The streams that `slog_init` has forgotten before stay where they are.

Inside a call the mutex is left as it is (`Sheltered`); between the calls it is as the state of the
logger says, as long as the logger is used in order, which the proposition `P` stands for
(`Guarded`).
-/

namespace QspiTool

open Interaction Oracle CText Stdio

/-! ## What the logger may do -/

/-- Streams and blocks are used while they are in use. -/
def Tidy : Head stdio → Desk → Prop
  | .call (.fclose stream), d => stream ∈ d.streams.map Prod.fst
  | .call (.fprintf stream _), d => stream ∈ d.streams.map Prod.fst
  | .call (.fflush stream), d => stream ∈ d.streams.map Prod.fst
  | .call (.free block), d => block ∈ d.blocks
  | _, _ => True

/-- The mutex is taken when it is free, given back when it is held, set up and destroyed while
nobody holds it; everything else is done while it is held or while there is none, and the process
ends only when a call on it has failed. -/
def Disciplined : Head stdio → Desk → Prop
  | .call (.pthread .mutexInit), d => d.mutex = .none
  | .call (.pthread .mutexLock), d => d.mutex = .free
  | .call (.pthread .mutexUnlock), d => d.mutex = .held
  | .call (.pthread .mutexDestroy), d => d.mutex = .free
  | .call (.pthread _), _ => True
  | .call _, d => d.mutex ≠ .free ∨ d.failed
  | .abort, d => d.failed
  | _, _ => True

/-- What a public call may do. -/
def Guarded (P : Prop) (h : Head stdio) (d : Desk) : Prop := Tidy h d ∧ (P → Disciplined h d)

/-- What a function called under the mutex may do. -/
def Sheltered (m : Mutex) : Head stdio → Desk → Prop
  | .call (.pthread _), _ | .abort, _ | .done, _ | .poll _, _ => False
  | .call o, d => Tidy (.call o) d ∧ d.mutex = m

variable {P : Prop} {m : Mutex} {d : Desk} {f : SlogFile} {g : Slog} {lost : List (Nat × Text)}

lemma Sheltered.guarded (hm : P → m ≠ .free) {h : Head stdio} (hh : Sheltered m h d) :
    Guarded P h d := by
  cases h with
  | done => exact hh.elim
  | abort => exact hh.elim
  | poll w => exact w.elim
  | call o =>
    cases o with
    | pthread call => exact hh.elim
    | _ => exact ⟨hh.1, fun hP => .inl (by rw [hh.2]; exact hm hP)⟩

/-- The stream the log file holds. -/
def SlogFile.stream (f : SlogFile) : List (Nat × Text) :=
  if f.pHandle = 0 then [] else [(f.pHandle, f.sFilePath.text)]

lemma SlogFile.stream_closed {f : SlogFile} (h : f.pHandle = 0) : f.stream = [] := if_pos h

lemma SlogFile.stream_open {f : SlogFile} (h : f.pHandle ≠ 0) :
    f.stream = [(f.pHandle, f.sFilePath.text)] := if_neg h

/-! ## The parts of a line -/

lemma slogCreateTid_ensures (hm : d.mutex = m) (nTraceTid : Bool) (cfg : SlogConfig)
    (hcfg : cfg.nTraceTid = nTraceTid) :
    libc.Ensures (Sheltered m) (slogCreateTid nTraceTid)
      (fun r d' => d' = d ∧ ∃ tid, r.text = tidText cfg tid) d := by
  subst hcfg
  unfold slogCreateTid
  cases htid : cfg.nTraceTid with
  | false => exact ⟨rfl, 0, by simp [tidText, htid]⟩
  | true =>
    simp only [not_true_eq_false, if_false, ensures_bind, ensures_gettid]
    refine ⟨⟨trivial, hm⟩, fun tid => ⟨rfl, tid, ?_⟩⟩
    have hlength := length_tidText_lt cfg tid
    simp only [tidText, htid, if_true] at hlength ⊢
    exact CStr.snprintf_text hlength

/-- Nothing of what stands before a message is cut off. -/
lemma slogCreateInfo_ensures (hm : d.mutex = m) (cfg : SlogConfig) (ctx : SlogContext) :
    libc.Ensures (Sheltered m) (slogCreateInfo cfg ctx)
      (fun r d' => d' = d ∧ ∃ tid, r.1.text = infoText cfg ctx tid ∧
        r.2 = (infoText cfg ctx tid).length) d := by
  unfold slogCreateInfo
  rw [ensures_bind]
  refine (slogCreateTid_ensures hm cfg.nTraceTid cfg rfl).post ?_
  rintro r d' ⟨rfl, tid, htid⟩
  have hinfo : (if cfg.eColorFormat = .full then slogGetColor ctx.eFlag else slogEmpty) ++
      r.text ++ (slogDateText cfg ctx.date).text ++
        (slogCreateTag cfg ctx.eFlag (slogGetColor ctx.eFlag)).text = infoText cfg ctx tid := by
    rw [htid, slogDateText_text, slogCreateTag_text]
    rfl
  refine ⟨rfl, tid, ?_, congrArg List.length hinfo⟩
  exact (CStr.snprintf_text (by rw [hinfo]; exact length_infoText_lt cfg ctx tid)).trans hinfo

/-! ## The log file -/

lemma slogCloseFile_ensures (hm : d.mutex = m) (hd : d.streams = f.stream ++ lost) :
    libc.Ensures (Sheltered m) (slogCloseFile f)
      (fun f' d' => f' = { f with pHandle := 0 } ∧ d' = { d with streams := lost }) d := by
  unfold slogCloseFile
  rw [ensures_ite]
  refine ⟨fun hopen => ?_, fun hclosed => ?_⟩
  · rw [SlogFile.stream_open hopen] at hd
    simp only [ensures_bind, ensures_fclose, Prog.pure_eq, ensures_ret, Desk.next]
    exact ⟨⟨by simp [Tidy, hd], hm⟩, trivial, by simp [hd]⟩
  · have hzero : f.pHandle = 0 := not_not.mp hclosed
    rw [SlogFile.stream_closed hzero, List.nil_append] at hd
    exact ⟨by rw [← hzero], by rw [← hd]⟩

/-- The file is opened, or a message says that it is not. -/
lemma slogOpenFile_ensures (hm : d.mutex = m) (hd : d.streams = f.stream ++ lost)
    (cfg : SlogConfig) (date : SlogDate) :
    libc.Ensures (Sheltered m) (slogOpenFile f cfg date)
      (fun r d' =>
        (∃ stream, stream ≠ 0 ∧ r = (⟨openPath cfg f date, date.nDay, stream⟩, true) ∧
          d' = { d with streams := r.1.stream ++ lost }) ∨
        ∃ error, r = (⟨openPath cfg f date, f.nCurrDay, 0⟩, false) ∧
          d' = { d with
            streams := lost
            journal := d.journal ++ [.refused (openPath cfg f date).text, .error error,
              .screen (openError (openPath cfg f date).text error)] }) d := by
  unfold slogOpenFile
  rw [ensures_bind]
  refine (slogCloseFile_ensures hm hd).post ?_
  rintro _ _ ⟨rfl, rfl⟩
  have hpath : (if cfg.nRotate ∨ f.sFilePath.text = [] then
      { f with sFilePath := CStr.snprintf _ (slogFileName cfg date), pHandle := 0 }
      else { f with pHandle := 0 } : SlogFile) = ⟨openPath cfg f date, f.nCurrDay, 0⟩ := by
    unfold openPath
    split_ifs <;> rfl
  simp only [hpath, ensures_bind, ensures_fopen, ensures_ite]
  refine ⟨⟨trivial, hm⟩, fun stream _ => ⟨fun hzero => ?_, fun hopen => ?_⟩⟩
  · subst hzero
    simp only [ensures_strerror, ensures_printf, Prog.pure_eq, ensures_ret]
    refine ⟨⟨trivial, hm⟩, fun error => ⟨⟨trivial, hm⟩, .inr ⟨error, ?_, ?_⟩⟩⟩
    · exact trivial
    · simp [Desk.next, Desk.enter, openError]
  · refine .inl ⟨stream, hopen, rfl, ?_⟩
    simp [Desk.next, hopen, SlogFile.stream]

/-- A line for a file that is open. -/
lemma writeLine_ensures (hm : d.mutex = m) (hd : d.streams = f.stream ++ lost)
    (hopen : f.pHandle ≠ 0) (cfg : SlogConfig) (line : Text) :
    libc.Ensures (Sheltered m)
      (fprintf f.pHandle line >>= fun _ => whenever cfg.nFlush (fflush f.pHandle) >>= fun _ =>
        if ¬ cfg.nKeepOpen then slogCloseFile f else pure f)
      (fun f' d' => f' = f.written cfg ∧ d' = { d with
        streams := f'.stream ++ lost
        journal := d.journal ++ [.line f.sFilePath.text line] }) d := by
  have hstream : d.streams = (f.pHandle, f.sFilePath.text) :: lost := by
    rw [hd, SlogFile.stream_open hopen]
    rfl
  have hmem : f.pHandle ∈ d.streams.map Prod.fst := by simp [hstream]
  have hwrite : d.next (.fprintf f.pHandle line) () =
      { d with journal := d.journal ++ [.line f.sFilePath.text line] } := by
    simp [Desk.next, hstream, Desk.enter]
  simp only [ensures_bind, ensures_fprintf, ensures_whenever, ensures_fflush, hwrite]
  -- flushed or not, the stream is closed unless it is to be kept
  have hrest : libc.Ensures (Sheltered m) (if ¬ cfg.nKeepOpen then slogCloseFile f else pure f)
      (fun f' d' => f' = f.written cfg ∧ d' = { d with
        streams := f'.stream ++ lost
        journal := d.journal ++ [.line f.sFilePath.text line] })
      { d with journal := d.journal ++ [.line f.sFilePath.text line] } := by
    cases hkeep : cfg.nKeepOpen with
    | false =>
      rw [if_pos (by decide)]
      refine Ensures.post (slogCloseFile_ensures hm hd) ?_
      rintro _ _ ⟨rfl, rfl⟩
      exact ⟨by simp [SlogFile.written, hkeep], by simp [SlogFile.stream]⟩
    | true =>
      refine ⟨by simp [SlogFile.written, hkeep], ?_⟩
      rw [← hd]
  exact ⟨⟨hmem, hm⟩, fun _ => ⟨⟨hmem, hm⟩, hrest⟩, fun _ => hrest⟩

/-- A line for the file reaches it, or a message says that it does not. -/
lemma slogToFile_ensures (hm : d.mutex = m) (hd : d.streams = f.stream ++ lost)
    (cfg : SlogConfig) (date : SlogDate) (line : Text) :
    libc.Ensures (Sheltered m) (slogToFile cfg f date line)
      (fun f' d' => ∃ es, Filed cfg f date line f' es ∧
        d' = { d with streams := f'.stream ++ lost, journal := d.journal ++ es }) d := by
  unfold slogToFile
  by_cases hkeeps : f.Keeps cfg date
  · simp only [hkeeps.1, hkeeps.2, if_false, Prog.pure_eq, Prog.ret_bind, not_true_eq_false]
    refine (writeLine_ensures hm hd hkeeps.1 cfg line).post ?_
    rintro _ _ ⟨rfl, rfl⟩
    exact ⟨_, .kept hkeeps, rfl⟩
  · -- the stream is closed if it was open, so that a new one is opened
    have hclosed : libc.Ensures (Sheltered m)
        (if f.nCurrDay ≠ date.nDay ∧ cfg.nRotate then slogCloseFile f else pure f)
        (fun f' d' => f' = { f with pHandle := 0 } ∧ d' = { d with streams := lost }) d := by
      rw [ensures_ite]
      refine ⟨fun _ => slogCloseFile_ensures hm hd, fun hday => ?_⟩
      have hzero : f.pHandle = 0 := by
        by_contra hopen
        exact hkeeps ⟨hopen, hday⟩
      rw [SlogFile.stream_closed hzero, List.nil_append] at hd
      exact ⟨by rw [← hzero], by rw [← hd]⟩
    rw [ensures_bind]
    refine hclosed.post ?_
    rintro _ _ ⟨rfl, rfl⟩
    simp only [if_true, ensures_bind]
    refine (slogOpenFile_ensures (d := { d with streams := lost }) (f := { f with pHandle := 0 })
      hm rfl cfg date).post ?_
    rintro _ _ (⟨stream, hstream, rfl, rfl⟩ | ⟨error, rfl, rfl⟩)
    · rw [if_neg (by simp)]
      let opened : SlogFile := ⟨openPath cfg f date, date.nDay, stream⟩
      refine Ensures.post (writeLine_ensures (f := opened)
        (d := { d with streams := opened.stream ++ lost }) hm rfl hstream cfg line) ?_
      rintro _ _ ⟨rfl, rfl⟩
      exact ⟨_, .opened hkeeps stream hstream, rfl⟩
    · exact ⟨_, .refused hkeeps error, rfl⟩

/-! ## A message -/

/-- The callback gets a line that is not empty; the block of an empty one is not freed. -/
lemma slogCallback_ensures (hm : d.mutex = m) (cfg : SlogConfig) (ctx : SlogContext)
    (line : Text) :
    libc.Ensures (Sheltered m) (slogCallback cfg ctx line)
      (fun verdict d' => ∃ es leaked, Told cfg ctx.eFlag line verdict es leaked ∧
        (∀ b ∈ leaked, b ∉ d.blocks) ∧
        d' = { d with blocks := leaked ++ d.blocks, journal := d.journal ++ es }) d := by
  unfold slogCallback
  rw [ensures_ite]
  refine ⟨fun hcallback => ?_, fun hnone => ?_⟩
  · simp only [ensures_bind, ensures_asprintf]
    refine ⟨⟨trivial, hm⟩, fun log hfresh => ?_⟩
    by_cases hlog : log = 0
    · subst hlog
      simp only [ne_eq, not_true_eq_false, false_and, if_false]
      exact ⟨[_], [], .noMemory hcallback, by simp, by simp [Desk.next, Desk.enter]⟩
    · by_cases hline : line = []
      · subst hline
        simp only [List.length_nil, Nat.lt_irrefl, and_false, if_false]
        exact ⟨[], [log], .empty hcallback rfl log, by simpa using hfresh.resolve_left hlog,
          by simp [Desk.next, hlog]⟩
      · rw [if_pos ⟨hlog, List.length_pos_of_ne_nil hline⟩]
        simp only [ensures_bind, ensures_callback, ensures_free, Prog.pure_eq, ensures_ret]
        refine ⟨⟨trivial, by simp [Desk.next, hlog, hm]⟩, fun verdict =>
          ⟨⟨by simp [Tidy, Desk.enter, Desk.next, hlog], by simp [Desk.enter, Desk.next, hlog, hm]⟩,
            [_], [], .answered hcallback hline verdict, by simp, ?_⟩⟩
        simp [Desk.enter, Desk.next, hlog]
  · exact ⟨[], [], .none (not_not.mp hnone), by simp, by simp⟩

/-- A line goes to the file unless there is none or the callback has kept the line back. -/
lemma routeLine_ensures (hm : d.mutex = m) (hd : d.streams = g.logFile.stream ++ lost)
    (date : SlogDate) (line : Text) (verdict : Int) :
    libc.Ensures (Sheltered m)
      (if ¬ g.config.nToFile ∨ verdict < 0 then pure g
        else slogToFile g.config g.logFile date line >>= fun file =>
          pure { g with logFile := file })
      (fun g' d' => ∃ f' es,
        (if ¬ g.config.nToFile ∨ verdict < 0 then f' = g.logFile ∧ es = []
          else Filed g.config g.logFile date line f' es) ∧
        g' = { g with logFile := f' } ∧
        d' = { d with streams := f'.stream ++ lost, journal := d.journal ++ es }) d := by
  by_cases hnone : ¬ g.config.nToFile ∨ verdict < 0
  · simp only [if_pos hnone]
    exact ⟨g.logFile, [], ⟨rfl, rfl⟩, rfl, by simp [← hd]⟩
  · simp only [if_neg hnone, ensures_bind]
    refine (slogToFile_ensures hm hd g.config date line).post ?_
    rintro f' _ ⟨es, hfiled, rfl⟩
    exact ⟨f', es, hfiled, rfl, rfl⟩

/-- A line is shown as the configuration and the callback say. -/
lemma slogDisplayMessage_ensures (hm : d.mutex = m) (hd : d.streams = g.logFile.stream ++ lost)
    (ctx : SlogContext) (pInfo : Text) (nInfoLen : Nat) (pInput : Option Text) :
    libc.Ensures (Sheltered m) (slogDisplayMessage g ctx pInfo nInfoLen pInput)
      (fun g' d' => ∃ f' es leaked,
        Shown g.config ctx (slogLine g.config ctx pInfo nInfoLen pInput) g.logFile f' es leaked ∧
        (∀ b ∈ leaked, b ∉ d.blocks) ∧ g' = { g with logFile := f' } ∧
        d' = { d with
          streams := f'.stream ++ lost
          blocks := leaked ++ d.blocks
          journal := d.journal ++ es }) d := by
  unfold slogDisplayMessage
  simp only [ensures_bind]
  refine (slogCallback_ensures hm g.config ctx _).post ?_
  rintro verdict _ ⟨told, leaked, htold, hfresh, rfl⟩
  generalize slogLine g.config ctx pInfo nInfoLen pInput = line at *
  -- the file comes behind whatever is shown on the screen
  have hrest : ∀ d', d' = { d with
        blocks := leaked ++ d.blocks
        journal := d.journal ++ told ++ onScreen g.config verdict line } →
      libc.Ensures (Sheltered m)
        (if ¬ g.config.nToFile ∨ verdict < 0 then pure g
          else slogToFile g.config g.logFile ctx.date line >>= fun file =>
            pure { g with logFile := file })
        (fun g' d' => ∃ f' es leaked, Shown g.config ctx line g.logFile f' es leaked ∧
          (∀ b ∈ leaked, b ∉ d.blocks) ∧ g' = { g with logFile := f' } ∧
          d' = { d with
            streams := f'.stream ++ lost
            blocks := leaked ++ d.blocks
            journal := d.journal ++ es }) d' := by
    rintro _ rfl
    refine Ensures.post (routeLine_ensures (d := { d with
      blocks := leaked ++ d.blocks
      journal := d.journal ++ told ++ onScreen g.config verdict line })
      hm hd ctx.date line verdict) ?_
    rintro _ _ ⟨f', filed, hfiled, rfl, rfl⟩
    exact ⟨f', told ++ onScreen g.config verdict line ++ filed, leaked,
      ⟨verdict, told, filed, rfl, htold, hfiled⟩, hfresh, rfl, by simp⟩
  simp only [ensures_whenever, ensures_bind, ensures_printf, ensures_flushStdout]
  refine ⟨fun hscreen => ⟨⟨trivial, hm⟩, ?_⟩, fun hscreen => ?_⟩
  · have hshown : d.journal ++ told ++ onScreen g.config verdict line =
        d.journal ++ told ++ [.screen line] := by rw [onScreen, if_pos hscreen]
    have hdesk := hrest _ (by rw [hshown])
    exact ⟨fun _ => ⟨⟨trivial, hm⟩, hdesk⟩, fun _ => hdesk⟩
  · have hshown : onScreen g.config verdict line = [] := if_neg hscreen
    exact hrest _ (by rw [hshown, List.append_nil])

/-- On the heap or on the stack, a message is logged. -/
lemma slogDisplayHeap_ensures (hm : d.mutex = m) (hd : d.streams = g.logFile.stream ++ lost)
    (hheap : g.config.nUseHeap) (ctx : SlogContext) :
    libc.Ensures (Sheltered m) (slogDisplayHeap g ctx)
      (fun g' d' => ∃ f' es leaked, Reported g.config ctx g.logFile f' es leaked ∧
        g' = { g with logFile := f' } ∧
        d' = { d with
          streams := f'.stream ++ lost
          blocks := leaked ++ d.blocks
          journal := d.journal ++ es }) d := by
  unfold slogDisplayHeap
  simp only [ensures_bind, ensures_asprintf]
  refine ⟨⟨trivial, hm⟩, fun message _ => ?_⟩
  by_cases hnull : message = 0
  · subst hnull
    simp only [if_true, ensures_bind, ensures_errno, ensures_printf, Prog.pure_eq, ensures_ret,
      Desk.next]
    refine ⟨⟨trivial, hm⟩, fun e => ⟨⟨trivial, hm⟩, g.logFile,
      [.noMemory ctx.pFormat, .screen (heapError e)], [], ?_⟩⟩
    refine ⟨.noMemory hheap e, rfl, ?_⟩
    rw [Desk.enter_enter, ← hd]
    rfl
  · simp only [if_neg hnull, ensures_bind, Desk.next]
    let d' : Desk := { d with blocks := message :: d.blocks }
    refine (slogCreateInfo_ensures (d := d') hm g.config ctx).post ?_
    rintro r _ ⟨rfl, tid, hinfo, hlength⟩
    refine (slogDisplayMessage_ensures (d := d') hm hd ctx _ _ _).post ?_
    rintro _ _ ⟨f', es, leaked, hshown, hfresh, rfl, rfl⟩
    have hline : slogLine g.config ctx r.1.text r.2 (some ctx.pFormat) =
        lineText g.config ctx tid := by
      rw [lineText, shownText, if_pos hheap, hinfo, hlength]
    rw [hline] at hshown
    -- the message is freed, whatever else is not
    have hmessage : message ∉ leaked := fun h => hfresh message h (List.mem_cons_self ..)
    have hblocks : (leaked ++ message :: d.blocks).erase message = leaked ++ d.blocks := by
      rw [List.erase_append_right _ hmessage, List.erase_cons_head]
    simp only [ensures_free, Prog.pure_eq, ensures_ret, Desk.next]
    refine ⟨⟨by simp [Tidy, d'], hm⟩, f', es, leaked, .shown tid hshown, rfl, ?_⟩
    rw [← hblocks]

lemma slogDisplayStack_ensures (hm : d.mutex = m) (hd : d.streams = g.logFile.stream ++ lost)
    (hstack : ¬ g.config.nUseHeap) (ctx : SlogContext) :
    libc.Ensures (Sheltered m) (slogDisplayStack g ctx)
      (fun g' d' => ∃ f' es leaked, Reported g.config ctx g.logFile f' es leaked ∧
        g' = { g with logFile := f' } ∧
        d' = { d with
          streams := f'.stream ++ lost
          blocks := leaked ++ d.blocks
          journal := d.journal ++ es }) d := by
  unfold slogDisplayStack
  simp only [ensures_bind]
  refine (slogCreateInfo_ensures hm g.config ctx).post ?_
  rintro r d' ⟨rfl, tid, hinfo, hlength⟩
  refine (slogDisplayMessage_ensures hm hd ctx _ _ _).post ?_
  rintro _ _ ⟨f', es, leaked, hshown, -, rfl, rfl⟩
  refine ⟨f', es, leaked, .shown tid ?_, rfl, rfl⟩
  rw [lineText, shownText, if_neg hstack, ← hlength, ← hinfo]
  exact hshown

/-! ## The mutex -/

/-- What has become of the mutex between the calls. -/
def Slog.mutex (g : Slog) : Mutex := if g.nTdSafe then .free else .none

/-- What has become of the mutex inside a call. -/
def Slog.lockedMutex (g : Slog) : Mutex := if g.nTdSafe then .held else .none

lemma Slog.lockedMutex_ne_free (g : Slog) : g.lockedMutex ≠ .free := by
  unfold Slog.lockedMutex
  split_ifs <;> decide

/-- A call on the mutex has failed: a message, and the end. -/
lemma slogSyncFailed_ensures (hfailed : d.failed = true) (line : Nat) (function verb : Text)
    (Q : Unit → Desk → Prop) :
    libc.Ensures (Guarded P) (slogSyncFailed line function verb) Q d := by
  simp only [slogSyncFailed, ensures_bind, ensures_errno, ensures_printf, ensures_exitFailure]
  exact ⟨⟨trivial, fun _ => .inr hfailed⟩, fun _ =>
    ⟨⟨trivial, fun _ => .inr hfailed⟩, trivial, fun _ => hfailed⟩⟩

/-- A call on the mutex that ends the process when it fails. -/
lemma pthread_ensures {call : Pthread} {line : Nat} {function verb : Text} {k : Stdio Unit}
    {Q : Unit → Desk → Prop} (hcall : call ≠ .mutexDestroy)
    (hG : P → Disciplined (.call (.pthread call)) d)
    (h : libc.Ensures (Guarded P) k Q
      { d with mutex := Desk.afterPthread call d.mutex, failed := false }) :
    libc.Ensures (Guarded P)
      (pthread call >>= fun r => if r ≠ 0 then slogSyncFailed line function verb else k) Q d := by
  simp only [ensures_bind, ensures_pthread, ensures_ite]
  refine ⟨⟨trivial, hG⟩, fun r => ⟨fun hr => ?_, fun hr => ?_⟩⟩
  · exact slogSyncFailed_ensures (by simp [Desk.next, hr, hcall]) _ _ _ _
  · rwa [Desk.next, if_pos (.inl (not_not.mp hr))]

lemma slogSyncLock_ensures {Q : Unit → Desk → Prop} (hm : P → d.mutex = g.mutex)
    (h : ∀ m b, (P → m = g.lockedMutex) → Q () { d with mutex := m, failed := b }) :
    libc.Ensures (Guarded P) (slogSyncLock g) Q d := by
  unfold slogSyncLock
  unfold Slog.mutex Slog.lockedMutex at *
  rw [ensures_whenever]
  refine ⟨fun hsafe => ?_, fun hnone => ?_⟩
  · simp only [hsafe, if_true] at hm h
    exact pthread_ensures (by decide) hm (h .held false fun _ => rfl)
  · simp only [hnone] at hm h
    exact h d.mutex d.failed hm

lemma slogSyncUnlock_ensures {Q : Unit → Desk → Prop} (hm : P → d.mutex = g.lockedMutex)
    (h : ∀ m b, (P → m = g.mutex) → Q () { d with mutex := m, failed := b }) :
    libc.Ensures (Guarded P) (slogSyncUnlock g) Q d := by
  unfold slogSyncUnlock
  unfold Slog.mutex Slog.lockedMutex at *
  rw [ensures_whenever]
  refine ⟨fun hsafe => ?_, fun hnone => ?_⟩
  · simp only [hsafe, if_true] at hm h
    exact pthread_ensures (by decide) hm (h .free false fun _ => rfl)
  · simp only [hnone] at hm h
    exact h d.mutex d.failed hm

/-- The mutex is set up while there is none. -/
lemma slogSyncInit_ensures {Q : Unit → Desk → Prop} (hm : P → d.mutex = .none)
    (h : ∀ m b, (P → m = g.mutex) → Q () { d with mutex := m, failed := b }) :
    libc.Ensures (Guarded P) (slogSyncInit g) Q d := by
  unfold slogSyncInit
  unfold Slog.mutex at *
  rw [ensures_whenever]
  refine ⟨fun hsafe => ?_, fun hnone => ?_⟩
  · simp only [hsafe, if_true] at h
    refine pthread_ensures (by decide) (fun _ => trivial) ?_
    refine pthread_ensures (by decide) (fun _ => trivial) ?_
    refine pthread_ensures (by decide) hm ?_
    refine pthread_ensures (by decide) (fun _ => trivial) ?_
    exact h .free false fun _ => rfl
  · simp only [hnone] at h
    exact h d.mutex d.failed hm

lemma slogSyncDestroy_ensures (hm : P → d.mutex = g.mutex) :
    libc.Ensures (Guarded P) (slogSyncDestroy g)
      (fun g' d' => g' = { g with nTdSafe := false } ∧
        ∃ m b, (P → m = .none) ∧ d' = { d with mutex := m, failed := b }) d := by
  unfold slogSyncDestroy
  unfold Slog.mutex at hm
  rw [ensures_ite]
  refine ⟨fun hsafe => ?_, fun hnone => ?_⟩
  · simp only [hsafe, if_true] at hm
    simp only [ensures_bind, ensures_pthread, Prog.pure_eq, ensures_ret, true_and]
    refine ⟨⟨trivial, hm⟩, fun r => ⟨.none, false, fun _ => rfl, ?_⟩⟩
    rw [Desk.next, if_pos (.inr rfl)]
    rfl
  · simp only [hnone] at hm
    have hfalse : g.nTdSafe = false := Bool.eq_false_iff.mpr hnone
    exact ⟨by rw [← hfalse], d.mutex, d.failed, hm, rfl⟩

/-! ## The public calls -/

/-- The streams that a call forgets. -/
def LogCall.dropped (g : Slog) : LogCall → List (Nat × Text)
  | init _ _ _ => g.logFile.stream
  | _ => []

/-- What a call leaves. -/
def LogCall.Leaves (P : Prop) (g : Slog) (call : LogCall) (lost : List (Nat × Text)) (d : Desk)
    (g' : Slog) (d' : Desk) : Prop :=
  ∃ es leaked, call.Effect g g' es leaked ∧
    d'.streams = g'.logFile.stream ++ (call.dropped g ++ lost) ∧
    d'.blocks = leaked ++ d.blocks ∧ d'.journal = d.journal ++ es ∧ (P → d'.mutex = g'.mutex)

/-- The state before a call is as the logger has left it. -/
structure DeskKept (P : Prop) (g : Slog) (lost : List (Nat × Text)) (d : Desk) : Prop where
  streams : d.streams = g.logFile.stream ++ lost
  mutex : P → d.mutex = g.mutex

/-- A function that runs under the mutex, between `slog_sync_lock` and `slog_sync_unlock`. -/
lemma locked_ensures {α β : Type} (body : Stdio α) (after : α → Slog) (result : α → β)
    (R : α → Desk → Prop) {Q : β → Desk → Prop} (hm : P → d.mutex = g.mutex)
    (hsafe : ∀ a d', R a d' → (after a).nTdSafe = g.nTdSafe)
    (hbody : ∀ m b, libc.Ensures (Sheltered m) body
      (fun a d' => R a d' ∧ d'.mutex = m) { d with mutex := m, failed := b })
    (hQ : ∀ a d' m b, R a d' → (P → m = (after a).mutex) →
      Q (result a) { d' with mutex := m, failed := b }) :
    libc.Ensures (Guarded P)
      (slogSyncLock g >>= fun _ => body >>= fun a => slogSyncUnlock (after a) >>= fun _ =>
        pure (result a)) Q d := by
  simp only [ensures_bind]
  refine slogSyncLock_ensures hm fun m b hlocked => ?_
  refine (hbody m b).conseq (fun _ _ h => h.guarded fun hP => ?_) ?_
  · rw [hlocked hP]
    exact g.lockedMutex_ne_free
  · rintro a d' ⟨hR, hd'⟩
    refine slogSyncUnlock_ensures (fun hP => ?_) fun m' b' hm' => hQ a d' m' b' hR hm'
    rw [hd', hlocked hP, Slog.lockedMutex, Slog.lockedMutex, hsafe a d' hR]

/-- The message of `slog_display`, when it is wanted. -/
lemma logged_ensures (hm : d.mutex = m) (hd : d.streams = g.logFile.stream ++ lost)
    (ctx : SlogContext) :
    libc.Ensures (Sheltered m)
      (if g.config.nUseHeap then slogDisplayHeap g ctx else slogDisplayStack g ctx)
      (fun g' d' => ∃ f' es leaked, Reported g.config ctx g.logFile f' es leaked ∧
        g' = { g with logFile := f' } ∧
        d' = { d with
          streams := f'.stream ++ lost
          blocks := leaked ++ d.blocks
          journal := d.journal ++ es }) d := by
  rw [ensures_ite]
  exact ⟨fun hheap => slogDisplayHeap_ensures hm hd hheap ctx,
    fun hstack => slogDisplayStack_ensures hm hd hstack ctx⟩

/-- What `slog_display` does between locking and unlocking. -/
lemma display_ensures (hm : d.mutex = m) (hd : d.streams = g.logFile.stream ++ lost)
    (eFlag : BitVec 32) (nNewLine : Bool) (pFormat : Text) :
    libc.Ensures (Sheltered m)
      (if SlogWanted g.config eFlag then slogGetDate >>= fun date =>
        if g.config.nUseHeap then slogDisplayHeap g ⟨pFormat, eFlag, date, nNewLine⟩
        else slogDisplayStack g ⟨pFormat, eFlag, date, nNewLine⟩
      else pure g)
      (fun g' d' => (g'.nTdSafe = g.nTdSafe ∧
        ∃ es leaked, (LogCall.display eFlag nNewLine pFormat).Effect g g' es leaked ∧
          d'.streams = g'.logFile.stream ++ lost ∧ d'.blocks = leaked ++ d.blocks ∧
          d'.journal = d.journal ++ es) ∧ d'.mutex = m) d := by
  rw [ensures_ite]
  refine ⟨fun hwanted => ?_, fun hunwanted => ?_⟩
  · simp only [slogGetDate, ensures_bind, ensures_localtime, Prog.pure_eq, ensures_ret]
    refine ⟨⟨trivial, hm⟩, fun time => ?_⟩
    refine (logged_ensures (d := d.enter (.clock time)) hm hd
      ⟨pFormat, eFlag, time.date, nNewLine⟩).post ?_
    rintro _ _ ⟨f', es, leaked, hlogged, rfl, rfl⟩
    exact ⟨⟨rfl, _, leaked, .logged hwanted time hlogged, rfl, rfl, by simp [Desk.enter]⟩, hm⟩
  · refine ⟨⟨rfl, [], [], ?_, hd, rfl, by simp⟩, hm⟩
    exact .configured (.display eFlag nNewLine pFormat) (by rintro _ _ _ ⟨⟩; exact hunwanted)

lemma slogDisplay_ensures (hkept : DeskKept P g lost d) (eFlag : BitVec 32) (nNewLine : Bool)
    (pFormat : Text) :
    libc.Ensures (Guarded P) (slogDisplay g eFlag nNewLine pFormat)
      ((LogCall.display eFlag nNewLine pFormat).Leaves P g lost d) d := by
  refine locked_ensures _ id id (fun g' d' => g'.nTdSafe = g.nTdSafe ∧
    ∃ es leaked, (LogCall.display eFlag nNewLine pFormat).Effect g g' es leaked ∧
      d'.streams = g'.logFile.stream ++ lost ∧ d'.blocks = leaked ++ d.blocks ∧
      d'.journal = d.journal ++ es) hkept.mutex (fun _ _ h => h.1) (fun m b => ?_) ?_
  · exact display_ensures (d := { d with mutex := m, failed := b }) rfl hkept.streams _ _ _
  · rintro g' d' m b ⟨-, es, leaked, heffect, hstreams, hblocks, hjournal⟩ hm
    exact ⟨es, leaked, heffect, hstreams, hblocks, hjournal, hm⟩

/-- What logs nothing leaves the state that `LogCall.configure` says. -/
lemma configured_leaves (call : LogCall) (hcall : ∀ eFlag nNewLine pFormat,
    call ≠ .display eFlag nNewLine pFormat) {d' : Desk}
    (hstreams : d'.streams = (call.configure g).logFile.stream ++ (call.dropped g ++ lost))
    (hsame : d'.blocks = d.blocks ∧ d'.journal = d.journal)
    (hm : P → d'.mutex = (call.configure g).mutex) :
    call.Leaves P g lost d (call.configure g) d' :=
  ⟨[], [], .configured call fun e n p h => absurd h (hcall e n p), hstreams,
    by simpa using hsame.1, by simpa using hsame.2, hm⟩

/-- `slog_enable`, `slog_disable`, `slog_separator_set` and `slog_callback_set`. -/
lemma slogConfigure_ensures (hkept : DeskKept P g lost d) (change : SlogConfig → SlogConfig)
    (call : LogCall) (hcall : ∀ eFlag nNewLine pFormat, call ≠ .display eFlag nNewLine pFormat)
    (hdropped : call.dropped g = [])
    (hchange : call.configure g = { g with config := change g.config }) :
    libc.Ensures (Guarded P) (slogConfigure g change) (call.Leaves P g lost d) d := by
  refine locked_ensures (pure ()) (fun _ => { g with config := change g.config })
    (fun _ => { g with config := change g.config })
    (fun _ d' => d'.streams = d.streams ∧ d'.blocks = d.blocks ∧ d'.journal = d.journal)
    hkept.mutex (fun _ _ _ => rfl) (fun m b => ⟨⟨rfl, rfl, rfl⟩, rfl⟩) ?_
  rintro _ d' m b ⟨hstreams, hsame⟩ hm
  rw [← hchange] at hm ⊢
  refine configured_leaves call hcall ?_ hsame hm
  rw [hdropped, hchange, List.nil_append]
  exact hstreams.trans hkept.streams

/-- A call that changes nothing. -/
lemma unchanged_ensures {α : Type} (hkept : DeskKept P g lost d) (call : LogCall)
    (hcall : ∀ eFlag nNewLine pFormat, call ≠ .display eFlag nNewLine pFormat)
    (hdropped : call.dropped g = []) (hsame : call.configure g = g) (body : Stdio Unit) (r : α)
    (hbody : ∀ m b, libc.Ensures (Sheltered m) body
      (fun _ d' => d' = { d with mutex := m, failed := b }) { d with mutex := m, failed := b }) :
    libc.Ensures (Guarded P)
      (slogSyncLock g >>= fun _ => body >>= fun _ => slogSyncUnlock g >>= fun _ => pure r)
      (fun _ d' => call.Leaves P g lost d g d') d := by
  refine locked_ensures body (fun _ => g) (fun _ => r)
    (fun _ d' => d'.streams = d.streams ∧ d'.blocks = d.blocks ∧ d'.journal = d.journal)
    hkept.mutex (fun _ _ _ => rfl) (fun m b => (hbody m b).post ?_) ?_
  · rintro _ _ rfl
    exact ⟨⟨rfl, rfl, rfl⟩, rfl⟩
  · rintro _ d' m b ⟨hstreams, hrest⟩ hm
    have hleaves : call.Leaves P g lost d (call.configure g)
        { d' with mutex := m, failed := b } := by
      refine configured_leaves call hcall ?_ hrest (by rwa [hsame])
      rw [hdropped, hsame, List.nil_append]
      exact hstreams.trans hkept.streams
    rwa [hsame] at hleaves

lemma slogConfigGet_ensures (hkept : DeskKept P g lost d) :
    libc.Ensures (Guarded P) (slogConfigGet g)
      (fun _ d' => LogCall.configGet.Leaves P g lost d g d') d :=
  unchanged_ensures hkept .configGet (by rintro _ _ _ ⟨⟩) rfl rfl (pure ()) g.config
    fun _ _ => rfl

lemma slogGetFullPath_ensures (hkept : DeskKept P g lost d) (pFilePath nSize : Nat) :
    libc.Ensures (Guarded P) (slogGetFullPath g pFilePath nSize)
      (fun _ d' => (LogCall.getFullPath pFilePath nSize).Leaves P g lost d g d') d := by
  unfold slogGetFullPath
  rw [ensures_ite]
  refine ⟨fun _ => ?_, fun _ => ?_⟩
  · exact configured_leaves (.getFullPath pFilePath nSize) (by rintro _ _ _ ⟨⟩) hkept.streams
      ⟨rfl, rfl⟩ hkept.mutex
  · refine unchanged_ensures hkept (.getFullPath pFilePath nSize) (by rintro _ _ _ ⟨⟩) rfl rfl
      (write pFilePath (g.logFile.sFilePath.text.take (nSize - 1) ++ ['\x00']) >>= fun _ =>
        write (pFilePath + g.logFile.sFilePath.text.length) ['\x00'])
      g.logFile.sFilePath.text.length fun m b => ?_
    simp only [ensures_bind, ensures_write]
    exact ⟨⟨trivial, rfl⟩, ⟨trivial, rfl⟩, trivial⟩

lemma slogConfigSet_ensures (hkept : DeskKept P g lost d) (cfg : SlogConfig) :
    libc.Ensures (Guarded P) (slogConfigSet g cfg)
      ((LogCall.configSet cfg).Leaves P g lost d) d := by
  refine locked_ensures _ (fun file => { g with config := cfg, logFile := file })
    (fun file => { g with config := cfg, logFile := file })
    (fun file d' => file = ((LogCall.configSet cfg).configure g).logFile ∧
      d'.streams = file.stream ++ lost ∧ d'.blocks = d.blocks ∧ d'.journal = d.journal)
    hkept.mutex (fun _ _ _ => rfl) (fun m b => ?_) ?_
  · by_cases hclose : ¬ cfg.nToFile ∨ g.config.sFilePath ≠ cfg.sFilePath ∨
        g.config.sFileName ≠ cfg.sFileName
    · simp only [LogCall.configure, if_pos hclose, ensures_bind]
      refine (slogCloseFile_ensures (d := { d with mutex := m, failed := b }) rfl
        hkept.streams).post ?_
      rintro _ _ ⟨rfl, rfl⟩
      exact ⟨⟨rfl, rfl, rfl, rfl⟩, rfl⟩
    · simp only [LogCall.configure, if_neg hclose]
      exact ⟨⟨rfl, hkept.streams, rfl, rfl⟩, rfl⟩
  · rintro _ d' m b ⟨rfl, hstreams, hrest⟩ hm
    exact configured_leaves (.configSet cfg) (by rintro _ _ _ ⟨⟩) hstreams hrest hm

/-- `slog_init` sets the mutex up while there is none, if the logger is used in order. -/
lemma slogInit_ensures (hkept : DeskKept P g lost d) (hidle : P → g.nTdSafe = false)
    (pName : Option Text) (nFlags : BitVec 16) (nTdSafe : Bool) :
    libc.Ensures (Guarded P) (slogInit g pName nFlags nTdSafe)
      ((LogCall.init pName nFlags nTdSafe).Leaves P g lost d) d := by
  unfold slogInit
  rw [ensures_bind]
  refine slogSyncInit_ensures (fun hP => ?_) fun m b hm => ?_
  · rw [hkept.mutex hP, Slog.mutex, hidle hP]
    rfl
  · refine locked_ensures (pure ()) (fun _ => (LogCall.init pName nFlags nTdSafe).configure g)
      (fun _ => (LogCall.init pName nFlags nTdSafe).configure g)
      (fun _ d' => d'.streams = d.streams ∧ d'.blocks = d.blocks ∧ d'.journal = d.journal)
      hm (fun _ _ _ => rfl) (fun m b => ⟨⟨rfl, rfl, rfl⟩, rfl⟩) ?_
    rintro _ d' m b ⟨hstreams, hrest⟩ hm'
    refine configured_leaves (.init pName nFlags nTdSafe) (by rintro _ _ _ ⟨⟩) ?_ hrest hm'
    exact hstreams.trans hkept.streams

lemma slogDestroy_ensures (hkept : DeskKept P g lost d) :
    libc.Ensures (Guarded P) (slogDestroy g) (LogCall.destroy.Leaves P g lost d) d := by
  have hclosed : libc.Ensures (Guarded P)
      (slogSyncLock g >>= fun _ => slogCloseFile g.logFile >>= fun file =>
        slogSyncUnlock { g with config := SlogConfig.zero, logFile := file } >>= fun _ =>
          pure ({ g with config := SlogConfig.zero, logFile := file } : Slog))
      (fun g' d' => g' = ⟨SlogConfig.zero, { g.logFile with pHandle := 0 }, g.nTdSafe⟩ ∧
        d'.streams = lost ∧ d'.blocks = d.blocks ∧ d'.journal = d.journal ∧
        (P → d'.mutex = g.mutex)) d := by
    refine locked_ensures _ (fun file => ⟨SlogConfig.zero, file, g.nTdSafe⟩)
      (fun file => (⟨SlogConfig.zero, file, g.nTdSafe⟩ : Slog))
      (fun file d' => file = { g.logFile with pHandle := 0 } ∧
        d'.streams = lost ∧ d'.blocks = d.blocks ∧ d'.journal = d.journal)
      hkept.mutex (fun _ _ _ => rfl) (fun m b => ?_) ?_
    · refine (slogCloseFile_ensures (d := { d with mutex := m, failed := b }) rfl
        hkept.streams).post ?_
      rintro _ _ ⟨rfl, rfl⟩
      exact ⟨⟨rfl, rfl, rfl, rfl⟩, rfl⟩
    · rintro _ d' m b ⟨rfl, hstreams, hblocks, hjournal⟩ hm
      exact ⟨rfl, hstreams, hblocks, hjournal, hm⟩
  have hwhole : slogDestroy g = (slogSyncLock g >>= fun _ => slogCloseFile g.logFile >>= fun file =>
        slogSyncUnlock { g with config := SlogConfig.zero, logFile := file } >>= fun _ =>
          pure ({ g with config := SlogConfig.zero, logFile := file } : Slog)) >>=
      slogSyncDestroy := by
    simp only [slogDestroy, Prog.bind_assoc, Prog.pure_eq, Prog.ret_bind]
  rw [hwhole, ensures_bind]
  refine hclosed.post ?_
  rintro _ d' ⟨rfl, hstreams, hblocks, hjournal, hm⟩
  refine Ensures.post (slogSyncDestroy_ensures
    (g := ⟨SlogConfig.zero, { g.logFile with pHandle := 0 }, g.nTdSafe⟩) hm) ?_
  rintro _ _ ⟨rfl, m, b, hnone, rfl⟩
  exact configured_leaves .destroy (by rintro _ _ _ ⟨⟩) hstreams ⟨hblocks, hjournal⟩ hnone

/-- **Every public call keeps to its effect.** -/
theorem LogCall.ensures {call : LogCall} (hkept : DeskKept P g lost d)
    (hinit : P → ∀ pName nFlags nTdSafe, call = .init pName nFlags nTdSafe → g.nTdSafe = false) :
    libc.Ensures (Guarded P) (call.run g) (call.Leaves P g lost d) d := by
  cases call with
  | init pName nFlags nTdSafe =>
    exact slogInit_ensures hkept (fun hP => hinit hP _ _ _ rfl) pName nFlags nTdSafe
  | display eFlag nNewLine pFormat => exact slogDisplay_ensures hkept eFlag nNewLine pFormat
  | configGet => exact ensures_bind.mpr (slogConfigGet_ensures hkept)
  | configSet cfg => exact slogConfigSet_ensures hkept cfg
  | enable eFlag =>
    rw [run, slogEnable]
    refine slogConfigure_ensures hkept _ (.enable eFlag) ?_ rfl ?_
    · rintro _ _ _ ⟨⟩
    · rfl
  | disable eFlag =>
    rw [run, slogDisable]
    refine slogConfigure_ensures hkept _ (.disable eFlag) ?_ rfl ?_
    · rintro _ _ _ ⟨⟩
    · rfl
  | separatorSet format =>
    rw [run, slogSeparatorSet]
    refine slogConfigure_ensures hkept _ (.separatorSet format) ?_ rfl ?_
    · rintro _ _ _ ⟨⟩
    · rfl
  | callbackSet callback context =>
    rw [run, slogCallbackSet]
    refine slogConfigure_ensures hkept _ (.callbackSet callback context) ?_ rfl ?_
    · rintro _ _ _ ⟨⟩
    · rfl
  | getFullPath pFilePath nSize =>
    exact ensures_bind.mpr (slogGetFullPath_ensures hkept pFilePath nSize)
  | destroy => exact slogDestroy_ensures hkept

end QspiTool
