import QspiTool.Log.Rules

/-!
# What a call of the logger can do

The functions of `slog.c` as relations between the state before and after them and the entries they
leave in the journal.  `Filed` says what becomes of a line for the file, `Told` what the callback
gets, `Reported` how a message is shown, and `LogCall.Effect` what a public call does; `LogHistory`
is a sequence of them.  Nothing here mentions a stream, a block or the mutex: that the functions
of `Slog.lean` do no more is proved in `Log/Functions.lean`.
-/

namespace QspiTool

open Interaction CText

/-! ## The text of a line -/

/-- The date as the configuration wants it. -/
def dateText (cfg : SlogConfig) (date : SlogDate) : Text :=
  let time := decimal 2 date.nHour.toNat ++ ":".toList ++ decimal 2 date.nMin.toNat ++
    ":".toList ++ decimal 2 date.nSec.toNat ++ ".".toList ++ decimal 3 date.nUsec.toNat ++
    " ".toList
  match cfg.eDateControl with
  | .timeOnly => time
  | .dateFull => decimal 4 date.nYear.toNat ++ ".".toList ++ decimal 2 date.nMonth.toNat ++
      ".".toList ++ decimal 2 date.nDay.toNat ++ "-".toList ++ time
  | .disable => []

/-- The thread as the configuration wants it. -/
def tidText (cfg : SlogConfig) (tid : BitVec 64) : Text :=
  if cfg.nTraceTid then "(".toList ++ decimal 0 tid.toNat ++ ") ".toList else []

/-- The tag of a level. -/
def tagText (cfg : SlogConfig) (eFlag : BitVec 32) : Text :=
  match slogGetTag eFlag with
  | none => slogGetIndent cfg eFlag
  | some tag =>
      if cfg.eColorFormat ≠ .tag then
        "<".toList ++ tag ++ ">".toList ++ slogGetIndent cfg eFlag
      else slogGetColor eFlag ++ "<".toList ++ tag ++ ">".toList ++ slogColorReset ++
        slogGetIndent cfg eFlag

/-- What stands before the message. -/
def infoText (cfg : SlogConfig) (ctx : SlogContext) (tid : BitVec 64) : Text :=
  (if cfg.eColorFormat = .full then slogGetColor ctx.eFlag else []) ++ tidText cfg tid ++
    dateText cfg ctx.date ++ tagText cfg ctx.eFlag

/-- What is shown of a message: on the stack there is room for `SLOG_MESSAGE_MAX`. -/
def shownText (cfg : SlogConfig) (message : Text) : Text :=
  if cfg.nUseHeap then message else message.take (slogMessageMax - 1)

/-- The line of a message. -/
def lineText (cfg : SlogConfig) (ctx : SlogContext) (tid : BitVec 64) : Text :=
  let info := infoText cfg ctx tid
  slogLine cfg ctx info info.length (some (shownText cfg ctx.pFormat))

/-- The message of a file that cannot be opened. -/
def openError (path error : Text) : Text :=
  slogLocation 291 "slog_open_file".toList ++ ": [ERROR] Failed to open file: ".toList ++
    path ++ " (".toList ++ error ++ ")\n".toList

/-- The message of a heap that is full. -/
def heapError (e : Int) : Text :=
  "<src/slog.c:481> ".toList ++ slogColorRed ++ "<error>".toList ++ slogColorReset ++
    " slog_display_heap: Can not allocate memory for input: errno(".toList ++ signed e ++
    ")\n".toList

/-- The date of a reading of the clock. -/
def LocalTime.date (t : LocalTime) : SlogDate where
  nYear := BitVec.ofInt 16 (t.tmYear + 1900)
  nMonth := BitVec.ofNat 8 (t.tmMon + 1)
  nDay := BitVec.ofNat 8 t.tmMday
  nHour := BitVec.ofNat 8 t.tmHour
  nMin := BitVec.ofNat 8 t.tmMin
  nSec := BitVec.ofNat 8 t.tmSec
  nUsec := BitVec.ofNat 16 (t.tvUsec / 1000)

/-! ## The file -/

/-- The path that a file opened now gets. -/
def openPath (cfg : SlogConfig) (f : SlogFile) (date : SlogDate) : CStr slogFilePathMax :=
  if cfg.nRotate ∨ f.sFilePath.text = [] then CStr.snprintf _ (slogFileName cfg date)
  else f.sFilePath

/-- The line goes to the stream that is open. -/
abbrev SlogFile.Keeps (f : SlogFile) (cfg : SlogConfig) (date : SlogDate) : Prop :=
  f.pHandle ≠ 0 ∧ ¬ (f.nCurrDay ≠ date.nDay ∧ cfg.nRotate)

/-- The file once the line is written. -/
def SlogFile.written (f : SlogFile) (cfg : SlogConfig) : SlogFile :=
  if cfg.nKeepOpen then f else { f with pHandle := 0 }

/-- What becomes of a line for the file. -/
inductive Filed (cfg : SlogConfig) (f : SlogFile) (date : SlogDate) (line : Text) :
    SlogFile → List Entry → Prop
  | kept (h : f.Keeps cfg date) :
      Filed cfg f date line (f.written cfg) [.line f.sFilePath.text line]
  | opened (h : ¬ f.Keeps cfg date) (stream : Nat) (hstream : stream ≠ 0) :
      Filed cfg f date line (SlogFile.written ⟨openPath cfg f date, date.nDay, stream⟩ cfg)
        [.line (openPath cfg f date).text line]
  | refused (h : ¬ f.Keeps cfg date) (error : Text) :
      Filed cfg f date line ⟨openPath cfg f date, f.nCurrDay, 0⟩
        [.refused (openPath cfg f date).text, .error error,
          .screen (openError (openPath cfg f date).text error)]

/-! ## A message -/

/-- What the callback gets, its verdict, and the block that is never freed. -/
inductive Told (cfg : SlogConfig) (eFlag : BitVec 32) (line : Text) :
    Int → List Entry → List Nat → Prop
  | none (h : cfg.logCallback = 0) : Told cfg eFlag line 1 [] []
  | noMemory (h : cfg.logCallback ≠ 0) : Told cfg eFlag line 1 [.noMemory line] []
  | empty (h : cfg.logCallback ≠ 0) (hline : line = []) (block : Nat) :
      Told cfg eFlag line 1 [] [block]
  | answered (h : cfg.logCallback ≠ 0) (hline : line ≠ []) (verdict : Int) :
      Told cfg eFlag line verdict
        [.told cfg.logCallback cfg.pCallbackCtx line eFlag verdict] []

/-- The screen gets a line that the callback has not kept back. -/
def onScreen (cfg : SlogConfig) (verdict : Int) (line : Text) : List Entry :=
  if cfg.nToScreen ∧ 0 < verdict then [.screen line] else []

/-- How a line is shown: first to the callback, then on the screen, then in the file. -/
def Shown (cfg : SlogConfig) (ctx : SlogContext) (line : Text) (f f' : SlogFile)
    (es : List Entry) (leaked : List Nat) : Prop :=
  ∃ verdict told filed, es = told ++ onScreen cfg verdict line ++ filed ∧
    Told cfg ctx.eFlag line verdict told leaked ∧
    (if ¬ cfg.nToFile ∨ verdict < 0 then f' = f ∧ filed = []
      else Filed cfg f ctx.date line f' filed)

/-- How a message is logged. -/
inductive Reported (cfg : SlogConfig) (ctx : SlogContext) (f : SlogFile) :
    SlogFile → List Entry → List Nat → Prop
  | noMemory (h : cfg.nUseHeap) (e : Int) :
      Reported cfg ctx f f [.noMemory ctx.pFormat, .screen (heapError e)] []
  | shown (tid : BitVec 64) {f' : SlogFile} {es : List Entry} {leaked : List Nat}
      (h : Shown cfg ctx (lineText cfg ctx tid) f f' es leaked) : Reported cfg ctx f f' es leaked

/-! ## A call -/

/-- What a call that logs nothing makes of the state. -/
def LogCall.configure (g : Slog) : LogCall → Slog
  | init pName nFlags nTdSafe =>
      ⟨SlogConfig.initial pName nFlags, ⟨CStr.empty _, 0, 0⟩, nTdSafe⟩
  | configSet cfg =>
      { g with
        config := cfg
        logFile :=
          if ¬ cfg.nToFile ∨ g.config.sFilePath ≠ cfg.sFilePath ∨
              g.config.sFileName ≠ cfg.sFileName
          then ⟨CStr.empty _, g.logFile.nCurrDay, 0⟩ else g.logFile }
  | enable eFlag =>
      { g with config := { g.config with nFlags := enabledFlags g.config.nFlags eFlag } }
  | disable eFlag =>
      { g with config := { g.config with nFlags := disabledFlags g.config.nFlags eFlag } }
  | separatorSet format =>
      { g with config := { g.config with sSeparator := CStr.snprintf _ (separatorText format) } }
  | callbackSet callback context =>
      { g with config := { g.config with pCallbackCtx := context, logCallback := callback } }
  | destroy => ⟨SlogConfig.zero, { g.logFile with pHandle := 0 }, false⟩
  | display _ _ _ | configGet | getFullPath _ _ => g

/-- What a call does: the state after it, its entries, and the blocks that are never freed. -/
inductive LogCall.Effect (g : Slog) : LogCall → Slog → List Entry → List Nat → Prop
  | configured (call : LogCall)
      (h : ∀ eFlag nNewLine pFormat, call = display eFlag nNewLine pFormat →
        ¬ SlogWanted g.config eFlag) :
      Effect g call (call.configure g) [] []
  | logged {eFlag : BitVec 32} {nNewLine : Bool} {pFormat : Text}
      (h : SlogWanted g.config eFlag) (time : LocalTime) {f' : SlogFile} {es : List Entry}
      {leaked : List Nat}
      (hlogged : Reported g.config ⟨pFormat, eFlag, time.date, nNewLine⟩ g.logFile f' es leaked) :
      Effect g (display eFlag nNewLine pFormat) { g with logFile := f' } (.clock time :: es) leaked

/-- What several calls do. -/
inductive LogHistory : Slog → List LogCall → Slog → List Entry → List Nat → Prop
  | nil (g : Slog) : LogHistory g [] g [] []
  | cons {g g₁ g₂ : Slog} {call : LogCall} {calls : List LogCall} {es es' : List Entry}
      {leaked leaked' : List Nat} (h : call.Effect g g₁ es leaked)
      (hrest : LogHistory g₁ calls g₂ es' leaked') :
      LogHistory g (call :: calls) g₂ (es ++ es') (leaked' ++ leaked)

end QspiTool
