import QspiTool.Log.Libc

/-!
# The logger

`slog.c` over the calls of the C library, for Linux.  The state `g_slog` is a value that each
function takes and gives back.  A format with its arguments is the text it makes; the arguments of
`slog_display` are already formatted, and a format that cannot be encoded is left out except where
`slog_separator_set` looks at the result of `vsnprintf`.

A flag that is only tested against zero is a `Bool`.  A log level is the number the caller gives,
since `slog_enable` and `slog_disable` take any set of levels.
-/

namespace QspiTool

open Interaction CText

/-! ## Texts and limits -/

def slogColorRed : Text := "\x1B[31m".toList
def slogColorGreen : Text := "\x1B[32m".toList
def slogColorYellow : Text := "\x1B[33m".toList
def slogColorBlue : Text := "\x1B[34m".toList
def slogColorMagenta : Text := "\x1B[35m".toList
def slogColorCyan : Text := "\x1B[36m".toList
def slogColorReset : Text := "\x1B[0m".toList

abbrev slogMessageMax : Nat := 8196
abbrev slogPathMax : Nat := 2048
abbrev slogInfoMax : Nat := 512
abbrev slogNameMax : Nat := 256
abbrev slogDateMax : Nat := 64
abbrev slogTagMax : Nat := 32

/-- `SLOG_FILE_PATH_MAX`. -/
abbrev slogFilePathMax : Nat := slogPathMax + slogNameMax + slogDateMax

instance : NeZero slogNameMax := ⟨by decide⟩
instance : NeZero slogFilePathMax := ⟨by decide⟩

def slogNameDefault : Text := "slog".toList
def slogNewline : Text := "\n".toList
def slogIndent : Text := "       ".toList
def slogSpace : Text := " ".toList
def slogEmpty : Text := []

/-- `<__FILE__:__LINE__> __func__`, as the messages of the logger begin. -/
def slogLocation (line : Nat) (function : Text) : Text :=
  "<src/slog.c:".toList ++ decimal 0 line ++ "> ".toList ++ function

/-! ## Levels -/

abbrev slogNotag : BitVec 32 := 1#32 <<< 0
abbrev slogNote : BitVec 32 := 1#32 <<< 1
abbrev slogInfo : BitVec 32 := 1#32 <<< 2
abbrev slogWarn : BitVec 32 := 1#32 <<< 3
abbrev slogDebug : BitVec 32 := 1#32 <<< 4
abbrev slogTrace : BitVec 32 := 1#32 <<< 5
abbrev slogError : BitVec 32 := 1#32 <<< 6
abbrev slogFatal : BitVec 32 := 1#32 <<< 7

/-- `SLOG_FLAGS_ALL`. -/
abbrev slogFlagsAll : BitVec 32 := 255#32

/-- `SLOG_FLAGS_CHECK`. -/
abbrev SlogFlagsCheck (c : BitVec 16) (f : BitVec 32) : Prop := c.setWidth 32 &&& f = f

/-! ## The state -/

inductive SlogColoring
  | disable
  | tag
  | full
  deriving DecidableEq

inductive SlogDateCtrl
  | disable
  | timeOnly
  | dateFull
  deriving DecidableEq

/-- `slog_config_t`. -/
structure SlogConfig where
  eDateControl : SlogDateCtrl
  eColorFormat : SlogColoring
  logCallback : Nat
  pCallbackCtx : Nat
  nKeepOpen : Bool
  nTraceTid : Bool
  nToScreen : Bool
  nUseHeap : Bool
  nToFile : Bool
  nIndent : Bool
  nRotate : Bool
  nFlush : Bool
  nFlags : BitVec 16
  sSeparator : CStr slogNameMax
  sFileName : CStr slogNameMax
  sFilePath : CStr slogPathMax
  deriving DecidableEq

/-- `memset(&config, 0, sizeof(config))`. -/
def SlogConfig.zero : SlogConfig where
  eDateControl := .disable
  eColorFormat := .disable
  logCallback := 0
  pCallbackCtx := 0
  nKeepOpen := false
  nTraceTid := false
  nToScreen := false
  nUseHeap := false
  nToFile := false
  nIndent := false
  nRotate := false
  nFlush := false
  nFlags := 0
  sSeparator := CStr.empty _
  sFileName := CStr.empty _
  sFilePath := CStr.empty _

/-- `slog_date_t`. -/
structure SlogDate where
  nYear : BitVec 16
  nMonth : BitVec 8
  nDay : BitVec 8
  nHour : BitVec 8
  nMin : BitVec 8
  nSec : BitVec 8
  nUsec : BitVec 16
  deriving DecidableEq

/-- `slog_file_t`. -/
structure SlogFile where
  sFilePath : CStr slogFilePathMax
  nCurrDay : BitVec 8
  pHandle : Nat
  deriving DecidableEq

/-- `slog_t` without its mutex. -/
structure Slog where
  config : SlogConfig
  logFile : SlogFile
  nTdSafe : Bool
  deriving DecidableEq

/-- `g_slog` of a process that has just started. -/
def Slog.zero : Slog := ⟨SlogConfig.zero, ⟨CStr.empty _, 0, 0⟩, false⟩

/-- `slog_context_t`, with the arguments of the format. -/
structure SlogContext where
  pFormat : Text
  eFlag : BitVec 32
  date : SlogDate
  nNewLine : Bool
  deriving DecidableEq

/-! ## Calls of the C library -/

namespace Stdio

def pthread (call : Pthread) : Stdio Int := Prog.op (S := stdio) (.pthread call)
def errno : Stdio Int := Prog.op (S := stdio) .errno
def strerror : Stdio Text := Prog.op (S := stdio) .strerror
def localtime : Stdio LocalTime := Prog.op (S := stdio) .localtime
def gettid : Stdio (BitVec 64) := Prog.op (S := stdio) .gettid
def asprintf (text : Text) : Stdio Nat := Prog.op (S := stdio) (.asprintf text)
def free (block : Nat) : Stdio Unit := Prog.op (S := stdio) (.free block)
def callback (function context : Nat) (log : Text) (eFlag : BitVec 32) : Stdio Int :=
  Prog.op (S := stdio) (.callback function context log eFlag)
def printf (text : Text) : Stdio Unit := Prog.op (S := stdio) (.printf text)
def flushStdout : Stdio Unit := Prog.op (S := stdio) .flushStdout
def fopen (path : Text) : Stdio Nat := Prog.op (S := stdio) (.fopen path)
def fclose (stream : Nat) : Stdio Unit := Prog.op (S := stdio) (.fclose stream)
def fprintf (stream : Nat) (text : Text) : Stdio Unit :=
  Prog.op (S := stdio) (.fprintf stream text)
def fflush (stream : Nat) : Stdio Unit := Prog.op (S := stdio) (.fflush stream)
def write (a : Nat) (bytes : Text) : Stdio Unit := Prog.op (S := stdio) (.write a bytes)

/-- `exit(EXIT_FAILURE)`: nothing more is done. -/
def exitFailure : Stdio Unit := .abort

/-- `if (c) p;` -/
def whenever (c : Prop) [Decidable c] (p : Stdio Unit) : Stdio Unit := if c then p else .ret ()

end Stdio

open Stdio

/-! ## The mutex -/

/-- The message of a call on the mutex that has failed, and the end of the process. -/
def slogSyncFailed (line : Nat) (function verb : Text) : Stdio Unit := do
  let e ← errno
  printf (slogLocation line function ++ ": [ERROR] Can not ".toList ++ verb ++
    " mutex: ".toList ++ signed e ++ "\n".toList)
  exitFailure

/-- `slog_sync_init`. -/
def slogSyncInit (pSlog : Slog) : Stdio Unit :=
  whenever pSlog.nTdSafe do
    let failed := slogSyncFailed 100 "slog_sync_init".toList "initialize".toList
    let r ← pthread .mutexattrInit
    if r ≠ 0 then failed else do
      let r ← pthread .mutexattrSettype
      if r ≠ 0 then failed else do
        let r ← pthread .mutexInit
        if r ≠ 0 then failed else do
          let r ← pthread .mutexattrDestroy
          if r ≠ 0 then failed else pure ()

/-- `slog_sync_destroy`. -/
def slogSyncDestroy (pSlog : Slog) : Stdio Slog :=
  if pSlog.nTdSafe then do
    let _ ← pthread .mutexDestroy
    pure { pSlog with nTdSafe := false }
  else pure pSlog

/-- `slog_sync_lock`. -/
def slogSyncLock (pSlog : Slog) : Stdio Unit :=
  whenever pSlog.nTdSafe do
    let r ← pthread .mutexLock
    whenever (r ≠ 0) (slogSyncFailed 130 "slog_sync_lock".toList "lock".toList)

/-- `slog_sync_unlock`. -/
def slogSyncUnlock (pSlog : Slog) : Stdio Unit :=
  whenever pSlog.nTdSafe do
    let r ← pthread .mutexUnlock
    whenever (r ≠ 0) (slogSyncFailed 147 "slog_sync_unlock".toList "unlock".toList)

/-! ## The parts of a line -/

/-- `slog_get_indent`. -/
def slogGetIndent (cfg : SlogConfig) (eFlag : BitVec 32) : Text :=
  if ¬ cfg.nIndent then slogEmpty
  else if eFlag = slogNotag then slogIndent
  else if eFlag = slogNote ∨ eFlag = slogInfo ∨ eFlag = slogWarn then slogSpace
  else slogEmpty

/-- `slog_get_tag`. -/
def slogGetTag (eFlag : BitVec 32) : Option Text :=
  if eFlag = slogNote then some "note".toList
  else if eFlag = slogInfo then some "info".toList
  else if eFlag = slogWarn then some "warn".toList
  else if eFlag = slogDebug then some "debug".toList
  else if eFlag = slogError then some "error".toList
  else if eFlag = slogTrace then some "trace".toList
  else if eFlag = slogFatal then some "fatal".toList
  else none

/-- `slog_get_color`. -/
def slogGetColor (eFlag : BitVec 32) : Text :=
  if eFlag = slogNotag ∨ eFlag = slogNote then slogEmpty
  else if eFlag = slogInfo then slogColorGreen
  else if eFlag = slogWarn then slogColorYellow
  else if eFlag = slogDebug then slogColorBlue
  else if eFlag = slogError then slogColorRed
  else if eFlag = slogTrace then slogColorCyan
  else if eFlag = slogFatal then slogColorMagenta
  else slogEmpty

/-- `slog_create_tag`. -/
def slogCreateTag (cfg : SlogConfig) (eFlag : BitVec 32) (pColor : Text) : CStr slogTagMax :=
  let indent := slogGetIndent cfg eFlag
  match slogGetTag eFlag with
  | none => CStr.snprintf _ indent
  | some tag =>
      if cfg.eColorFormat ≠ .tag then
        CStr.snprintf _ ("<".toList ++ tag ++ ">".toList ++ indent)
      else
        CStr.snprintf _
          (pColor ++ "<".toList ++ tag ++ ">".toList ++ slogColorReset ++ indent)

/-- `slog_create_tid`. -/
def slogCreateTid (nTraceTid : Bool) : Stdio (CStr slogTagMax) :=
  if ¬ nTraceTid then pure (CStr.empty _)
  else do
    let tid ← gettid
    pure (CStr.snprintf _ ("(".toList ++ decimal 0 tid.toNat ++ ") ".toList))

/-- What `slog_create_info` makes of the date. -/
def slogDateText (cfg : SlogConfig) (date : SlogDate) : CStr (slogDateMax + slogNameMax) :=
  let time := decimal 2 date.nHour.toNat ++ ":".toList ++ decimal 2 date.nMin.toNat ++
    ":".toList ++ decimal 2 date.nSec.toNat ++ ".".toList ++ decimal 3 date.nUsec.toNat ++
    " ".toList
  match cfg.eDateControl with
  | .timeOnly => CStr.snprintf _ time
  | .dateFull =>
      CStr.snprintf _ (decimal 4 date.nYear.toNat ++ ".".toList ++ decimal 2 date.nMonth.toNat ++
        ".".toList ++ decimal 2 date.nDay.toNat ++ "-".toList ++ time)
  | .disable => CStr.empty _

/-- `slog_create_info`: the text, and the length it would have without the limit. -/
def slogCreateInfo (cfg : SlogConfig) (ctx : SlogContext) : Stdio (CStr slogInfoMax × Nat) := do
  let date := slogDateText cfg ctx.date
  let colorCode := slogGetColor ctx.eFlag
  let color := if cfg.eColorFormat = .full then colorCode else slogEmpty
  let tid ← slogCreateTid cfg.nTraceTid
  let tag := slogCreateTag cfg ctx.eFlag colorCode
  let info := color ++ tid.text ++ date.text ++ tag.text
  pure (CStr.snprintf _ info, info.length)

/-! ## The log file -/

/-- `slog_close_file`. -/
def slogCloseFile (pFile : SlogFile) : Stdio SlogFile :=
  if pFile.pHandle ≠ 0 then do
    fclose pFile.pHandle
    pure { pFile with pHandle := 0 }
  else pure pFile

/-- The path that `slog_open_file` makes: `%s/%s-%04d-%02d-%02d.log`. -/
def slogFileName (cfg : SlogConfig) (date : SlogDate) : Text :=
  cfg.sFilePath.text ++ "/".toList ++ cfg.sFileName.text ++ "-".toList ++
    (decimal 4 date.nYear.toNat ++ "-".toList ++ decimal 2 date.nMonth.toNat ++ "-".toList ++
      decimal 2 date.nDay.toNat ++ ".log".toList)

/-- `slog_open_file`. -/
def slogOpenFile (pFile : SlogFile) (cfg : SlogConfig) (date : SlogDate) :
    Stdio (SlogFile × Bool) := do
  let pFile ← slogCloseFile pFile
  let pFile :=
    if cfg.nRotate ∨ pFile.sFilePath.text = [] then
      { pFile with sFilePath := CStr.snprintf _ (slogFileName cfg date) }
    else pFile
  let handle ← fopen pFile.sFilePath.text
  let pFile := { pFile with pHandle := handle }
  if pFile.pHandle = 0 then do
    let error ← strerror
    printf (slogLocation 291 "slog_open_file".toList ++ ": [ERROR] Failed to open file: ".toList ++
      pFile.sFilePath.text ++ " (".toList ++ error ++ ")\n".toList)
    pure (pFile, false)
  else pure ({ pFile with nCurrDay := date.nDay }, true)

/-! ## Displaying a message -/

/-- `slog_get_date`. -/
def slogGetDate : Stdio SlogDate := do
  let t ← localtime
  pure {
    nYear := BitVec.ofInt 16 (t.tmYear + 1900)
    nMonth := BitVec.ofNat 8 (t.tmMon + 1)
    nDay := BitVec.ofNat 8 t.tmMday
    nHour := BitVec.ofNat 8 t.tmHour
    nMin := BitVec.ofNat 8 t.tmMin
    nSec := BitVec.ofNat 8 t.tmSec
    nUsec := BitVec.ofNat 16 (t.tvUsec / 1000) }

/-- The text of a line: `%s%s%s%s%s`. -/
def slogLine (cfg : SlogConfig) (ctx : SlogContext) (pInfo : Text) (nInfoLen : Nat)
    (pInput : Option Text) : Text :=
  let separator := if 0 < nInfoLen then cfg.sSeparator.text else slogEmpty
  let newLine := if ctx.nNewLine then slogNewline else slogEmpty
  let message := pInput.getD slogEmpty
  let reset := if cfg.eColorFormat = .full then slogColorReset else slogEmpty
  pInfo ++ separator ++ message ++ reset ++ newLine

/-- The callback of `slog_display_message`, and its verdict; `1` where it is not called. -/
def slogCallback (cfg : SlogConfig) (ctx : SlogContext) (line : Text) : Stdio Int :=
  if cfg.logCallback ≠ 0 then do
    let log ← asprintf line
    if log ≠ 0 ∧ 0 < line.length then do
      let verdict ← callback cfg.logCallback cfg.pCallbackCtx line ctx.eFlag
      free log
      pure verdict
    else pure 1
  else pure 1

/-- `slog_display_message` behind the check of `nToFile`: the line goes to the file. -/
def slogToFile (cfg : SlogConfig) (pFile : SlogFile) (date : SlogDate) (line : Text) :
    Stdio SlogFile := do
  let pFile ←
    (if pFile.nCurrDay ≠ date.nDay ∧ cfg.nRotate then slogCloseFile pFile else pure pFile)
  let (pFile, opened) ←
    (if pFile.pHandle = 0 then slogOpenFile pFile cfg date else pure (pFile, true))
  if ¬ opened then pure pFile
  else do
    fprintf pFile.pHandle line
    whenever cfg.nFlush (fflush pFile.pHandle)
    if ¬ cfg.nKeepOpen then slogCloseFile pFile else pure pFile

/-- `slog_display_message`. -/
def slogDisplayMessage (g : Slog) (ctx : SlogContext) (pInfo : Text) (nInfoLen : Nat)
    (pInput : Option Text) : Stdio Slog := do
  let cfg := g.config
  let line := slogLine cfg ctx pInfo nInfoLen pInput
  let nCbVal ← slogCallback cfg ctx line
  whenever (cfg.nToScreen ∧ 0 < nCbVal) do
    printf line
    whenever cfg.nFlush flushStdout
  if ¬ cfg.nToFile ∨ nCbVal < 0 then pure g
  else do
    let file ← slogToFile cfg g.logFile ctx.date line
    pure { g with logFile := file }

/-- `slog_display_heap`. -/
def slogDisplayHeap (g : Slog) (ctx : SlogContext) : Stdio Slog := do
  let message ← asprintf ctx.pFormat
  if message = 0 then do
    let e ← errno
    printf ("<src/slog.c:481> ".toList ++ slogColorRed ++ "<error>".toList ++ slogColorReset ++
      " slog_display_heap: Can not allocate memory for input: errno(".toList ++ signed e ++
      ")\n".toList)
    pure g
  else do
    let (info, nLength) ← slogCreateInfo g.config ctx
    let g ← slogDisplayMessage g ctx info.text nLength (some ctx.pFormat)
    free message
    pure g

/-- `slog_display_stack`. -/
def slogDisplayStack (g : Slog) (ctx : SlogContext) : Stdio Slog := do
  let message := CStr.snprintf slogMessageMax ctx.pFormat
  let (info, nLength) ← slogCreateInfo g.config ctx
  slogDisplayMessage g ctx info.text nLength (some message.text)

/-- The test of `slog_display`: the level is on, and there is somewhere to log to. -/
abbrev SlogWanted (cfg : SlogConfig) (eFlag : BitVec 32) : Prop :=
  SlogFlagsCheck cfg.nFlags eFlag ∧ (cfg.logCallback ≠ 0 ∨ cfg.nToScreen ∨ cfg.nToFile)

/-- `slog_display`. -/
def slogDisplay (g : Slog) (eFlag : BitVec 32) (nNewLine : Bool) (pFormat : Text) :
    Stdio Slog := do
  slogSyncLock g
  let g ←
    (if SlogWanted g.config eFlag then do
      let date ← slogGetDate
      let ctx : SlogContext := ⟨pFormat, eFlag, date, nNewLine⟩
      if g.config.nUseHeap then slogDisplayHeap g ctx else slogDisplayStack g ctx
    else pure g)
  slogSyncUnlock g
  pure g

/-! ## The configuration -/

/-- A call that only changes the configuration, under the mutex. -/
def slogConfigure (g : Slog) (change : SlogConfig → SlogConfig) : Stdio Slog := do
  slogSyncLock g
  let g := { g with config := change g.config }
  slogSyncUnlock g
  pure g

/-- `slog_config_get`. -/
def slogConfigGet (g : Slog) : Stdio SlogConfig := do
  slogSyncLock g
  slogSyncUnlock g
  pure g.config

/-- `slog_config_set`. -/
def slogConfigSet (g : Slog) (cfg : SlogConfig) : Stdio Slog := do
  slogSyncLock g
  let file ←
    (if ¬ cfg.nToFile ∨ g.config.sFilePath ≠ cfg.sFilePath ∨ g.config.sFileName ≠ cfg.sFileName
    then do
      let file ← slogCloseFile g.logFile
      pure { file with sFilePath := CStr.empty _ }
    else pure g.logFile)
  let g := { g with config := cfg, logFile := file }
  slogSyncUnlock g
  pure g

/-- What `slog_enable` does to the flags. -/
def enabledFlags (nFlags : BitVec 16) (eFlag : BitVec 32) : BitVec 16 :=
  if eFlag = slogFlagsAll then slogFlagsAll.setWidth 16
  else if ¬ SlogFlagsCheck nFlags eFlag then (nFlags.setWidth 32 ||| eFlag).setWidth 16
  else nFlags

/-- What `slog_disable` does to the flags. -/
def disabledFlags (nFlags : BitVec 16) (eFlag : BitVec 32) : BitVec 16 :=
  if eFlag = slogFlagsAll then 0
  else if SlogFlagsCheck nFlags eFlag then (nFlags.setWidth 32 &&& ~~~eFlag).setWidth 16
  else nFlags

/-- `slog_enable`. -/
def slogEnable (g : Slog) (eFlag : BitVec 32) : Stdio Slog :=
  slogConfigure g fun cfg => { cfg with nFlags := enabledFlags cfg.nFlags eFlag }

/-- `slog_disable`. -/
def slogDisable (g : Slog) (eFlag : BitVec 32) : Stdio Slog :=
  slogConfigure g fun cfg => { cfg with nFlags := disabledFlags cfg.nFlags eFlag }

/-- The separator: a space where `vsnprintf` fails or prints nothing. -/
def separatorText : Option Text → Text
  | some [] | none => " ".toList
  | some text => text

/-- `slog_separator_set`; `none` where `vsnprintf` fails. -/
def slogSeparatorSet (g : Slog) (format : Option Text) : Stdio Slog :=
  slogConfigure g fun cfg => { cfg with sSeparator := CStr.snprintf _ (separatorText format) }

/-- `slog_callback_set`. -/
def slogCallbackSet (g : Slog) (callback context : Nat) : Stdio Slog :=
  slogConfigure g fun cfg => { cfg with pCallbackCtx := context, logCallback := callback }

/-- `slog_get_full_path`: the length it returns. -/
def slogGetFullPath (g : Slog) (pFilePath nSize : Nat) : Stdio Nat :=
  if pFilePath = 0 ∨ nSize = 0 then pure 0
  else do
    slogSyncLock g
    let path := g.logFile.sFilePath.text
    -- `snprintf` stores what fits and a zero, and returns the length of the whole path
    write pFilePath (path.take (nSize - 1) ++ ['\x00'])
    write (pFilePath + path.length) ['\x00']
    slogSyncUnlock g
    pure path.length

/-! ## Beginning and end -/

/-- The configuration `slog_init` sets up. -/
def SlogConfig.initial (pName : Option Text) (nFlags : BitVec 16) : SlogConfig where
  eDateControl := .timeOnly
  eColorFormat := .tag
  logCallback := 0
  pCallbackCtx := 0
  nKeepOpen := true
  nTraceTid := false
  nToScreen := true
  nUseHeap := false
  nToFile := false
  nIndent := false
  nRotate := true
  nFlush := false
  nFlags := nFlags
  sSeparator := CStr.snprintf _ " ".toList
  sFileName := CStr.snprintf _ (pName.getD slogNameDefault)
  sFilePath := CStr.snprintf _ ".".toList

/-- `slog_init`. -/
def slogInit (g : Slog) (pName : Option Text) (nFlags : BitVec 16) (nTdSafe : Bool) :
    Stdio Slog := do
  let g := { g with nTdSafe := nTdSafe }
  slogSyncInit g
  slogSyncLock g
  let g := { g with
    config := SlogConfig.initial pName nFlags
    logFile := ⟨CStr.empty _, 0, 0⟩ }
  slogSyncUnlock g
  pure g

/-- `slog_destroy`. -/
def slogDestroy (g : Slog) : Stdio Slog := do
  slogSyncLock g
  let file ← slogCloseFile g.logFile
  let g := { g with config := SlogConfig.zero, logFile := file }
  slogSyncUnlock g
  slogSyncDestroy g

/-! ## Sequences of calls -/

/-- A public call with its arguments. -/
inductive LogCall
  | init (pName : Option Text) (nFlags : BitVec 16) (nTdSafe : Bool)
  | display (eFlag : BitVec 32) (nNewLine : Bool) (pFormat : Text)
  | configGet
  | configSet (cfg : SlogConfig)
  | enable (eFlag : BitVec 32)
  | disable (eFlag : BitVec 32)
  | separatorSet (format : Option Text)
  | callbackSet (callback context : Nat)
  | getFullPath (pFilePath nSize : Nat)
  | destroy
  deriving DecidableEq

/-- One call, and the state it leaves. -/
def LogCall.run (g : Slog) : LogCall → Stdio Slog
  | init pName nFlags nTdSafe => slogInit g pName nFlags nTdSafe
  | display eFlag nNewLine pFormat => slogDisplay g eFlag nNewLine pFormat
  | configGet => do
      let _ ← slogConfigGet g
      pure g
  | configSet cfg => slogConfigSet g cfg
  | enable eFlag => slogEnable g eFlag
  | disable eFlag => slogDisable g eFlag
  | separatorSet format => slogSeparatorSet g format
  | callbackSet callback context => slogCallbackSet g callback context
  | getFullPath pFilePath nSize => do
      let _ ← slogGetFullPath g pFilePath nSize
      pure g
  | destroy => slogDestroy g

/-- Several calls in a row. -/
def logSession (g : Slog) : List LogCall → Stdio Slog
  | [] => pure g
  | call :: calls => do
      let g ← call.run g
      logSession g calls

end QspiTool
