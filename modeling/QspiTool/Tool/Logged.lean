import QspiTool.Interaction.Aside
import QspiTool.Log.Levels
import QspiTool.Tool.Messages

/-!
# The tool with its log

The functions of `qspi.c` and `main.c` with everything they say.  A `Tool` makes the accesses of the
driver and the calls of the logger, and carries the state `g_slog` of the logger along.  The
functions are those of `Driver/Api.lean` and `Driver/Transfer.lean`, statement by statement; those
that say nothing are used as they are.
-/

namespace QspiTool

open Words Interaction CText

/-- A fragment of the tool. -/
abbrev Tool := StateT Slog (Prog (bus.beside stdio))

instance : MonadLift (Prog bus) Tool := ⟨fun p => StateT.lift (p.play stdio)⟩

instance : MonadLift (Prog stdio) Tool := ⟨fun p => StateT.lift (p.aside bus)⟩

namespace Tool

/-- A call of the logger. -/
def log (call : Slog → Stdio Slog) : Tool Unit := do
  let g ← get
  let g ← call g
  set g

/-- A message of its own line. -/
def say (m : Message) : Tool Unit := log fun g => slogDisplay g m.level.flag true m.text

/-- `LOG_REGISTER`: the register is loaded for the message. -/
def logRegister (line virt phys : Nat) : Tool Unit := do
  let value ← load virt
  say (.register line phys virt value)

end Tool

namespace Logged

open Tool

/-! ## `QSPI_Init` -/

/-- `request_flexspi_memory`. -/
def requestFlexspiMemory (ctx : QspiContext) : Tool (QspiContext × Int) := do
  let (map, result) ← mapMemory ctx.fd flexspiBase Reg.size ctx.pageSize
  let ctx := { ctx with mapFspi := map }
  if result ≠ 0 then do
    let error ← Stdio.strerror
    say (.mmapFailed .flexspi error)
    pure (ctx, -1)
  else pure ({ ctx with flexspi := ctx.mapFspi + pageOffset flexspiBase ctx.pageSize }, 0)

/-- `clock_init`. -/
def clockInit (ctx : QspiContext) (mux pre post : Word) : Tool QspiContext := do
  check (0 ≤ ctx.fd)
  let (map, result) ← mapMemory ctx.fd ccmBase pageSize64K ctx.pageSize
  let ctx := { ctx with mapCcm := map }
  if result ≠ 0 then do
    let error ← Stdio.strerror
    say (.mmapFailed .ccm error)
    pure ctx
  else do
    let ccm := ctx.mapCcm + pageOffset ccmBase ctx.pageSize
    store (ccm + ccmCcgr47) 0x3#32
    logRegister 131 (ccm + ccmCcgr47) (ccmBase + ccmCcgr47)
    store (ccm + qspiClkRoot) (clkRootValue mux pre post)
    orReg (ccm + qspiClkRoot) (bit 28)
    logRegister 138 (ccm + qspiClkRoot) (ccmBase + qspiClkRoot)
    pure ctx

/-- `iomux_init`. -/
def iomuxInit (ctx : QspiContext) : Tool QspiContext := do
  check (0 ≤ ctx.fd)
  let (map, result) ← mapMemory ctx.fd iomuxcBase ctx.pageSize ctx.pageSize
  let ctx := { ctx with mapIomux := map }
  if result ≠ 0 then do
    let error ← Stdio.strerror
    say (.mmapFailed .iomuxc error)
    pure ctx
  else do
    setPads (ctx.mapIomux + pageOffset iomuxcBase ctx.pageSize) iomuxcPads
    pure ctx

/-- `QSPI_Init` once the FlexSPI registers are mapped. -/
def bringUp (ctx : QspiContext) : Tool QspiContext := do
  say .iomuxStarts
  let ctx ← iomuxInit ctx
  say .iomuxDone
  orReg (ctx.flexspi + Reg.mcr0) mcr0Mdis
  let ctx ← clockInit ctx 0x2#32 0#32 0x7#32
  orReg (ctx.flexspi + Reg.mcr0) (bit 1)
  store (ctx.flexspi + Reg.inten) (bit 6 ||| bit 0)
  let mcr0 ← load (ctx.flexspi + Reg.mcr0)
  store (ctx.flexspi + Reg.mcr0) (mcr0 &&& ~~~mcr0Mdis)
  pure { ctx with initDone := true }

/-- `QSPI_Init`. -/
def qspiInit (ctx : QspiContext) : Tool QspiContext := do
  let pageSize ← sysconfPageSize
  let ctx := { ctx with fd := -1, pageSize := pageSize, initDone := false }
  check (0 < ctx.pageSize)
  check (ctx.pageSize % 4096 = 0)
  say .openingMem
  let fd ← openMem
  let ctx := { ctx with fd := fd }
  if ctx.fd < 0 then do
    let error ← Stdio.strerror
    say (.openFailed error)
    pure ctx
  else do
    say .openedMem
    let (ctx, result) ← requestFlexspiMemory ctx
    if result ≠ 0 then do
      say .requestFailed
      close ctx.fd
      pure { ctx with fd := -1 }
    else bringUp ctx

/-! ## The other calls -/

/-- `QSPI_SetupLut`. -/
def qspiSetupLut (ctx : QspiContext) (lut len : Nat) : Tool Unit := do
  let fspi := ctx.flexspi
  check (fspi ≠ 0)
  check (lut ≠ 0)
  check (len ≤ 128 * 4)
  say .lutStarts
  unlockLut fspi
  copyBytes (fspi + Reg.lut 0) lut len 0
  lockLut fspi
  say .lutDone

/-- `QSPI_Busy`. -/
def qspiBusy (ctx : QspiContext) : Tool Int := do
  say .busyCheck
  if ctx.initDone = false then do
    say .notInitialized
    pure 1
  else do
    logRegister 465 (ctx.flexspi + Reg.intr) (flexspiBase + Reg.intr)
    logRegister 466 (ctx.flexspi + Reg.sts0) (flexspiBase + Reg.sts0)
    logRegister 467 (ctx.flexspi + Reg.sts1) (flexspiBase + Reg.sts1)
    logRegister 468 (ctx.flexspi + Reg.sts2) (flexspiBase + Reg.sts2)
    let intr ← load (ctx.flexspi + Reg.intr)
    if intr &&& bit cmdError ≠ 0#32 then do
      say .underflow
      pure (-1)
    else if intr &&& bit cmdDone ≠ 0#32 then do
      clearFlags ctx.flexspi
      pure 0
    else pure 1

/-- `QSPI_DeInit`. -/
def qspiDeInit (ctx : QspiContext) : Tool QspiContext :=
  if ctx.initDone = false then do
    say .nothingToDeInit
    pure ctx
  else do
    munmap ctx.mapIomux pageSize64K
    munmap ctx.mapFspi Reg.size
    munmap ctx.mapCcm pageSize64K
    munmap ctx.mapRdc pageSize64K
    close ctx.fd
    say .deInitialized
    pure { ctx with fd := -1, initDone := false }

/-- `segfault_sigaction`, the handler that `QSPI_Init` installs for `SIGSEGV`; returns the exit
status. -/
def segfaultSigaction (ctx : QspiContext) (siAddr : Nat) : Tool Int := do
  say (.segfault siAddr)
  let _ ← qspiDeInit ctx
  log slogDestroy
  pure 1

/-! ## Transfers -/

/-- `transfer_blocking` up to the trigger. -/
def setupCommand (fspi : Nat) (xfer : FlexspiTransfer) : Tool Unit := do
  orReg (fspi + Reg.flshcr2 xfer.port.index) (bit 31)
  clearFlags fspi
  store (fspi + Reg.ipcr0) xfer.deviceAddress
  orReg (fspi + Reg.iptxfcr) 1#32
  orReg (fspi + Reg.iprxfcr) 1#32
  match xfer.cmdType with
  | .read | .write | .config => say (.dataSize xfer.dataSize)
  | .command => pure ()
  store (fspi + Reg.ipcr1) (configValue xfer)

/-- The data phase of `transfer_blocking`. -/
def moveData (fspi : Nat) (xfer : FlexspiTransfer) : Tool Int :=
  match xfer.cmdType with
  | .write | .config => writeBlocking fspi xfer.data xfer.dataSize.toNat
  | .read => do
      say (.reading xfer.dataSize)
      let result ← readBlocking fspi xfer.data xfer.dataSize.toNat
      say .readCompleted
      pure result
  | .command => (Prog.abort : Driver Int)

/-- `transfer_blocking`. -/
def transferBlocking (fspi : Nat) (xfer : FlexspiTransfer) : Tool Int := do
  setupCommand fspi xfer
  orReg (fspi + Reg.ipcmd) 1#32
  let result ← moveData fspi xfer
  say .waiting
  awaitCommand fspi result

/-- What the three public transfers have in common. -/
def runTransfer (kind : Transfer) (ctx : QspiContext) (addr : Word) (buffer : Nat)
    (size : BitVec 64) : Tool Int := do
  say (.transfer kind addr size)
  let ret ← transferBlocking ctx.flexspi (kind.descriptor addr buffer size)
  logRegister kind.line (ctx.flexspi + Reg.sts0) (flexspiBase + Reg.sts0)
  logRegister (kind.line + 1) (ctx.flexspi + Reg.sts1) (flexspiBase + Reg.sts1)
  logRegister (kind.line + 2) (ctx.flexspi + Reg.intr) (flexspiBase + Reg.intr)
  pure ret

/-- `QSPI_Write`. -/
def qspiWrite (ctx : QspiContext) (addr : Word) (lutIndex : BitVec 8) (buffer : Nat)
    (size : BitVec 64) : Tool Int :=
  runTransfer (.write lutIndex) ctx addr buffer size

/-- `QSPI_Read`. -/
def qspiRead (ctx : QspiContext) (addr : Word) (buffer : Nat) (size : BitVec 64) : Tool Int := do
  check (buffer ≠ 0 ∧ 0 < size.toNat)
  runTransfer .read ctx addr buffer size

/-- `QSPI_ReadSample`. -/
def qspiReadSample (ctx : QspiContext) (addr : Word) (sample : Nat) (size : BitVec 64) :
    Tool Int := do
  check (sample ≠ 0 ∧ 0 < size.toNat)
  runTransfer .readSample ctx addr sample size

/-- The public transfer `kind`. -/
def transfer (kind : Transfer) (ctx : QspiContext) (addr : Word) (buffer : Nat)
    (size : BitVec 64) : Tool Int :=
  match kind with
  | .write lutIndex => qspiWrite ctx addr lutIndex buffer size
  | .read => qspiRead ctx addr buffer size
  | .readSample => qspiReadSample ctx addr buffer size

/-! ## Programs -/

/-- One public call: the context it leaves, and what it returns. -/
def call (ctx : QspiContext) : Call → Tool (QspiContext × Option Int)
  | .init => do
      let ctx ← qspiInit ctx
      pure (ctx, none)
  | .deInit => do
      let ctx ← qspiDeInit ctx
      pure (ctx, none)
  | .setupLut lut len => do
      qspiSetupLut ctx lut len
      pure (ctx, none)
  | .busy => do
      let r ← qspiBusy ctx
      pure (ctx, some r)
  | .transfer kind addr buffer size => do
      let r ← transfer kind ctx addr buffer size
      pure (ctx, some r)

/-- Several calls in a row, with what each returns. -/
def session (ctx : QspiContext) : List Call → Tool (List (Option Int))
  | [] => pure []
  | c :: calls => do
      let (ctx, r) ← call ctx c
      let rs ← session ctx calls
      pure (r :: rs)

/-- `main` behind `slog_init`, with `testLut` the address of `test_lut`. -/
def mainBody (testLut : Nat) : Tool Int := do
  say .starting
  let ctx ← qspiInit .zero
  qspiSetupLut ctx testLut testLutSize
  if qspiIsInitialized ctx = false then do
    let _ ← qspiDeInit ctx
    say .initializationFailed
    log slogDestroy
    pure 1
  else do
    say .initialized
    let ret ← qspiWrite ctx 0xCAFECAFE#32 0#8 0 0#64
    if ret ≠ 0 then say .writeFailed
    let _ ← qspiDeInit ctx
    log slogDestroy
    pure 0

/-- `main`, with its arguments. -/
def main (argv : List Text) (testLut : Nat) : Tool Int := do
  let nFlags ← parseFlags argv
  check (qspiIsInitialized .zero = false)
  log fun g => slogInit g (some "qspi_tool".toList) nFlags false
  mainBody testLut

end Logged

end QspiTool
