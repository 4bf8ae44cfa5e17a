import QspiTool.Driver.Transfer

/-!
# The public calls of the driver

The calls of `qspi.h` over the context `qspi_ctx`, and `main`.  The context is a value that
each call takes and gives back; a pointer is a natural number, `0` for `NULL`.

A `LOG_REGISTER` loads the register it prints whatever the log level is, so it is one load
here.  The other log calls print values that were loaded anyway.  `QSPI_Init` also installs a
signal handler and `main` parses the log flags of its command line, neither of which touches
the device.
-/

namespace QspiTool

open Words Interaction

/-! ## The context -/

/-- `MAP_FAILED`. -/
abbrev mapFailed : Nat := 2 ^ 64 - 1

/-- `QSPI_Context`. -/
structure QspiContext where
  fd : Int
  pageSize : Nat
  initDone : Bool
  lutSeted : Bool
  flexspi : Nat
  mapFspi : Nat
  mapCcm : Nat
  mapRdc : Nat
  mapIomux : Nat
  deriving DecidableEq

/-- The context of a process that has just started. -/
def QspiContext.zero : QspiContext where
  fd := 0
  pageSize := 0
  initDone := false
  lutSeted := false
  flexspi := 0
  mapFspi := 0
  mapCcm := 0
  mapRdc := 0
  mapIomux := 0

/-- An initialised context whose controller is mapped at 4096. -/
def readyContext : QspiContext :=
  { QspiContext.zero with fd := 3, initDone := true, flexspi := 4096 }

/-! ## Physical addresses -/

abbrev flexspiBase : Nat := 0x30BB0000
abbrev ccmBase : Nat := 0x30380000
abbrev iomuxcBase : Nat := 0x30330000

abbrev ccmCcgr47 : Nat := 0x42F0
abbrev qspiClkRoot : Nat := 0xAB80

/-- The pads `iomux_init` sets up, in order: `SCLK`, `SS0_B`, `DATA0` to `DATA3`. -/
def iomuxcPads : List Nat := [0xE0, 0xE4, 0xF8, 0xFC, 0x100, 0x104]

/-- `IOMUXC_ALT1 | IOMUXC_SION`. -/
def padValue : Word := 0x11#32

/-- `PAGE_SIZE_64K`. -/
abbrev pageSize64K : Nat := 64 * 1024

/-- `CLK_ROOT_EN | MUX_CLK_ROOT_SELECT(mux) | PRE_PODF(pre) | POST_PODF(post)`. -/
def clkRootValue (mux pre post : Word) : Word :=
  bit 28 ||| mux <<< 24 ||| pre <<< 16 ||| post

/-- `FSPI_MCR0_MDIS`. -/
def mcr0Mdis : Word := bit 1

/-! ## `QSPI_Init` -/

/-- `base & ~(page_size - 1)`. -/
def pageBase (base pageSize : Nat) : Nat := base &&& (2 ^ 64 - pageSize)

/-- `base & (page_size - 1)`. -/
def pageOffset (base pageSize : Nat) : Nat := base &&& (pageSize - 1)

/-- `map_memory`: the value stored through `map`, and the result. -/
def mapMemory (fd : Int) (base size pageSize : Nat) : Driver (Nat × Int) := do
  check (0 ≤ fd)
  check (0 < size)
  check (0 < pageSize)
  let map ← mmap size fd (pageBase base pageSize)
  if map = mapFailed then pure (map, -1) else pure (map, 0)

/-- `request_flexspi_memory`. -/
def requestFlexspiMemory (ctx : QspiContext) : Driver (QspiContext × Int) := do
  let (map, result) ← mapMemory ctx.fd flexspiBase Reg.size ctx.pageSize
  let ctx := { ctx with mapFspi := map }
  if result ≠ 0 then pure (ctx, -1)
  else pure ({ ctx with flexspi := ctx.mapFspi + pageOffset flexspiBase ctx.pageSize }, 0)

/-- `clock_init`. -/
def clockInit (ctx : QspiContext) (mux pre post : Word) : Driver QspiContext := do
  check (0 ≤ ctx.fd)
  let (map, result) ← mapMemory ctx.fd ccmBase pageSize64K ctx.pageSize
  let ctx := { ctx with mapCcm := map }
  if result ≠ 0 then pure ctx
  else do
    let ccm := ctx.mapCcm + pageOffset ccmBase ctx.pageSize
    store (ccm + ccmCcgr47) 0x3#32
    let _ ← load (ccm + ccmCcgr47)
    store (ccm + qspiClkRoot) (clkRootValue mux pre post)
    orReg (ccm + qspiClkRoot) (bit 28)
    let _ ← load (ccm + qspiClkRoot)
    pure ctx

/-- The stores of `iomux_init`. -/
def setPads (iomux : Nat) : List Nat → Driver Unit
  | [] => pure ()
  | pad :: pads => do
      store (iomux + pad) padValue
      setPads iomux pads

/-- `iomux_init`. -/
def iomuxInit (ctx : QspiContext) : Driver QspiContext := do
  check (0 ≤ ctx.fd)
  let (map, result) ← mapMemory ctx.fd iomuxcBase ctx.pageSize ctx.pageSize
  let ctx := { ctx with mapIomux := map }
  if result ≠ 0 then pure ctx
  else do
    setPads (ctx.mapIomux + pageOffset iomuxcBase ctx.pageSize) iomuxcPads
    pure ctx

/-- `QSPI_Init` once the FlexSPI registers are mapped. -/
def bringUp (ctx : QspiContext) : Driver QspiContext := do
  let ctx ← iomuxInit ctx
  orReg (ctx.flexspi + Reg.mcr0) mcr0Mdis
  let ctx ← clockInit ctx 0x2#32 0#32 0x7#32
  orReg (ctx.flexspi + Reg.mcr0) (bit 1)
  store (ctx.flexspi + Reg.inten) (bit 6 ||| bit 0)
  let mcr0 ← load (ctx.flexspi + Reg.mcr0)
  store (ctx.flexspi + Reg.mcr0) (mcr0 &&& ~~~mcr0Mdis)
  pure { ctx with initDone := true }

/-- `QSPI_Init`. -/
def qspiInit (ctx : QspiContext) : Driver QspiContext := do
  let pageSize ← sysconfPageSize
  let ctx := { ctx with fd := -1, pageSize := pageSize, initDone := false }
  check (0 < ctx.pageSize)
  check (ctx.pageSize % 4096 = 0)
  let fd ← openMem
  let ctx := { ctx with fd := fd }
  if ctx.fd < 0 then pure ctx
  else do
    let (ctx, result) ← requestFlexspiMemory ctx
    if result ≠ 0 then do
      close ctx.fd
      pure { ctx with fd := -1 }
    else bringUp ctx

/-! ## The LUT -/

/-- `unlock_lut`. -/
def unlockLut (fspi : Nat) : Driver Unit := do
  store (fspi + Reg.lutkey) lutkeyValue
  store (fspi + Reg.lutcr) lockerUnlock

/-- `lock_lut`. -/
def lockLut (fspi : Nat) : Driver Unit := do
  store (fspi + Reg.lutkey) lutkeyValue
  store (fspi + Reg.lutcr) lockerLock

/-- `memcpy` from a buffer to device memory, byte by byte: `n` bytes from the `i`-th on. -/
def copyBytes (dst src : Nat) : (n i : Nat) → Driver Unit
  | 0, _ => pure ()
  | n + 1, i => do
      let b ← read8 (src + i)
      store8 (dst + i) b
      copyBytes dst src n (i + 1)

/-- `QSPI_SetupLut`. -/
def qspiSetupLut (ctx : QspiContext) (lut len : Nat) : Driver Unit := do
  let fspi := ctx.flexspi
  check (fspi ≠ 0)
  check (lut ≠ 0)
  check (len ≤ 128 * 4)
  unlockLut fspi
  copyBytes (fspi + Reg.lut 0) lut len 0
  lockLut fspi

/-! ## `QSPI_IsInitialized`, `QSPI_Busy` and `QSPI_DeInit` -/

/-- `QSPI_IsInitialized`. -/
def qspiIsInitialized (ctx : QspiContext) : Bool := ctx.initDone

/-- `QSPI_Busy`. -/
def qspiBusy (ctx : QspiContext) : Driver Int :=
  if ctx.initDone = false then pure 1
  else do
    let _ ← load (ctx.flexspi + Reg.intr)
    let _ ← load (ctx.flexspi + Reg.sts0)
    let _ ← load (ctx.flexspi + Reg.sts1)
    let _ ← load (ctx.flexspi + Reg.sts2)
    let intr ← load (ctx.flexspi + Reg.intr)
    if intr &&& bit cmdError ≠ 0#32 then pure (-1)
    else if intr &&& bit cmdDone ≠ 0#32 then do
      clearFlags ctx.flexspi
      pure 0
    else pure 1

/-- `QSPI_DeInit`. -/
def qspiDeInit (ctx : QspiContext) : Driver QspiContext :=
  if ctx.initDone = false then pure ctx
  else do
    munmap ctx.mapIomux pageSize64K
    munmap ctx.mapFspi Reg.size
    munmap ctx.mapCcm pageSize64K
    munmap ctx.mapRdc pageSize64K
    close ctx.fd
    pure { ctx with fd := -1, initDone := false }

/-- What `segfault_sigaction`, the handler that `QSPI_Init` installs for `SIGSEGV`, does apart from
its log; returns the exit status. -/
def segfaultSigaction (ctx : QspiContext) : Driver Int := do
  let _ ← qspiDeInit ctx
  pure 1

/-! ## Transfers -/

/-- The three public transfers. -/
inductive Transfer
  | write (lutIndex : BitVec 8)
  | read
  | readSample
  deriving DecidableEq

/-- `LUT_INDEX_READ` and `FPGA_LUT_IDX_RD_SAMPLE`, or the index the caller of `QSPI_Write`
gives. -/
def Transfer.seqIndex : Transfer → BitVec 8
  | write lutIndex => lutIndex
  | read => 0#8
  | readSample => 11#8

def Transfer.cmdType : Transfer → FlexspiCommandType
  | write _ => .write
  | read | readSample => .read

/-- The descriptor the three public transfers build; `size` is narrowed to 16 bits. -/
def Transfer.descriptor (kind : Transfer) (addr : Word) (buffer : Nat) (size : BitVec 64) :
    FlexspiTransfer where
  deviceAddress := addr
  port := .portA1
  cmdType := kind.cmdType
  seqIndex := kind.seqIndex
  seqNumber := 1#8
  data := buffer
  dataSize := size.setWidth 16

/-- `transfer_blocking` and the three `LOG_REGISTER`s behind it. -/
def loggedTransfer (fspi : Nat) (xfer : FlexspiTransfer) : Driver Int := do
  let ret ← transferBlocking fspi xfer
  let _ ← load (fspi + Reg.sts0)
  let _ ← load (fspi + Reg.sts1)
  let _ ← load (fspi + Reg.intr)
  pure ret

/-- `QSPI_Write`. -/
def qspiWrite (ctx : QspiContext) (addr : Word) (lutIndex : BitVec 8) (buffer : Nat)
    (size : BitVec 64) : Driver Int :=
  loggedTransfer ctx.flexspi ((Transfer.write lutIndex).descriptor addr buffer size)

/-- `QSPI_Read`. -/
def qspiRead (ctx : QspiContext) (addr : Word) (buffer : Nat) (size : BitVec 64) :
    Driver Int := do
  check (buffer ≠ 0 ∧ 0 < size.toNat)
  loggedTransfer ctx.flexspi (Transfer.read.descriptor addr buffer size)

/-- `QSPI_ReadSample`. -/
def qspiReadSample (ctx : QspiContext) (addr : Word) (sample : Nat) (size : BitVec 64) :
    Driver Int := do
  check (sample ≠ 0 ∧ 0 < size.toNat)
  loggedTransfer ctx.flexspi (Transfer.readSample.descriptor addr sample size)

/-- The public transfer `kind`. -/
def Transfer.run (kind : Transfer) (ctx : QspiContext) (addr : Word) (buffer : Nat)
    (size : BitVec 64) : Driver Int :=
  match kind with
  | write lutIndex => qspiWrite ctx addr lutIndex buffer size
  | read => qspiRead ctx addr buffer size
  | readSample => qspiReadSample ctx addr buffer size

/-! ## Sequences of calls -/

/-- A public call with its arguments. -/
inductive Call
  | init
  | deInit
  | setupLut (lut len : Nat)
  | busy
  | transfer (kind : Transfer) (addr : Word) (buffer : Nat) (size : BitVec 64)
  deriving DecidableEq

/-- One call: the context it leaves, and what it returns unless it is a `void` function. -/
def Call.run (ctx : QspiContext) : Call → Driver (QspiContext × Option Int)
  | init => do
      let ctx ← qspiInit ctx
      pure (ctx, none)
  | deInit => do
      let ctx ← qspiDeInit ctx
      pure (ctx, none)
  | setupLut lut len => do
      qspiSetupLut ctx lut len
      pure (ctx, none)
  | busy => do
      let r ← qspiBusy ctx
      pure (ctx, some r)
  | transfer kind addr buffer size => do
      let r ← kind.run ctx addr buffer size
      pure (ctx, some r)

/-- Several calls in a row, with what each returns. -/
def session (ctx : QspiContext) : List Call → Driver (List (Option Int))
  | [] => pure []
  | call :: calls => do
      let (ctx, r) ← call.run ctx
      let rs ← session ctx calls
      pure (r :: rs)

/-! ## `main` -/

/-- `test_lut` has four words. -/
abbrev testLutSize : Nat := 4 * 4

/-- `main` behind the parsing of its flags, with `testLut` the address of `test_lut`; returns the
exit status. -/
def main (ctx : QspiContext) (testLut : Nat) : Driver Int := do
  check (qspiIsInitialized ctx = false)
  let ctx ← qspiInit ctx
  qspiSetupLut ctx testLut testLutSize
  if qspiIsInitialized ctx = false then do
    let _ ← qspiDeInit ctx
    pure 1
  else do
    let _ ← qspiWrite ctx 0xCAFECAFE#32 0#8 0 0#64
    let _ ← qspiDeInit ctx
    pure 0

end QspiTool
