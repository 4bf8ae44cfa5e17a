import QspiTool.Driver.Access

/-!
# The transfer core of the driver

`clear_flags`, `write_blocking`, `read_blocking` and `transfer_blocking` of `qspi.c`, access
by access.  A `for` loop of the source is a recursion on the number of rounds still to be
made that carries the loop's variables; the `while (0 != size)` loops recurse on `size`.

The watermark of `write_blocking` counts units of 64 bits: a full round moves
`2 * watermark` words and `size` shrinks by `8 * watermark` bytes.  `read_blocking` moves
`watermark` words in a full round and `size` shrinks by `4 * watermark`.
-/

namespace QspiTool

open Words Interaction

/-- `clear_flags`. -/
def clearFlags (fspi : Nat) : Driver Unit := do
  let intr ← load (fspi + Reg.intr)
  store (fspi + Reg.intr) intr
  let sts0 ← load (fspi + Reg.sts0)
  store (fspi + Reg.sts0) sts0
  let sts1 ← load (fspi + Reg.sts1)
  store (fspi + Reg.sts1) sts1

/-! ## `write_blocking` -/

/-- `n` rounds of `fspi->TFDR[i] = *(uint32_t *)buffer; buffer += 4; i++`; returns `buffer`. -/
def writeWords (fspi : Nat) : (n i : Nat) → (buffer : Nat) → Driver Nat
  | 0, _, buffer => pure buffer
  | n + 1, i, buffer => do
      let v ← read32 buffer
      store (fspi + Reg.tfdr i) v
      writeWords fspi n (i + 1) (buffer + 4)

/-- `n` rounds of `tempVal |= (uint32_t)*buffer++ << (8U * j); j++`. -/
def gatherBytes : (n j : Nat) → (tempVal : Word) → (buffer : Nat) → Driver (Word × Nat)
  | 0, _, tempVal, buffer => pure (tempVal, buffer)
  | n + 1, j, tempVal, buffer => do
      let b ← read8 buffer
      gatherBytes n (j + 1) (tempVal ||| placed b j) (buffer + 1)

/-- The unaligned rest of a partial round: `size < 4` bytes into `TFDR[i]`. -/
def writeTail (fspi : Nat) (size i : Nat) (buffer : Nat) : Driver Nat :=
  if size ≠ 0 then do
    let (tempVal, buffer) ← gatherBytes size 0 0#32 buffer
    store (fspi + Reg.tfdr i) tempVal
    pure buffer
  else pure buffer

/-- The two branches on `size >= 8 * watermark`: fill the TX window. -/
def writeChunk (fspi : Nat) (watermark : Watermark) (buffer : Nat) (size : Nat) :
    Driver Nat :=
  if 8 * watermark.val ≤ size then
    writeWords fspi (2 * watermark.val) 0 buffer
  else do
    let buffer ← writeWords fspi (size / 4) 0 buffer
    writeTail fspi (size - 4 * (size / 4)) (size / 4) buffer

/-- What the branches on `size >= 8 * watermark` leave in `size`. -/
def writeRest (watermark : Watermark) (size : Nat) : Nat :=
  if 8 * watermark.val ≤ size then size - 8 * watermark.val else 0

/-- One round of `while (0 != size)` in `write_blocking`; returns `buffer`. -/
def writeRound (fspi : Nat) (watermark : Watermark) (buffer : Nat) (size : Nat) :
    Driver Nat := do
  waitBit (fspi + Reg.intr) txEmpty
  clearFlags fspi
  let buffer ← writeChunk fspi watermark buffer size
  orReg (fspi + Reg.intr) (bit txEmpty)
  pure buffer

lemma writeRest_lt (watermark : Watermark) {size : Nat} (h : size ≠ 0) :
    writeRest watermark size < size := by
  have := watermark.pos
  unfold writeRest
  split <;> omega

/-- `while (0 != size)` of `write_blocking`. -/
def writeLoop (fspi : Nat) (watermark : Watermark) (buffer : Nat) (size : Nat) :
    Driver Unit :=
  if _h : size = 0 then pure ()
  else do
    let buffer ← writeRound fspi watermark buffer size
    writeLoop fspi watermark buffer (writeRest watermark size)
  termination_by size
  decreasing_by exact writeRest_lt watermark ‹_›

/-- `write_blocking`. -/
def writeBlocking (fspi buffer : Nat) (size : Nat) : Driver Int := do
  check (size ≤ 32 * 32)
  let iptxfcr ← load (fspi + Reg.iptxfcr)
  writeLoop fspi (watermarkOf iptxfcr) buffer size
  pure 0

/-! ## `read_blocking` -/

/-- `n` rounds of `*(uint32_t *)buffer = fspi->RFDR[i]; buffer += 4; i++`; returns `buffer`. -/
def readWords (fspi : Nat) : (n i : Nat) → (buffer : Nat) → Driver Nat
  | 0, _, buffer => pure buffer
  | n + 1, i, buffer => do
      let v ← load (fspi + Reg.rfdr i)
      write32 buffer v
      readWords fspi n (i + 1) (buffer + 4)

/-- `n` rounds of `*buffer++ = (uint8_t)(tempVal >> (8U * j)); j++`; returns `buffer`. -/
def scatterBytes : (n j : Nat) → (tempVal : Word) → (buffer : Nat) → Driver Nat
  | 0, _, _, buffer => pure buffer
  | n + 1, j, tempVal, buffer => do
      write8 buffer (byteAt tempVal j)
      scatterBytes n (j + 1) tempVal (buffer + 1)

/-- The unaligned rest of a partial round: `size < 4` bytes out of `RFDR[i]`. -/
def readTail (fspi : Nat) (size i : Nat) (buffer : Nat) : Driver Nat :=
  if size ≠ 0 then do
    let tempVal ← load (fspi + Reg.rfdr i)
    scatterBytes size 0 tempVal buffer
  else pure buffer

/-- The two branches on `size >= 4 * watermark`: empty the RX window. -/
def readChunk (fspi : Nat) (watermark : Watermark) (buffer : Nat) (size : Nat) :
    Driver Nat :=
  if 4 * watermark.val ≤ size then
    readWords fspi watermark.val 0 buffer
  else do
    let buffer ← readWords fspi (size / 4) 0 buffer
    readTail fspi (size - 4 * (size / 4)) (size / 4) buffer

/-- What the branches on `size >= 4 * watermark` leave in `size`. -/
def readRest (watermark : Watermark) (size : Nat) : Nat :=
  if 4 * watermark.val ≤ size then size - 4 * watermark.val else 0

/-- One round of `while (0 != size)` in `read_blocking`; returns `buffer`. -/
def readRound (fspi : Nat) (watermark : Watermark) (buffer : Nat) (size : Nat) :
    Driver Nat := do
  waitBit (fspi + Reg.intr) rxWatermarkFlag
  clearFlags fspi
  let buffer ← readChunk fspi watermark buffer size
  orReg (fspi + Reg.intr) (bit rxWatermarkFlag)
  pure buffer

lemma readRest_lt (watermark : Watermark) {size : Nat} (h : size ≠ 0) :
    readRest watermark size < size := by
  have := watermark.pos
  unfold readRest
  split <;> omega

/-- `while (0 != size)` of `read_blocking`. -/
def readLoop (fspi : Nat) (watermark : Watermark) (buffer : Nat) (size : Nat) :
    Driver Unit :=
  if _h : size = 0 then pure ()
  else do
    let buffer ← readRound fspi watermark buffer size
    readLoop fspi watermark buffer (readRest watermark size)
  termination_by size
  decreasing_by exact readRest_lt watermark ‹_›

/-- `read_blocking`. -/
def readBlocking (fspi buffer : Nat) (size : Nat) : Driver Int := do
  check (size ≤ 32 * 32)
  let iprxfcr ← load (fspi + Reg.iprxfcr)
  -- the RX FIFO is flushed again here, after the command has been triggered
  orReg (fspi + Reg.iprxfcr) 1#32
  readLoop fspi (watermarkOf iprxfcr) buffer size
  pure 0

/-! ## `transfer_blocking` -/

/-- The value of `IPCR1`: data size, sequence index and sequence number of the transfer. -/
def configValue (xfer : FlexspiTransfer) : Word :=
  let dataSize : Word := match xfer.cmdType with
    | .read | .write | .config => xfer.dataSize.setWidth 32
    | .command => 0#32
  dataSize ||| ((xfer.seqIndex.setWidth 32 <<< 16) |||
    ((xfer.seqNumber.setWidth 32 - 1#32) <<< 24))

/-- `transfer_blocking` up to the trigger: the command is set up and the FIFOs are flushed. -/
def setupCommand (fspi : Nat) (xfer : FlexspiTransfer) : Driver Unit := do
  orReg (fspi + Reg.flshcr2 xfer.port.index) (bit 31)
  clearFlags fspi
  store (fspi + Reg.ipcr0) xfer.deviceAddress
  orReg (fspi + Reg.iptxfcr) 1#32
  orReg (fspi + Reg.iprxfcr) 1#32
  store (fspi + Reg.ipcr1) (configValue xfer)

/-- The data phase of `transfer_blocking`: the branches on `cmdType` after the trigger. -/
def moveData (fspi : Nat) (xfer : FlexspiTransfer) : Driver Int :=
  match xfer.cmdType with
  | .write | .config => writeBlocking fspi xfer.data xfer.dataSize.toNat
  | .read => readBlocking fspi xfer.data xfer.dataSize.toNat
  | .command => .abort

/-- The end of `transfer_blocking`: wait for the command, then acknowledge bit 6. -/
def awaitCommand (fspi : Nat) (result : Int) : Driver Int := do
  waitBit (fspi + Reg.intr) cmdDone
  if result = 0 then do
    orReg (fspi + Reg.intr) (bit txEmpty)
    pure result
  else pure result

/-- `transfer_blocking`. -/
def transferBlocking (fspi : Nat) (xfer : FlexspiTransfer) : Driver Int := do
  setupCommand fspi xfer
  orReg (fspi + Reg.ipcmd) 1#32
  let result ← moveData fspi xfer
  awaitCommand fspi result

end QspiTool
