import QspiTool.Driver.Api
import QspiTool.Log.Levels

/-!
# The messages of the tool

What `qspi.c` and `main.c` have to say, a constructor for each of their messages, with the level and
the text of each.  The messages at the levels trace and fatal begin with the place in the source
they come from.
-/

namespace QspiTool

open Words CText

/-- The register banks that `QSPI_Init` maps. -/
inductive Bank
  | flexspi
  | ccm
  | iomuxc
  deriving DecidableEq

namespace Bank

def base : Bank → Nat
  | flexspi => flexspiBase
  | ccm => ccmBase
  | iomuxc => iomuxcBase

def name : Bank → Text
  | flexspi => "FlexSPI".toList
  | ccm => "CCM".toList
  | iomuxc => "IOMUXC".toList

/-- The line that says that the bank could not be mapped. -/
def line : Bank → Nat
  | flexspi => 106
  | ccm => 122
  | iomuxc => 149

end Bank

inductive Message
  | starting
  | initializationFailed
  | initialized
  | writeFailed
  | openingMem
  | openFailed (error : Text)
  | openedMem
  | mmapFailed (bank : Bank) (error : Text)
  | requestFailed
  | iomuxStarts
  | iomuxDone
  | lutStarts
  | lutDone
  | busyCheck
  | notInitialized
  | underflow
  | nothingToDeInit
  | deInitialized
  | transfer (kind : Transfer) (addr : Word) (size : BitVec 64)
  | dataSize (size : BitVec 16)
  | reading (size : BitVec 16)
  | readCompleted
  | waiting
  /-- A `LOG_REGISTER`. -/
  | register (line phys virt : Nat) (value : Word)
  | segfault (siAddr : Nat)
  deriving DecidableEq

/-- The public name of a transfer. -/
def Transfer.name : Transfer → Text
  | write _ => "QSPI_Write".toList
  | read => "QSPI_Read".toList
  | readSample => "QSPI_ReadSample".toList

/-- The line of the first `LOG_REGISTER` behind a transfer. -/
def Transfer.line : Transfer → Nat
  | write _ => 523
  | read => 547
  | readSample => 571

/-- `SLOG_THROW_LOCATION`. -/
def location (file : Text) (line : Nat) : Text :=
  "[".toList ++ file ++ ":".toList ++ decimal 0 line ++ "] ".toList

def inMain (line : Nat) (text : Text) : Text := location "src/main.c".toList line ++ text

def inQspi (line : Nat) (text : Text) : Text := location "src/qspi.c".toList line ++ text

/-- `%p`. -/
def pointer (a : Nat) : Text :=
  if a = 0 then "(nil)".toList else "0x".toList ++ Nat.toDigits 16 a

namespace Message

/-- The level: `slogi`, `slogt` or `slogf`. -/
def level : Message → Level
  | starting | initialized | lutStarts | lutDone | busyCheck | nothingToDeInit
  | transfer _ _ _ => .info
  | initializationFailed | writeFailed | mmapFailed _ _ | notInitialized | underflow
  | segfault _ => .fatal
  | openingMem | openFailed _ | openedMem | requestFailed | iomuxStarts | iomuxDone
  | deInitialized | dataSize _ | reading _ | readCompleted | waiting | register _ _ _ _ => .trace

/-- The format with its arguments. -/
def text : Message → Text
  | starting => "Starting QSPI tool v0.1.5...".toList
  | initializationFailed => inMain 73 "QSPI initialization failed".toList
  | initialized => "QSPI initialized successfully".toList
  | writeFailed => inMain 80 "QSPI write failed".toList
  | openingMem => inQspi 401 "opening /dev/mem...".toList
  | openFailed error => inQspi 405 ("Failed to open /dev/mem: ".toList ++ error)
  | openedMem => inQspi 409 "/dev/mem opened successfully".toList
  | mmapFailed bank error =>
      inQspi bank.line ("Failed to mmap ".toList ++ bank.name ++ " base: ".toList ++ error)
  | requestFailed => inQspi 413 "Failed to request FlexSPI memory".toList
  | iomuxStarts => inQspi 420 "IOMUX initialization...".toList
  | iomuxDone => inQspi 422 "IOMUX initialized.".toList
  | lutStarts => "Setting up LUT...".toList
  | lutDone => "LUT setup completed.".toList
  | busyCheck => "QSPI_Busy check".toList
  | notInitialized => inQspi 461 "QSPI is not initialized".toList
  | underflow => inQspi 473 "QSPI error: IP RX FIFO underflow".toList
  | nothingToDeInit => "QSPI is not initialized, nothing to deinitialize".toList
  | deInitialized => inQspi 502 "QSPI deinitialized successfully".toList
  | transfer kind addr size =>
      kind.name ++ ": addr=0x".toList ++ hex 8 addr.toNat ++ ", size=".toList ++
        decimal 0 size.toNat
  | dataSize size => inQspi 337 ("Data size: ".toList ++ decimal 0 size.toNat)
  | reading size => inQspi 356 ("Reading ".toList ++ decimal 0 size.toNat ++ " bytes...".toList)
  | readCompleted => inQspi 358 "Read completed.".toList
  | waiting => inQspi 371 "Waiting for command completion...".toList
  | register line phys virt value =>
      inQspi line ("0x".toList ++ hex 0 phys ++ " (0x".toList ++ hex 0 virt ++ "): 0x".toList ++
        hex 8 value.toNat)
  | segfault siAddr => inQspi 79 ("Caught segfault at address ".toList ++ pointer siAddr)

/-- The call that says it. -/
def said (m : Message) : LevelCall := .say m.level true m.text

end Message

end QspiTool
