import QspiTool.Device.Lut
import QspiTool.Driver.CommandWord
import QspiTool.Interaction.Observe

/-!
# The sequencer

What the controller is for: it keeps a table of instruction sequences and executes commands, each
of them a sequence of the table with an address and a number of data bytes.  `Sequencer` is that
machine without registers, locks, flags and FIFOs; a public call is one step of it, or none.

On the controller a command is what the registers say when `IPCMD` is stored to with bit 0 set
(`executes`); an observer of these stores makes the list of the commands executed.
-/

namespace QspiTool

open Words Interaction Machine

/-- A command as it is executed. -/
structure Command where
  /-- The four words of the sequence; none when its index lies behind the LUT. -/
  words : List Word
  address : Word
  size : Nat
  /-- How many sequences follow the first. -/
  more : Nat
  deriving DecidableEq

/-- The words of sequence `n` of a LUT given byte by byte. -/
def sequenceWords (lut : Nat → Byte) (n : Nat) : List Word :=
  if n < 32 then (List.range 4).map fun i => ofBytes fun j => lut (16 * n + 4 * i + j) else []

lemma sequenceWords_congr {lut lut' : Nat → Byte} (h : ∀ i < 512, lut i = lut' i) (n : Nat) :
    sequenceWords lut n = sequenceWords lut' n := by
  unfold sequenceWords
  split
  · rename_i hn
    refine List.map_congr_left fun i hi => ?_
    have hlt := List.mem_range.mp hi
    have hword : ∀ j < 4, lut (16 * n + 4 * i + j) = lut' (16 * n + 4 * i + j) := fun j hj =>
      h _ (by omega)
    simp only [ofBytes, hword 0 (by decide), hword 1 (by decide), hword 2 (by decide),
      hword 3 (by decide)]
  · rfl

/-! ## The abstract machine -/

/-- The table, and the commands executed so far, oldest first. -/
structure Sequencer where
  lut : Nat → Byte
  executed : List Command

namespace Sequencer

variable (q : Sequencer)

/-- The command of a public transfer.  Its size is narrowed to 16 bits. -/
def command (kind : Transfer) (addr : Word) (size : BitVec 64) : Command where
  words := sequenceWords q.lut kind.seqIndex.toNat
  address := addr
  size := size.toNat % 65536
  more := 0

/-- The commands that a public call executes. -/
def started : Call → List Command
  | .transfer kind addr _ size => [q.command kind addr size]
  | .init | .deInit | .setupLut _ _ | .busy => []

/-- The table behind a public call, the caller's memory being `mem`. -/
def installed (mem : Nat → Byte) : Call → Nat → Byte
  | .setupLut table len => overlay mem table len q.lut
  | .init | .deInit | .busy | .transfer _ _ _ _ => q.lut

/-- A public call. -/
def call (mem : Nat → Byte) (call : Call) : Sequencer where
  lut := q.installed mem call
  executed := q.executed ++ q.started call

/-- Some calls, in order. -/
def after (ms : List (Made Bus DeviceAction)) : Sequencer :=
  ms.foldl (fun q m => q.call m.before.state.mem m.call) q

@[simp] lemma after_snoc (ms : List (Made Bus DeviceAction)) (m : Made Bus DeviceAction) :
    q.after (ms ++ [m]) = (q.after ms).call m.before.state.mem m.call := by
  simp [after]

end Sequencer

/-! ## The commands of the controller -/

/-- The sequencer of a controller that has executed nothing yet. -/
def Core.sequencer (c : Core) : Sequencer := ⟨lutByte c, []⟩

/-- The command that the registers describe. -/
def Core.command (c : Core) : Command where
  words := sequenceWords (lutByte c) (ipcr1SeqIndex.read (c.reg Reg.ipcr1)).toNat
  address := c.reg Reg.ipcr0
  size := (ipcr1DataSize.read (c.reg Reg.ipcr1)).toNat
  more := (ipcr1SeqNumber.read (c.reg Reg.ipcr1)).toNat

/-- The commands that an access makes the controller execute. -/
def executes (fspi : Nat) (s : Bus) : Access → List Command
  | .store a v => if a = fspi + Reg.ipcmd ∧ v.getLsbD 0 = true then [s.dev.core.command] else []
  | _ => []

/-- The commands executed since a call began at `b`, as the trace `t` tells. -/
def executedSince (permits : Permits) (fspi : Nat) (b : Stage Bus DeviceAction) (t : BusTrace) :
    List Command :=
  (flexspi permits fspi).observed (executes fspi) b.state (t.drop b.trace.length)

/-- The commands executed in the course of some calls. -/
def executedBy (permits : Permits) (fspi : Nat) (ms : List (Made Bus DeviceAction)) :
    List Command :=
  ms.flatMap fun m => executedSince permits fspi m.before m.after.trace

end QspiTool
