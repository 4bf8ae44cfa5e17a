import Mathlib.Logic.Function.Basic
import QspiTool.Driver.Transfer
import QspiTool.Interaction.Progress

/-!
# The FlexSPI controller as a machine

The device the driver talks to, as far as the driver relies on it:

* `INTR` flags are write-1-to-clear;
* a store to `INTR` with bit 6 set appends the `2 * w` words of the TX window
  `TFDR[0 .. 2w - 1]` to the TX FIFO, `w` the watermark in `IPTXFCR`;
* a store to `INTR` with bit 7 set drops one watermark level, `2 * w` words with `w` the
  watermark in `IPRXFCR`, from the front of the RX FIFO, or what is there if it is less;
* a store with bit 0 set to `IPTXFCR`, `IPRXFCR` or `IPCMD` empties the TX FIFO, empties the
  RX FIFO, or starts the command;
* `RFDR[i]` reads the `i`-th word of the RX FIFO;
* the LUT takes stores only while it is unlocked.

Between two accesses of the driver the device may raise flags, receive words, complete the
running command and change its status registers.  `Permits` says which of these it may do in
which state; the theorems quantify over the schedules of the actions permitted.

A controller is split into its `Core`, which only the driver changes, and the parts that
move by themselves.  FIFOs are kept as histories: `txFifo` is everything appended since the
TX FIFO was last emptied, and the RX FIFO is `received` without its first `popped` words.
-/

namespace QspiTool

open Words Interaction

/-! ## State -/

/-- The part of the controller that changes only by stores of the driver. -/
structure Core where
  /-- The registers by byte offset; the flags, the status registers and the RX FIFO are not
  kept here. -/
  reg : Nat → Word
  /-- The words appended to the TX FIFO since it was last emptied, oldest first. -/
  txFifo : List Word
  /-- How many of the received words have left the RX FIFO. -/
  popped : Nat
  /-- How many words had been received when the last command was triggered. -/
  base : Nat
  /-- The last store to `LUTKEY` held the key, and `LUTCR` has not been stored to since. -/
  lutKey : Bool
  lutLocked : Bool

/-- The controller. -/
structure Controller where
  core : Core
  intr : Word
  /-- The status registers by byte offset. -/
  status : Nat → Word
  /-- Every word the device has received, oldest first. -/
  received : List Word
  /-- A command has been triggered and has not completed. -/
  running : Bool

namespace Core

/-- The watermark of the TX FIFO. -/
def txWatermark (c : Core) : Watermark := watermarkOf (c.reg Reg.iptxfcr)

/-- The watermark of the RX FIFO. -/
def rxWatermark (c : Core) : Watermark := watermarkOf (c.reg Reg.iprxfcr)

/-- The words a push appends to the TX FIFO. -/
def txWindow (c : Core) : List Word :=
  (List.range (2 * c.txWatermark.val)).map fun i => c.reg (Reg.tfdr i)

def setReg (c : Core) (off : Nat) (v : Word) : Core :=
  { c with reg := Function.update c.reg off v }

end Core

/-! ## Accesses of the driver -/

/-- What a store does to the core when `n` words have been received so far. -/
def Core.store (c : Core) (n off : Nat) (v : Word) : Core :=
  if off = Reg.intr then
    { c with
      txFifo := if v.getLsbD txEmpty then c.txFifo ++ c.txWindow else c.txFifo
      popped := if v.getLsbD rxWatermarkFlag then min n (c.popped + 2 * c.rxWatermark.val)
        else c.popped }
  else if Reg.IsStatus off then c
  else if off = Reg.iptxfcr then
    { c.setReg off v with txFifo := if v.getLsbD 0 then [] else c.txFifo }
  else if off = Reg.iprxfcr then
    { c.setReg off v with popped := if v.getLsbD 0 then n else c.popped }
  else if off = Reg.ipcmd then
    { c.setReg off v with base := if v.getLsbD 0 then n else c.base }
  else if off = Reg.lutkey then
    { c.setReg off v with lutKey := decide (v = lutkeyValue) }
  else if off = Reg.lutcr then
    { c.setReg off v with
      lutKey := false
      lutLocked := if c.lutKey then
          if v = lockerLock then true else if v = lockerUnlock then false else c.lutLocked
        else c.lutLocked }
  else if Reg.IsLut off ∧ c.lutLocked = true then c
  else c.setReg off v

/-- A byte store: only the LUT, while it is unlocked, takes one. -/
def Core.store8 (c : Core) (off : Nat) (b : Byte) : Core :=
  if Reg.IsLut off ∧ c.lutLocked = false then
    c.setReg (4 * (off / 4)) (setByte (c.reg (4 * (off / 4))) (off % 4) b)
  else c

namespace Controller

/-- The words in the RX FIFO. -/
def rxFifo (d : Controller) : List Word := d.received.drop d.core.popped

/-- A load.  `RFDR[i]` past the words in the FIFO reads the word kept at its offset. -/
def load (d : Controller) (off : Nat) : Word :=
  if off = Reg.intr then d.intr
  else if Reg.IsStatus off then d.status off
  else if Reg.IsRfdr off then d.rxFifo[(off - 0x100) / 4]?.getD (d.core.reg off)
  else d.core.reg off

/-- A store. -/
def store (d : Controller) (off : Nat) (v : Word) : Controller where
  core := d.core.store d.received.length off v
  intr := if off = Reg.intr then d.intr &&& ~~~v else d.intr
  status := d.status
  received := d.received
  running := if off = Reg.ipcmd ∧ v.getLsbD 0 = true then true else d.running

end Controller

/-- The controller after power-up: registers zero, FIFOs empty, nothing running. -/
def Controller.reset : Controller where
  core := {
    reg := fun _ => 0#32
    txFifo := []
    popped := 0
    base := 0
    lutKey := false
    lutLocked := true }
  intr := 0#32
  status := fun _ => 0#32
  received := []
  running := false

/-! ## Actions of the device -/

/-- What the device may do by itself. -/
inductive DeviceAction
  /-- Raise `INTR` flags. -/
  | raise (flags : Word)
  /-- Append a received word to the RX FIFO. -/
  | receive (v : Word)
  /-- Complete the running command and raise bit 0. -/
  | complete
  | setStatus (off : Nat) (v : Word)
  deriving DecidableEq

def Controller.perform (d : Controller) : DeviceAction → Controller
  | .raise flags => { d with intr := d.intr ||| flags }
  | .receive v => { d with received := d.received ++ [v] }
  | .complete => { d with intr := d.intr ||| bit cmdDone, running := false }
  | .setStatus off v => { d with status := Function.update d.status off v }

/-- The flags an action raises. -/
def DeviceAction.flags : DeviceAction → Word
  | .raise flags => flags
  | .complete => bit cmdDone
  | .receive _ | .setStatus _ _ => 0#32

lemma Controller.perform_intr (d : Controller) (a : DeviceAction) :
    (d.perform a).intr = d.intr ||| a.flags := by
  cases a <;> simp [Controller.perform, DeviceAction.flags]

/-- Which actions a device may take in which state. -/
abbrev Permits := Controller → DeviceAction → Bool

/-- The device that may do anything at any time. -/
def anyAction : Permits := fun _ _ => true

/-- How many words the device delivers for a read of `size` bytes: its FIFO entries are of 64
bits. -/
def deliveredWords (size : Nat) : Nat := 2 * ((size + 7) / 8)

/-! ## The machine -/

/-- The device and the memory that holds the callers' buffers. -/
structure Bus where
  dev : Controller
  mem : Nat → Byte

/-- A word store to memory, little-endian. -/
def storeWord (mem : Nat → Byte) (a : Nat) (v : Word) : Nat → Byte :=
  fun x => if a ≤ x ∧ x < a + 4 then byteAt v (x - a) else mem x

/-- The controller mapped at `fspi`.  The transfer functions make no system calls. -/
def Bus.exec (fspi : Nat) : (o : Access) → Bus → o.Res × Bus
  | .load a, s => (s.dev.load (a - fspi), s)
  | .store a v, s => ((), { s with dev := s.dev.store (a - fspi) v })
  | .store8 a b, s => ((), { s with dev := { s.dev with core := s.dev.core.store8 (a - fspi) b } })
  | .read8 a, s => (s.mem a, s)
  | .read32 a, s => (ofBytes fun i => s.mem (a + i), s)
  | .write8 a b, s => ((), { s with mem := Function.update s.mem a b })
  | .write32 a v, s => ((), { s with mem := storeWord s.mem a v })
  | .openMem, s => (-1, s)
  | .close _, s => ((), s)
  | .mmap _ _ _, s => (0, s)
  | .munmap _ _, s => ((), s)
  | .pageSize, s => (4096, s)

/-- The controller at `fspi`, taking the actions `permits` allows. -/
def flexspi (permits : Permits) (fspi : Nat) : Machine bus Bus DeviceAction where
  exec := Bus.exec fspi
  act a s := if permits s.dev a then some { s with dev := s.dev.perform a } else none

/-- What a run of the driver on the controller records. -/
abbrev BusTrace := Trace bus DeviceAction

/-! ## What the device can do between two accesses -/

variable {permits : Permits} {fspi : Nat} {s s' : Bus} {a : DeviceAction}

/-- Everything an action may change, in one statement: the core and the memory stay, flags
are only raised, words are only appended. -/
lemma act_spec (h : (flexspi permits fspi).act a s = some s') :
    permits s.dev a = true ∧ s'.mem = s.mem ∧ s'.dev.core = s.dev.core ∧
      (∀ n, s.dev.intr.getLsbD n = true → s'.dev.intr.getLsbD n = true) ∧
      s.dev.received <+: s'.dev.received := by
  simp only [flexspi] at h
  split at h
  · rename_i hperm
    obtain rfl := Option.some.inj h
    refine ⟨hperm, rfl, ?_, ?_, ?_⟩
    · cases a <;> rfl
    · intro n hn
      cases a <;> simp [Controller.perform, hn]
    · cases a <;> simp [Controller.perform]
  · cases h

lemma act_eq (h : (flexspi permits fspi).act a s = some s') :
    s' = { s with dev := s.dev.perform a } := by
  simp only [flexspi] at h
  split at h
  · exact (Option.some.inj h).symm
  · cases h

lemma act_of_permits (fspi : Nat) (h : permits s.dev a = true) :
    (flexspi permits fspi).act a s = some { s with dev := s.dev.perform a } := by
  simp [flexspi, h]

/-- What the driver alone decides is stable. -/
lemma stable_core (P : (Nat → Byte) → Core → Prop) :
    (flexspi permits fspi).Stable fun s _ => P s.mem s.dev.core := by
  intro a s s' t h hact
  obtain ⟨-, hmem, hcore, -, -⟩ := act_spec hact
  rwa [hmem, hcore]

/-- A raised flag stays raised until the driver clears it. -/
lemma stable_flag (n : Nat) :
    (flexspi permits fspi).Stable fun s _ => s.dev.intr.getLsbD n = true :=
  fun _ _ _ _ h hact => (act_spec hact).2.2.2.1 n h

/-! ## Accesses, one by one -/

@[simp] lemma exec_load (off : Nat) (s : Bus) :
    (flexspi permits fspi).exec (.load (fspi + off)) s = (s.dev.load off, s) := by
  simp [flexspi, Bus.exec]

@[simp] lemma exec_store (off : Nat) (v : Word) (s : Bus) :
    (flexspi permits fspi).exec (.store (fspi + off) v) s =
      ((), { s with dev := s.dev.store off v }) := by
  simp [flexspi, Bus.exec]

@[simp] lemma exec_store8 (off : Nat) (b : Byte) (s : Bus) :
    (flexspi permits fspi).exec (.store8 (fspi + off) b) s =
      ((), { s with dev := { s.dev with core := s.dev.core.store8 off b } }) := by
  simp [flexspi, Bus.exec]

@[simp] lemma exec_read8 (x : Nat) (s : Bus) :
    (flexspi permits fspi).exec (.read8 x) s = (s.mem x, s) := rfl

@[simp] lemma exec_read32 (x : Nat) (s : Bus) :
    (flexspi permits fspi).exec (.read32 x) s = (ofBytes fun i => s.mem (x + i), s) := rfl

@[simp] lemma exec_write8 (x : Nat) (b : Byte) (s : Bus) :
    (flexspi permits fspi).exec (.write8 x b) s =
      ((), { s with mem := Function.update s.mem x b }) := rfl

@[simp] lemma exec_write32 (x : Nat) (v : Word) (s : Bus) :
    (flexspi permits fspi).exec (.write32 x v) s =
      ((), { s with mem := storeWord s.mem x v }) := rfl

namespace Core

variable (c : Core) (n : Nat) {off : Nat} (v : Word)

/-- What a store does to the registers: `INTR`, the status registers and the locked LUT keep
nothing of it. -/
lemma store_reg_eq (off : Nat) : (c.store n off v).reg =
    if off = Reg.intr then c.reg
    else if Reg.IsStatus off then c.reg
    else if Reg.IsLut off ∧ c.lutLocked = true then c.reg
    else Function.update c.reg off v := by
  simp only [store, apply_ite Core.reg, setReg]
  by_cases hlut : Reg.IsLut off ∧ c.lutLocked = true
  · -- none of the registers with a branch of their own lies in the LUT
    have hne : ∀ x < 0x200, off ≠ x := by
      rintro x hx rfl
      exact absurd hlut.1.1 (Nat.not_le.mpr hx)
    simp only [hne Reg.iptxfcr (by decide), hne Reg.iprxfcr (by decide),
      hne Reg.ipcmd (by decide), hne Reg.lutkey (by decide), hne Reg.lutcr (by decide), if_false]
  · simp only [if_neg hlut, ite_self]

lemma store_reg (h : Reg.IsCell off) : (c.store n off v).reg = Function.update c.reg off v := by
  obtain ⟨h₁, h₂, h₃⟩ := h
  rw [store_reg_eq, if_neg h₁, if_neg h₂, if_neg fun h => h₃ h.1]

/-- A store leaves the registers at other offsets alone. -/
lemma store_reg_of_ne {x : Nat} (h : x ≠ off) : (c.store n off v).reg x = c.reg x := by
  have hupdate : Function.update c.reg off v x = c.reg x := Function.update_of_ne h _ _
  rw [store_reg_eq]
  simp only [apply_ite (fun r : Nat → Word => r x), hupdate, ite_self]

/-- A byte store changes at most the LUT. -/
lemma store8_reg_of_lt {x : Nat} (hx : x < 0x200) (b : Byte) :
    (c.store8 off b).reg x = c.reg x := by
  unfold store8
  split
  · rename_i h
    have hlut : 0x200 ≤ 4 * (off / 4) := by
      have := h.1.1
      omega
    simp only [setReg]
    exact Function.update_of_ne (by omega) _ _
  · rfl

lemma store_txFifo (h : off ≠ Reg.intr) (h' : off ≠ Reg.iptxfcr) :
    (c.store n off v).txFifo = c.txFifo := by
  simp only [store, if_neg h, if_neg h', apply_ite Core.txFifo, setReg, ite_self]

/-- What has left the RX FIFO does not come back. -/
lemma store_popped (h : c.popped = n) : (c.store n off v).popped = n := by
  have hmin : min n (n + 2 * c.rxWatermark.val) = n := Nat.min_eq_left (Nat.le_add_right _ _)
  simp only [store, apply_ite Core.popped, setReg, h, hmin, ite_self]

lemma store_base (h : off ≠ Reg.ipcmd) : (c.store n off v).base = c.base := by
  simp only [store, apply_ite Core.base, setReg, if_neg h, ite_self]

lemma store_status (h : Reg.IsStatus off) : c.store n off v = c := by
  have hne : off ≠ Reg.intr := by
    have := h.1
    unfold Reg.intr
    omega
  rw [store, if_neg hne, if_pos h]

end Core

@[simp] lemma Core.store_intr (c : Core) (n : Nat) (v : Word) :
    c.store n Reg.intr v = { c with
      txFifo := if v.getLsbD txEmpty then c.txFifo ++ c.txWindow else c.txFifo
      popped := if v.getLsbD rxWatermarkFlag then min n (c.popped + 2 * c.rxWatermark.val)
        else c.popped } := rfl

@[simp] lemma Core.store_iptxfcr (c : Core) (n : Nat) (v : Word) :
    c.store n Reg.iptxfcr v =
      { c.setReg Reg.iptxfcr v with txFifo := if v.getLsbD 0 then [] else c.txFifo } := rfl

@[simp] lemma Core.store_iprxfcr (c : Core) (n : Nat) (v : Word) :
    c.store n Reg.iprxfcr v =
      { c.setReg Reg.iprxfcr v with popped := if v.getLsbD 0 then n else c.popped } := rfl

@[simp] lemma Core.store_ipcmd (c : Core) (n : Nat) (v : Word) :
    c.store n Reg.ipcmd v =
      { c.setReg Reg.ipcmd v with base := if v.getLsbD 0 then n else c.base } := rfl

lemma cell_flshcr2 (port : FlexspiPort) : Reg.IsCell (Reg.flshcr2 port.index) := by
  cases port <;> decide

lemma cell_tfdr {i : Nat} (h : i < 32) : Reg.IsCell (Reg.tfdr i) := by
  simp only [Reg.IsCell, Reg.IsStatus, Reg.IsLut, Reg.tfdr, Reg.intr]
  omega

@[simp] lemma Controller.load_intr (d : Controller) : d.load Reg.intr = d.intr := rfl

/-- A store to `INTR` clears the flags written. -/
@[simp] lemma Controller.store_intr (d : Controller) (v : Word) :
    (d.store Reg.intr v).intr = d.intr &&& ~~~v := rfl

/-- Only a store to `IPCMD` starts a command. -/
lemma Controller.store_running (d : Controller) {off : Nat} (v : Word) (h : off ≠ Reg.ipcmd) :
    (d.store off v).running = d.running := by
  simp [Controller.store, h]

lemma Controller.load_core (d : Controller) {off : Nat} (h : off ≠ Reg.intr)
    (h' : ¬ Reg.IsStatus off) (h'' : ¬ Reg.IsRfdr off) : d.load off = d.core.reg off := by
  rw [Controller.load, if_neg h, if_neg h', if_neg h'']

lemma Controller.load_rfdr (d : Controller) {i : Nat} (h : i < 32) :
    d.load (Reg.rfdr i) = d.rxFifo[i]?.getD (d.core.reg (Reg.rfdr i)) := by
  have h₁ : Reg.rfdr i ≠ Reg.intr := Reg.rfdr_ne (by decide) i
  have h₂ : ¬ Reg.IsStatus (Reg.rfdr i) := by simp only [Reg.IsStatus, Reg.rfdr]; omega
  have h₃ : Reg.IsRfdr (Reg.rfdr i) := by
    simp only [Reg.IsRfdr, Reg.rfdr] at h ⊢
    omega
  have hi : (Reg.rfdr i - 0x100) / 4 = i := by simp only [Reg.rfdr]; omega
  rw [Controller.load, if_neg h₁, if_neg h₂, if_pos h₃, hi]

end QspiTool
