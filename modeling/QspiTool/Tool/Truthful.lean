import QspiTool.Properties.LogLevels
import QspiTool.Properties.MainProgram
import QspiTool.Tool.Logged

/-!
# What the tool says is what it does

`Honest` relates a function of the tool to the function of the driver: its log left out, the first
is the second, and what it says is true of what it does (`Truthful`).  The messages that are about
an operation come directly behind it and give its answer, no operation fails without a message, and
a message that says how something has gone is only said when it has gone so (`Message.Fits`).  What
a message can be held to is what the operations so far tell of the driver: its `View`.

The logger never ends the process: the tool sets it up without a mutex, so that there is nothing in
it that can fail (`Account`).
-/

namespace QspiTool

open Words Interaction Machine Oracle CText

variable {m : Message} {ms : List Message} {l : List (Deed bus)} {g : Slog} {v : Desk}
  {α β γ : Type}

/-! ## What the operations tell -/

/-- An `open` or an `mmap` that has failed. -/
def Unsuccessful : Deed bus → Prop
  | ⟨.openMem, fd⟩ => (show Int from fd) < 0
  | ⟨.mmap _ _ _, map⟩ => (show Nat from map) = mapFailed
  | _ => False

instance : DecidablePred Unsuccessful
  | ⟨.openMem, fd⟩ => inferInstanceAs (Decidable ((show Int from fd) < 0))
  | ⟨.mmap _ _ _, map⟩ => inferInstanceAs (Decidable ((show Nat from map) = mapFailed))
  | ⟨.load _, _⟩ | ⟨.store _ _, _⟩ | ⟨.store8 _ _, _⟩ | ⟨.read8 _, _⟩ | ⟨.read32 _, _⟩
  | ⟨.write8 _ _, _⟩ | ⟨.write32 _ _, _⟩ | ⟨.close _, _⟩ | ⟨.munmap _ _, _⟩
  | ⟨.pageSize, _⟩ => .isFalse id

/-- How much of a bank is mapped. -/
def Bank.size (pageSize : Nat) : Bank → Nat
  | flexspi => Reg.size
  | ccm => pageSize64K
  | iomuxc => pageSize

/-- What the operations so far tell of the driver. -/
structure View where
  /-- The last `QSPI_Init` has mapped the FlexSPI bank. -/
  attached : Bool
  /-- It has, and the bank has not been given up since. -/
  initDone : Bool
  pageSize : Nat
  /-- Where the registers of a bank have been mapped. -/
  registers : Bank → Nat
  last : Option (Deed bus)

namespace View

/-- The bank is mapped at `map`. -/
def mapped (w : View) (bank : Bank) (map : Nat) : View :=
  { w with registers :=
      Function.update w.registers bank (map + pageOffset bank.base w.pageSize) }

@[simp] lemma mapped_registers (w : View) (bank : Bank) (map : Nat) :
    (w.mapped bank map).registers bank = map + pageOffset bank.base w.pageSize :=
  Function.update_self bank _ _

lemma mapped_registers_ne (w : View) {bank bank' : Bank} (h : bank' ≠ bank) (map : Nat) :
    (w.mapped bank map).registers bank' = w.registers bank' :=
  Function.update_of_ne h _ _

/-- One more operation. -/
def step (w : View) (d : Deed bus) : View :=
  { (match d with
    | ⟨.pageSize, p⟩ => 
        { w with attached := false, initDone := false, pageSize := show Nat from p }
    | ⟨.mmap size _ offset, map⟩ =>
        if (show Nat from map) = mapFailed then w
        else if size = Bank.flexspi.size w.pageSize then
          { w.mapped .flexspi map with attached := true, initDone := true }
        else if size = Bank.ccm.size w.pageSize ∧ offset = pageBase ccmBase w.pageSize then
          w.mapped .ccm map
        else w.mapped .iomuxc map
    | ⟨.close _, _⟩ => { w with initDone := false }
    | _ => w) with last := some d }

/-- Some operations, in order. -/
def after (w : View) (l : List (Deed bus)) : View := l.foldl step w

@[simp] lemma after_nil (w : View) : w.after [] = w := rfl

@[simp] lemma after_snoc (w : View) (l : List (Deed bus)) (d : Deed bus) :
    w.after (l ++ [d]) = (w.after l).step d := by
  simp [after]

@[simp] lemma step_last (w : View) (d : Deed bus) : (w.step d).last = some d := rfl

/-- An `mmap` that fails tells nothing but that. -/
lemma step_failed (w : View) (size : Nat) (fd : Int) (offset : Nat) :
    w.step ⟨.mmap size fd offset, mapFailed⟩ =
      { w with last := some ⟨.mmap size fd offset, mapFailed⟩ } := by
  simp only [step, if_true]

/-- What a context tells before any operation. -/
def of (ctx : QspiContext) : View :=
  ⟨ctx.initDone, ctx.initDone, ctx.pageSize, fun _ => ctx.flexspi, none⟩

/-- The context is as the operations say. -/
structure Knows (ctx : QspiContext) (w : View) : Prop where
  initDone : w.initDone = ctx.initDone
  flexspi : w.registers .flexspi = ctx.flexspi

lemma knows_of (ctx : QspiContext) : Knows ctx (of ctx) := ⟨rfl, rfl⟩

/-- Accesses to registers and to buffers do not matter. -/
def Lasting (P : View → Prop) : Prop := ∀ w last, P w → P { w with last := last }

lemma lasting_knows (ctx : QspiContext) : Lasting (Knows ctx) :=
  fun _ _ h => ⟨h.initDone, h.flexspi⟩

end View

open View

/-- An access to a register or to a buffer. -/
def Routine : Head bus → Prop
  | .call (.load _) | .call (.store _ _) | .call (.store8 _ _) | .call (.read8 _)
  | .call (.read32 _) | .call (.write8 _ _) | .call (.write32 _ _) => True
  | .call _ => False
  | .done | .abort | .poll _ => True

lemma Routine.step {o : Access} (h : Routine (.call o)) (r : o.Res) (w : View) :
    w.step ⟨o, r⟩ = { w with last := some ⟨o, r⟩ } := by
  cases o <;> first | rfl | exact h.elim

lemma Routine.successful {o : Access} (h : Routine (.call o)) (r : o.Res) :
    ¬ Unsuccessful ⟨o, r⟩ := by
  cases o <;> first | exact id | exact h.elim

/-! ## Truth -/

/-- The message is about this operation, and right. -/
def Message.Reports : Message → Deed bus → Prop
  | openFailed _, ⟨.openMem, fd⟩ => (show Int from fd) < 0
  | mmapFailed bank _, ⟨.mmap _ _ offset, map⟩ =>
      (show Nat from map) = mapFailed ∧ ∃ pageSize, offset = pageBase bank.base pageSize
  | register _ _ virt value, ⟨.load a, v⟩ => virt = a ∧ value = v
  | _, _ => False

/-- The message is about an operation. -/
def Message.isReport : Message → Bool
  | openFailed _ | mmapFailed _ _ | register _ _ _ _ => true
  | _ => false

/-- The message fits what the operations so far tell.  `QSPI write failed` never does, since no
transfer fails; the messages that only say what is about to be done always do, and so does
`IOMUX initialized.`, which is said whether its bank has been mapped or not. -/
def Message.Fits (w : View) : Message → Prop
  | openedMem => ∃ fd : Int, 0 ≤ fd ∧ w.last = some ⟨.openMem, fd⟩
  | mmapFailed bank _ => ∃ fd, w.last = some
      ⟨.mmap (bank.size w.pageSize) fd (pageBase bank.base w.pageSize), mapFailed⟩
  | requestFailed => ∃ fd, w.last = some
      ⟨.mmap (Bank.flexspi.size w.pageSize) fd (pageBase flexspiBase w.pageSize), mapFailed⟩
  | iomuxStarts => ∃ fd, ∃ map : Nat, map ≠ mapFailed ∧ w.last = some
      ⟨.mmap (Bank.flexspi.size w.pageSize) fd (pageBase flexspiBase w.pageSize), map⟩
  | register _ phys virt _ =>
      ∃ bank off, phys = Bank.base bank + off ∧ virt = w.registers bank + off
  | initialized => w.initDone = true
  | initializationFailed => w.attached = false
  | notInitialized | nothingToDeInit => w.initDone = false
  | underflow => ∃ value : Word, w.last = some
      ⟨.load (w.registers .flexspi + Reg.intr), value⟩ ∧ value.getLsbD cmdError = true
  | deInitialized => ∃ fd, w.last = some ⟨.close fd, ()⟩
  | lutDone => w.last = some ⟨.store (w.registers .flexspi + Reg.lutcr) lockerLock, ()⟩
  | writeFailed => False
  | starting | openingMem | openFailed _ | iomuxDone | lutStarts | busyCheck | transfer _ _ _
  | dataSize _ | reading _ | readCompleted | waiting | segfault _ => True

/-- The messages are true of the operations, which come behind what `w₀` tells.  Each message about
an operation comes directly behind it, no operation fails without one, and each message fits what
has been done before it. -/
inductive Truthful (w₀ : View) : List Message → List (Deed bus) → Prop
  | nil : Truthful w₀ [] []
  | remark {ms : List Message} {l : List (Deed bus)} {m : Message} (h : Truthful w₀ ms l)
      (hm : m.isReport = false) (hfits : m.Fits (w₀.after l)) : Truthful w₀ (ms ++ [m]) l
  | deed {ms : List Message} {l : List (Deed bus)} {d : Deed bus} (h : Truthful w₀ ms l)
      (hd : ¬ Unsuccessful d) : Truthful w₀ ms (l ++ [d])
  | report {ms : List Message} {l : List (Deed bus)} {m : Message} {d : Deed bus}
      (h : Truthful w₀ ms l) (hm : m.Reports d) (hfits : m.Fits (w₀.after (l ++ [d]))) :
      Truthful w₀ (ms ++ [m]) (l ++ [d])

/-- What the message has asked the C library: its error text is what `strerror` has answered. -/
def Message.asked : Message → List Entry
  | openFailed error | mmapFailed _ error => [.error error]
  | _ => []

lemma Message.asked_of_remark (hm : m.isReport = false) : m.asked = [] := by
  cases m <;> first | rfl | cases hm

/-- What a message leaves in the journal: what it has asked, and its line if its level is on. -/
def Message.Displays (s : Level → Bool) (m : Message) (part : List Entry) : Prop :=
  ∃ lines, part = m.asked ++ lines.flatten ∧ List.Forall₂ Printed (heard s [m.said]) lines

/-- The terminal shows the messages, as far as their levels are on. -/
def Displayed (s : Level → Bool) (ms : List Message) (es : List Entry) : Prop :=
  ∃ parts, es = parts.flatten ∧ List.Forall₂ (Message.Displays s) ms parts

/-- The levels that are on, and where an account begins. -/
structure Terms where
  levels : Level → Bool
  view : View
  journal : List Entry

variable {T : Terms} {P : View → Prop}

/-- What the terminal has shown since is the truth. -/
def Honestly (T : Terms) (v : Desk) (l : List (Deed bus)) : Prop :=
  ∃ ms es, Truthful T.view ms l ∧ v.journal = T.journal ++ es ∧ Displayed T.levels ms es

/-- The logger as `main` sets it up, with these levels on. -/
structure LogReady (s : Level → Bool) (g : Slog) (v : Desk) : Prop where
  unlocked : g.nTdSafe = false
  config : ∃ flags, g.config = toolConfig flags ∧ FlagsOf flags s
  streams : v.streams = g.logFile.stream ++ []

/-- The logger is ready, and the terminal shows the truth. -/
structure Account (T : Terms) (g : Slog) (v : Desk) (l : List (Deed bus)) : Prop where
  ready : LogReady T.levels g v
  honestly : Honestly T v l

/-- The tool stops where the driver does, when the terminal shows the truth. -/
def StopsHonest (T : Terms) (d : Head bus) (v : Desk) (l : List (Deed bus)) : Prop :=
  d = .abort ∧ Honestly T v l

lemma Displayed.snoc {s : Level → Bool} {es part : List Entry} (h : Displayed s ms es)
    (hm : m.Displays s part) : Displayed s (ms ++ [m]) (es ++ part) := by
  obtain ⟨parts, rfl, hparts⟩ := h
  exact ⟨parts ++ [part], by simp, List.rel_append hparts (.cons hm .nil)⟩

/-! ## The logger -/

/-- A message leaves the logger ready, and is displayed. -/
lemma slogDisplay_displays {s : Level → Bool} (h : LogReady s g v) (m : Message) :
    libc.Ensures (fun h _ => h ≠ .abort) (slogDisplay g m.level.flag true m.text)
      (fun g' v' => LogReady s g' v' ∧
        ∃ lines, v'.journal = v.journal ++ lines.flatten ∧
          List.Forall₂ Printed (heard s [m.said]) lines) v := by
  obtain ⟨flags, hcfg, hflags⟩ := h.config
  refine (LevelCall.ensures h.unlocked h.streams m.said).conseq ?_ ?_
  · rintro _ _ habort rfl
    exact habort
  · rintro g' v' ⟨hunlocked, hstreams, es, leaked, heffect, hjournal⟩
    obtain ⟨⟨flags', hconfig⟩, lines, rfl, hlines⟩ := LevelCall.prints heffect hcfg hflags
    exact ⟨⟨hunlocked, ⟨flags', hconfig⟩, hstreams⟩, lines, hjournal, hlines⟩

end QspiTool
