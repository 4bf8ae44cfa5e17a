import QspiTool.Device.Schedules

/-!
# The flow of a transfer

What a schedule of a transfer has to keep an eye on: the flags, whether the command runs, how
many words have gone through the FIFOs, and the watermarks.  `Bus.flow` reads this off a state.
Accesses other than stores to `INTR`, to the FIFO control registers and to `IPCMD` are *quiet*:
they leave the flow as it is.  So a run of the driver's loops can be followed by its flow alone.
-/

namespace QspiTool

open Words Interaction Machine

/-- The flags, the command and the FIFOs by their counts. -/
structure Flow where
  intr : Word
  running : Bool
  /-- The words appended to the TX FIFO since it was last emptied. -/
  pushed : Nat
  /-- The words received. -/
  arrived : Nat
  /-- How many of them have left the RX FIFO. -/
  popped : Nat
  /-- How many there were when the last command was triggered. -/
  base : Nat
  txWatermark : Watermark
  rxWatermark : Watermark
  deriving DecidableEq

def Bus.flow (s : Bus) : Flow where
  intr := s.dev.intr
  running := s.dev.running
  pushed := s.dev.core.txFifo.length
  arrived := s.dev.received.length
  popped := s.dev.core.popped
  base := s.dev.core.base
  txWatermark := s.dev.core.txWatermark
  rxWatermark := s.dev.core.rxWatermark

namespace Flow

variable (f : Flow)

/-- Flags are raised. -/
def raise (flags : Word) : Flow := { f with intr := f.intr ||| flags }

/-- `v` is stored to `INTR`. -/
def storeIntr (v : Word) : Flow :=
  { f with
    intr := f.intr &&& ~~~v
    pushed := if v.getLsbD txEmpty then f.pushed + 2 * f.txWatermark.val else f.pushed
    popped := if v.getLsbD rxWatermarkFlag then min f.arrived (f.popped + 2 * f.rxWatermark.val)
      else f.popped }

/-- `INTR |= m`; with `m` zero this is what `clear_flags` does. -/
def rewrite (m : Word) : Flow := f.storeIntr (f.intr ||| m)

/-- `n` words arrive. -/
def deliver (n : Nat) : Flow := { f with arrived := f.arrived + n }

/-- The RX FIFO is emptied. -/
def flushRx : Flow := { f with popped := f.arrived }

end Flow

lemma txWindow_length (c : Core) : c.txWindow.length = 2 * c.txWatermark.val := by
  simp [Core.txWindow]

lemma flow_store_intr (s : Bus) (v : Word) :
    Bus.flow { s with dev := s.dev.store Reg.intr v } = s.flow.storeIntr v := by
  have hpush : (s.dev.core.store s.dev.received.length Reg.intr v).txFifo.length =
      if v.getLsbD txEmpty then s.dev.core.txFifo.length + 2 * s.dev.core.txWatermark.val
      else s.dev.core.txFifo.length := by
    rw [Core.store_intr]
    by_cases h : v.getLsbD txEmpty = true
    · simp only [h, if_true, List.length_append, txWindow_length]
    · simp only [h]
      rfl
  simp only [Bus.flow, Flow.storeIntr, Controller.store, hpush]
  rfl

lemma flow_flush (s : Bus) :
    Bus.flow { s with dev := s.dev.store Reg.iprxfcr (s.dev.core.reg Reg.iprxfcr ||| 1#32) } =
      s.flow.flushRx := by
  have hintr : Reg.iprxfcr ≠ Reg.intr := by decide
  have hcmd : Reg.iprxfcr ≠ Reg.ipcmd := by decide
  have htx : ∀ v, Function.update s.dev.core.reg Reg.iprxfcr v Reg.iptxfcr =
      s.dev.core.reg Reg.iptxfcr := fun v => Function.update_of_ne (by decide) _ _
  simp only [Bus.flow, Flow.flushRx, Controller.store, Core.store_iprxfcr, Core.setReg,
    Core.rxWatermark, Core.txWatermark, htx]
  simp [hintr, hcmd]

lemma flow_deliver (s : Bus) (n : Nat) : (s.deliver n).flow = s.flow.deliver n := by
  simp [Bus.flow, Flow.deliver, Bus.deliver]

/-! ## Quiet accesses -/

/-- The access stores to none of the registers that move the flow. -/
def Quiet (fspi : Nat) : Access → Prop
  | .load _ | .read8 _ | .read32 _ | .write8 _ _ | .write32 _ _ => True
  | .store a _ => a ≠ fspi + Reg.intr ∧ a ≠ fspi + Reg.iptxfcr ∧ a ≠ fspi + Reg.iprxfcr ∧
      a ≠ fspi + Reg.ipcmd
  | _ => False

def QuietHead (fspi : Nat) : Head bus → Prop
  | .call o => Quiet fspi o
  | _ => False

variable {permits : Permits} {fspi : Nat}

lemma Core.store_quiet (c : Core) (n : Nat) {off : Nat} (v : Word) (h₁ : off ≠ Reg.intr)
    (h₂ : off ≠ Reg.iptxfcr) (h₃ : off ≠ Reg.iprxfcr) (h₄ : off ≠ Reg.ipcmd) :
    (c.store n off v).txFifo = c.txFifo ∧ (c.store n off v).popped = c.popped ∧
      (c.store n off v).base = c.base := by
  simp only [Core.store, if_neg h₁, if_neg h₂, if_neg h₃, if_neg h₄]
  repeat' first | exact ⟨rfl, rfl, rfl⟩ | split

/-- A quiet access leaves the flow as it is. -/
lemma flow_exec {o : Access} (h : Quiet fspi o) (s : Bus) :
    ((flexspi permits fspi).exec o s).2.flow = s.flow := by
  cases o with
  | load a => rfl
  | read8 a => rfl
  | read32 a => rfl
  | write8 a b => rfl
  | write32 a v => rfl
  | store a v =>
    obtain ⟨h₁, h₂, h₃, h₄⟩ := h
    simp only [Reg.intr, Reg.iptxfcr, Reg.iprxfcr, Reg.ipcmd] at h₁ h₂ h₃ h₄
    have hintr : a - fspi ≠ Reg.intr := by simp only [Reg.intr]; omega
    have htx : a - fspi ≠ Reg.iptxfcr := by simp only [Reg.iptxfcr]; omega
    have hrx : a - fspi ≠ Reg.iprxfcr := by simp only [Reg.iprxfcr]; omega
    have hcmd : a - fspi ≠ Reg.ipcmd := by simp only [Reg.ipcmd]; omega
    obtain ⟨hfifo, hpopped, hbase⟩ := s.dev.core.store_quiet s.dev.received.length v hintr htx
      hrx hcmd
    have hreg : ∀ x, x ≠ a - fspi →
        (s.dev.core.store s.dev.received.length (a - fspi) v).reg x = s.dev.core.reg x :=
      fun x => Core.store_reg_of_ne _ _ _
    simp [flexspi, Bus.exec, Bus.flow, Controller.store, Core.txWatermark, Core.rxWatermark,
      hfifo, hpopped, hbase, hintr, hcmd, hreg _ htx.symm, hreg _ hrx.symm]
  | store8 a b => exact h.elim
  | openMem => exact h.elim
  | close fd => exact h.elim
  | mmap size fd offset => exact h.elim
  | munmap a size => exact h.elim
  | pageSize => exact h.elim

lemma quiet_store {off : Nat} (v : Word) (h₁ : off ≠ Reg.intr) (h₂ : off ≠ Reg.iptxfcr)
    (h₃ : off ≠ Reg.iprxfcr) (h₄ : off ≠ Reg.ipcmd) :
    QuietHead fspi (.call (.store (fspi + off) v)) :=
  ⟨fun h => h₁ (Nat.add_left_cancel h), fun h => h₂ (Nat.add_left_cancel h),
    fun h => h₃ (Nat.add_left_cancel h), fun h => h₄ (Nat.add_left_cancel h)⟩

lemma quiet_of_fill {bound : Nat} {d : Head bus} (h : FillHead fspi bound d) :
    QuietHead fspi d := by
  cases h with
  | read32 a => trivial
  | read8 a => trivial
  | @fill i v hi =>
    apply quiet_store <;> simp only [Reg.tfdr, Reg.intr, Reg.iptxfcr, Reg.iprxfcr, Reg.ipcmd] <;>
      omega

lemma quiet_of_fetch {bound : Nat} {d : Head bus} (h : FetchHead fspi bound d) :
    QuietHead fspi d := by
  cases h with
  | fetch hi => trivial
  | write32 a v => trivial
  | write8 a b => trivial

lemma clearStatus_quiet : (clearStatus fspi).Every (QuietHead fspi) :=
  (load_every trivial).bind fun x =>
    (store_every (quiet_store x (by decide) (by decide) (by decide) (by decide))).bind fun _ =>
      (load_every trivial).bind fun y =>
        store_every (quiet_store y (by decide) (by decide) (by decide) (by decide))

/-! ## Following a run -/

/-- The condition that the flow meets `ψ` each time the driver moves. -/
abbrev whenFlow (ψ : Flow → Prop) : Head bus → Assertion bus Bus DeviceAction :=
  fun _ s _ => ψ s.flow

/-- The flow is `f`. -/
abbrev At (f : Flow) : Assertion bus Bus DeviceAction := fun s _ => s.flow = f

variable {ψ : Flow → Prop} {f : Flow}

/-- A quiet program can be run, and the flow stays. -/
lemma quiet_attains {α : Type} {p : Driver α} (hp : p.Every (QuietHead fspi)) (hψ : ψ f) :
    (flexspi permits fspi).Attains (whenFlow ψ) (At f) p fun _ => At f := by
  refine Attains.invariant hp id (fun _ => id) ?_ fun o s t ho hs => (flow_exec ho s).trans hs
  rintro o s t - rfl
  exact hψ

/-- `INTR |= m`, nothing happening meanwhile. -/
lemma rewrite_attains (m : Word) (hψ : ψ f) :
    (flexspi permits fspi).Attains (whenFlow ψ) (At f) (orReg (fspi + Reg.intr) m)
      fun _ => At (f.rewrite m) := by
  refine orReg_attains ?_ ?_ ?_
  · rintro s t rfl
    exact hψ
  · rintro s t v rfl -
    exact hψ
  · rintro s t v rfl rfl
    exact flow_store_intr s _

lemma clearFlags_attains (hψ : ψ f) (hψ' : ψ (f.rewrite 0#32)) :
    (flexspi permits fspi).Attains (whenFlow ψ) (At f) (clearFlags fspi)
      fun _ => At (f.rewrite 0#32) := by
  rw [clearFlags_eq]
  exact Attains.bind (rewrite_attains 0#32 hψ) fun _ => quiet_attains clearStatus_quiet hψ'

/-- `IPRXFCR |= 1`, nothing happening meanwhile. -/
lemma flush_attains (hψ : ψ f) :
    (flexspi permits fspi).Attains (whenFlow ψ) (At f) (orReg (fspi + Reg.iprxfcr) 1#32)
      fun _ => At f.flushRx := by
  refine orReg_attains ?_ ?_ ?_
  · rintro s t rfl
    exact hψ
  · rintro s t v rfl -
    exact hψ
  · rintro s t v rfl rfl
    rw [Controller.load_core _ (by decide) (by decide) (by decide)]
    exact flow_flush s

/-- The wait for a flag that is set. -/
lemma wait_attains {flag : Nat} (hflag : flag < 32) (hset : f.intr.getLsbD flag = true)
    (hψ : ψ f) :
    (flexspi permits fspi).Attains (whenFlow ψ) (At f) (waitBit (fspi + Reg.intr) flag)
      fun _ => At f := by
  refine waitBit_attains hflag fun s t hs => ⟨s, t, Drift.refl s t, ?_, ?_, hs⟩
  · obtain rfl := hs
    exact hset
  · obtain rfl := hs
    exact hψ

/-- The device acts, and the driver goes on. -/
lemma act_attains {α : Type} {p : Driver α} {Q : α → Assertion bus Bus DeviceAction}
    {g : Flow} (a : DeviceAction) (hpermits : ∀ s : Bus, s.flow = f → permits s.dev a = true)
    (hflow : ∀ s : Bus, s.flow = f → Bus.flow { s with dev := s.dev.perform a } = g)
    (hp : (flexspi permits fspi).Attains (whenFlow ψ) (At g) p Q) :
    (flexspi permits fspi).Attains (whenFlow ψ) (At f) p Q :=
  Attains.drift (fun s t hs => ⟨_, _, drift_act fspi t (hpermits s hs), hflow s hs⟩) hp

lemma flow_raise (s : Bus) (flags : Word) :
    Bus.flow { s with dev := s.dev.perform (.raise flags) } = s.flow.raise flags := rfl

end QspiTool
