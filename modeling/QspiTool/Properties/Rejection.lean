import QspiTool.Device.FlagRule
import QspiTool.Device.Freedom

/-!
# Which requests are rejected before the command is started

`transfer_blocking` checks its request only after the trigger: the size bound is an assertion
of `write_blocking` and `read_blocking`, and a command-only transfer runs into `assert(false)`.
So a request it cannot carry out stops the program with the command in flight.
`transferBlocking_runsThrough_iff` says exactly which requests run through.
-/

namespace QspiTool

open Words Interaction Machine

variable {permits : Permits} {fspi : Nat}

/-- `IPCMD` has been triggered. -/
def Triggered (fspi : Nat) (t : BusTrace) : Prop :=
  ∃ v : Word, v.getLsbD 0 = true ∧ .call (.store (fspi + Reg.ipcmd) v) () ∈ t

lemma Triggered.append {t : BusTrace} (h : Triggered fspi t) (u : BusTrace) :
    Triggered fspi (t ++ u) := by
  obtain ⟨v, hv, hmem⟩ := h
  exact ⟨v, hv, List.mem_append_left u hmem⟩

/-- The event triggers `IPCMD`. -/
def isTrigger (fspi : Nat) : Event bus DeviceAction → Bool
  | .call (.store a v) _ => decide (a = fspi + Reg.ipcmd) && v.getLsbD 0
  | _ => false

lemma triggered_of_any {t : BusTrace} (h : t.any (isTrigger fspi) = true) : Triggered fspi t := by
  obtain ⟨e, he, htrigger⟩ := List.any_eq_true.mp h
  unfold isTrigger at htrigger
  split at htrigger
  · simp only [Bool.and_eq_true, decide_eq_true_eq] at htrigger
    obtain ⟨rfl, hbit⟩ := htrigger
    exact ⟨_, hbit, he⟩
  · cases htrigger

/-- `IPCMD |= 1` triggers. -/
lemma trigger_triple :
    (flexspi permits fspi).Triple (fun _ _ _ => True) (fun _ _ => True)
      (orReg (fspi + Reg.ipcmd) 1#32) fun _ _ t => Triggered fspi t := by
  have hstable : (flexspi permits fspi).Stable fun _ t => Triggered fspi t :=
    fun _ _ _ _ h _ => h.append _
  refine orReg_core_triple (by decide) (by decide) (by decide) stable_true hstable
    (fun _ _ _ => trivial) (fun _ _ _ _ => trivial) fun s t v _ _ => ⟨trivial, ?_⟩
  exact ⟨v ||| 1#32, by simp, List.mem_append_right t (List.mem_singleton.mpr rfl)⟩

/-- Some run triggers the command and reaches the data phase. -/
lemma exists_reach_moveData (fspi : Nat) (xfer : FlexspiTransfer) (s : Bus) :
    ∃ s' t', (flexspi anyAction fspi).Reach ⟨transferBlocking fspi xfer, s, []⟩
        ⟨moveData fspi xfer >>= awaitCommand fspi, s', t'⟩ ∧ Triggered fspi t' := by
  have hstart : (startCommand fspi xfer).Every (TransferHead fspi) :=
    (setupCommand_every xfer).bind fun _ =>
      orReg_every (.loadControl (by decide)) fun v => .storeControl v (by decide)
  obtain ⟨_, s', t', hreach⟩ := exists_return hstart s []
  have htriple : (flexspi anyAction fspi).Triple (fun _ _ _ => True) (fun _ _ => True)
      (startCommand fspi xfer) fun _ _ t => Triggered fspi t :=
    Triple.bind (Triple.invariant (setupCommand_every xfer) stable_true (fun _ _ _ _ _ => trivial)
      (fun _ _ _ _ _ => trivial) fun _ _ _ _ _ => trivial) fun _ => trigger_triple
  refine ⟨s', t', ?_, htriple.returns trivial hreach⟩
  rw [transferBlocking_eq]
  exact hreach.seq (Reach.refl _)

/-- A transfer the driver does not accept stops at an assertion of its data phase. -/
lemma moveData_of_not_accepted {xfer : FlexspiTransfer} (h : ¬ xfer.Accepted) :
    moveData fspi xfer = .abort := by
  have habort : ∀ {α : Type} (f : Unit → Driver α), 1024 < xfer.dataSize.toNat →
      (check (xfer.dataSize.toNat ≤ 32 * 32) >>= f) = .abort := by
    intro α f hlt
    rw [check, Prog.check, if_neg (by omega), Prog.abort_bind]
  have hsize : xfer.cmdType ≠ .command → 1024 < xfer.dataSize.toNat := fun hne =>
    Nat.lt_of_not_ge fun hle => h ⟨hne, hle⟩
  unfold moveData
  split <;> rename_i hkind
  · exact habort _ (hsize (by simp [hkind]))
  · exact habort _ (hsize (by simp [hkind]))
  · exact habort _ (hsize (by simp [hkind]))
  · rfl

/-- No assertion fails once the command has been triggered, whatever the device does, and the
transfer can be run to its end from wherever it is. -/
def RunsThrough (fspi : Nat) (xfer : FlexspiTransfer) : Prop :=
  (∀ (permits : Permits) (s : Bus) (c : Config bus Bus DeviceAction Int),
    (flexspi permits fspi).Reach ⟨transferBlocking fspi xfer, s, []⟩ c →
      Triggered fspi c.trace → c.prog.head ≠ .abort) ∧
  ∀ (s : Bus) (c : Config bus Bus DeviceAction Int),
    (flexspi anyAction fspi).Reach ⟨transferBlocking fspi xfer, s, []⟩ c →
      Triggered fspi c.trace →
      ∃ result s' t', (flexspi anyAction fspi).Reach c ⟨.ret result, s', t'⟩

/-- **Which requests run through.**  A triggered command is waited for, with no assertion
failing on the way, exactly for a transfer with data of at most 1024 bytes. -/
theorem transferBlocking_runsThrough_iff (fspi : Nat) (xfer : FlexspiTransfer) :
    RunsThrough fspi xfer ↔ xfer.cmdType ≠ .command ∧ xfer.dataSize.toNat ≤ 1024 := by
  constructor
  · intro hruns
    by_contra hacc
    obtain ⟨s', t', hreach, htrig⟩ :=
      exists_reach_moveData fspi xfer ⟨Controller.reset, fun _ => 0#8⟩
    refine hruns.1 anyAction _ _ hreach htrig ?_
    rw [moveData_of_not_accepted hacc]
    rfl
  · intro hacc
    have hevery := transferBlocking_every_of_accepted fspi hacc
    refine ⟨fun permits s c hreach _ habort => ?_, fun s c hreach _ => ?_⟩
    · have hhead := every_reach hevery hreach (by simp [habort])
      rw [habort] at hhead
      exact not_transferHead_abort hhead
    · exact exists_return (every_of_reach (c := ⟨_, s, []⟩) hevery hreach) c.state c.trace

/-- A command-only transfer, which the header documents as legal. -/
def commandOnly : FlexspiTransfer where
  deviceAddress := 0#32
  port := .portA1
  cmdType := .command
  seqIndex := 0#8
  seqNumber := 1#8
  data := 100
  dataSize := 0#16

/-- **A command-only transfer aborts with its command in flight.** -/
theorem transferBlocking_command_aborts :
    ¬ ∀ (fspi : Nat) (xfer : FlexspiTransfer), 1 ≤ xfer.seqNumber.toNat →
      RunsThrough fspi xfer := by
  intro hevery
  have hruns := hevery 0 commandOnly (by decide)
  obtain ⟨c, hreach, htest⟩ : ∃ c, (flexspi anyAction 0).Reach
      ⟨transferBlocking 0 commandOnly, ⟨Controller.reset, fun _ => 0#8⟩, []⟩ c ∧
      (c.prog.aborted && c.trace.any (isTrigger 0)) = true :=
    exists_reach_of_run (List.replicate 16 .prog) (by decide +kernel)
  obtain ⟨habort, htriggered⟩ := (Bool.and_eq_true _ _).mp htest
  refine hruns.1 anyAction _ _ hreach (triggered_of_any htriggered) ?_
  rw [Prog.eq_abort_of_aborted habort]
  rfl

end QspiTool
