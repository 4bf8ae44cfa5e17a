import QspiTool.Device.FlagRule

/-!
# Schedules of the controller

The rules of `Interaction.Progress` at the controller: how to run the driver, access by access,
on a schedule of one's choice.  They take the condition `φ` that the schedule is to meet each
time the driver moves.
-/

namespace QspiTool

open Words Interaction Machine

variable {permits : Permits} {fspi : Nat} {φ : Head bus → Assertion bus Bus DeviceAction}
  {P R : Assertion bus Bus DeviceAction}

lemma load_attains {Q : Word → Assertion bus Bus DeviceAction} {off : Nat}
    (hφ : ∀ s t, P s t → φ (.call (.load (fspi + off))) s t)
    (h : ∀ s t, P s t →
      Q (s.dev.load off) s (t ++ [.call (.load (fspi + off)) (s.dev.load off)])) :
    (flexspi permits fspi).Attains φ P (load (fspi + off)) Q :=
  Attains.op (S := bus) (o := .load (fspi + off)) (Q := Q) hφ (by simpa using h)

lemma store_attains {Q : Unit → Assertion bus Bus DeviceAction} {off : Nat} {v : Word}
    (hφ : ∀ s t, P s t → φ (.call (.store (fspi + off) v)) s t)
    (h : ∀ s t, P s t → Q () { s with dev := s.dev.store off v }
      (t ++ [.call (.store (fspi + off) v) ()])) :
    (flexspi permits fspi).Attains φ P (store (fspi + off) v) Q :=
  Attains.op (S := bus) (o := .store (fspi + off) v) (Q := Q) hφ (by simpa using h)

/-- `*reg |= m`, the loaded value at hand. -/
lemma orReg_attains {off : Nat} {m : Word}
    (hload : ∀ s t, P s t → φ (.call (.load (fspi + off))) s t)
    (hstore : ∀ s t v, P s t → v = s.dev.load off →
      φ (.call (.store (fspi + off) (v ||| m))) s (t ++ [.call (.load (fspi + off)) v]))
    (h : ∀ s t v, P s t → v = s.dev.load off → R { s with dev := s.dev.store off (v ||| m) }
      (t ++ [.call (.load (fspi + off)) v] ++ [.call (.store (fspi + off) (v ||| m)) ()])) :
    (flexspi permits fspi).Attains φ P (orReg (fspi + off) m) fun _ => R := by
  refine Attains.bind (Q := fun v s t => ∃ t₀, P s t₀ ∧ v = s.dev.load off ∧
    t = t₀ ++ [.call (.load (fspi + off)) v]) ?_ fun v => ?_
  · exact load_attains hload fun s t hs => ⟨t, hs, rfl, rfl⟩
  · refine store_attains ?_ ?_
    · rintro s _ ⟨t, hs, hv, rfl⟩
      exact hstore s t v hs hv
    · rintro s _ ⟨t, hs, hv, rfl⟩
      exact h s t v hs hv

/-- The wait for a flag that the device raises just in time. -/
lemma waitBit_attains {flag : Nat} (hflag : flag < 32)
    (h : ∀ s t, P s t → ∃ s' t', (flexspi permits fspi).Drift s t s' t' ∧
      s'.dev.intr.getLsbD flag = true ∧ φ (.poll ⟨fspi + Reg.intr, flag⟩) s' t' ∧
      R s' (t' ++ [.spin ⟨fspi + Reg.intr, flag⟩ s'.dev.intr])) :
    (flexspi permits fspi).Attains φ P (waitBit (fspi + Reg.intr) flag) fun _ => R := by
  refine Attains.drift (R := fun s t => s.dev.intr.getLsbD flag = true ∧
    φ (.poll ⟨fspi + Reg.intr, flag⟩) s t ∧
    R s (t ++ [.spin ⟨fspi + Reg.intr, flag⟩ s.dev.intr])) h ?_
  refine Attains.await (fun s t hs => hs.2.1) ?_ ?_
  · intro s t hs
    simp only [exec_load, decide_eq_true_eq, Controller.load_intr]
    rw [and_bit_ne_zero _ hflag]
    exact hs.1
  · intro s t hs
    simpa using hs.2.2

/-! ## Up to the trigger -/

lemma away_attains {α : Type} {p : Driver α} (hp : p.Every (AwayHead fspi)) :
    (flexspi permits fspi).Attains anytime (fun _ _ => True) p fun _ _ _ => True :=
  Attains.invariant hp id (fun _ => id) (fun _ _ _ _ _ => trivial) fun _ _ _ _ _ => trivial

/-- The driver can trigger the command before anything else happens. -/
lemma startCommand_attains (xfer : FlexspiTransfer) :
    (flexspi permits fspi).Attains anytime (fun _ _ => True) (startCommand fspi xfer)
      fun _ s _ => s.dev.running = true ∧ s.dev.core.base = s.dev.received.length := by
  have hsetup : (flexspi permits fspi).Attains anytime (fun _ _ => True)
      (setupCommand fspi xfer) fun _ _ _ => True := by
    rw [setupCommand_eq, clearFlags_eq]
    refine Attains.bind (away_attains (away_flshcr2 xfer.port)) fun _ => ?_
    refine Attains.bind ?_ fun _ => away_attains (programCommand_away xfer)
    exact Attains.bind (orReg_attains (fun _ _ _ => trivial) (fun _ _ _ _ _ => trivial)
      fun _ _ _ _ _ => trivial) fun _ => away_attains clearStatus_away
  refine Attains.bind hsetup fun _ => ?_
  refine orReg_attains (fun _ _ _ => trivial) (fun _ _ _ _ _ => trivial) fun s t v _ _ => ?_
  simp [Controller.store]

/-! ## Choosing what the device does -/

/-- One action of the device. -/
lemma drift_act (fspi : Nat) {s : Bus} (t : BusTrace) {a : DeviceAction}
    (h : permits s.dev a = true) :
    (flexspi permits fspi).Drift s t { s with dev := s.dev.perform a } (t ++ [.act a]) :=
  Drift.single t (act_of_permits fspi h)

/-- The state after `n` more words of zeros have arrived. -/
def Bus.deliver (s : Bus) (n : Nat) : Bus :=
  { s with dev := { s.dev with received := s.dev.received ++ List.replicate n 0#32 } }

@[simp] lemma deliver_received (s : Bus) (n : Nat) :
    (s.deliver n).dev.received.length = s.dev.received.length + n := by
  simp [Bus.deliver]

/-- The device receives `n` words in a row. -/
lemma exists_drift_deliver (fspi n : Nat) (s : Bus) (t : BusTrace)
    (h : ∀ k < n, permits (s.deliver k).dev (.receive 0#32) = true) :
    ∃ t', (flexspi permits fspi).Drift s t (s.deliver n) t' := by
  induction n with
  | zero => exact ⟨t, by simpa [Bus.deliver] using Drift.refl s t⟩
  | succ n ih =>
    obtain ⟨t', hd⟩ := ih fun k hk => h k (by omega)
    have hact := drift_act fspi t' (h n (by omega))
    have hnext : { s.deliver n with dev := (s.deliver n).dev.perform (.receive 0#32) } =
        s.deliver (n + 1) := by
      simp [Bus.deliver, Controller.perform, List.replicate_succ', List.append_assoc]
    rw [hnext] at hact
    exact ⟨_, hd.trans hact⟩

end QspiTool
