import QspiTool.Device.Rules
import QspiTool.Driver.Footprint

/-!
# The device that may do anything

With `anyAction` every wait of the driver can be answered, so every function of the transfer
core can be run to its return from every state (`exists_return`), and a place in the middle of
a function is reached by running what comes before it.
-/

namespace QspiTool

open Words Interaction Machine

variable {fspi : Nat}

/-- A device that may raise a flag can answer every wait for it. -/
lemma answers_of_raise {permits : Permits} {flag : Nat} (hflag : flag < 32) (s : Bus)
    (t : BusTrace) (hraise : permits s.dev (.raise (bit flag)) = true) :
    (flexspi permits fspi).Answers ⟨fspi + Reg.intr, flag⟩ s t := by
  have hact := act_of_permits fspi hraise
  refine ⟨_, _, Drift.single t hact, ?_⟩
  simp only [exec_load, decide_eq_true_eq]
  rw [and_bit_ne_zero _ hflag]
  simp [Controller.perform, hflag]

/-- Every wait of a transfer is for a flag of `INTR`. -/
lemma transferHead_poll {w : BitWait} (h : TransferHead fspi (.poll w)) :
    ∃ flag < 32, w = ⟨fspi + Reg.intr, flag⟩ := by
  cases h with
  | flag h => cases h
  | write h =>
    cases h with
    | flag h => cases h
    | wait => exact ⟨txEmpty, by decide, rfl⟩
    | chunk h => cases h
  | read h =>
    cases h with
    | flag h => cases h
    | wait => exact ⟨rxWatermarkFlag, by decide, rfl⟩
    | chunk h => cases h
  | done => exact ⟨cmdDone, by decide, rfl⟩

/-- A program with the footprint of a transfer can be run to its return. -/
lemma exists_return {α : Type} {p : Driver α} (hp : p.Every (TransferHead fspi)) (s : Bus)
    (t : BusTrace) :
    ∃ a s' t', (flexspi anyAction fspi).Reach ⟨p, s, t⟩ ⟨.ret a, s', t'⟩ := by
  refine exists_reach_ret hp ?_ not_transferHead_abort s t
  intro w s t hw
  obtain ⟨flag, hflag, rfl⟩ := transferHead_poll hw
  exact answers_of_raise hflag s t rfl

lemma exists_return_fill {α : Type} {p : Driver α} (bound : Nat)
    (hp : p.Every (FillHead fspi bound)) (hbound : bound ≤ 256) (s : Bus) (t : BusTrace) :
    ∃ a s' t', (flexspi anyAction fspi).Reach ⟨p, s, t⟩ ⟨.ret a, s', t'⟩ :=
  exists_return (hp.mono fun _ hd => .write (.chunk (hd.mono hbound))) s t

lemma exists_return_fetch {α : Type} {p : Driver α} (bound : Nat)
    (hp : p.Every (FetchHead fspi bound)) (hbound : bound ≤ 128) (s : Bus) (t : BusTrace) :
    ∃ a s' t', (flexspi anyAction fspi).Reach ⟨p, s, t⟩ ⟨.ret a, s', t'⟩ :=
  exists_return (hp.mono fun _ hd => .read (.chunk (hd.mono hbound))) s t

lemma transferBlocking_every_of_accepted (fspi : Nat) {xfer : FlexspiTransfer} (h : xfer.Accepted) :
    (transferBlocking fspi xfer).Every (TransferHead fspi) :=
  (transferBlocking_every xfer).mono fun _ hd => hd.resolve_right fun hn => hn.2 h

/-- The schedule in which the device raises the flag before each turn of the program. -/
def raising (flag n : Nat) : Tick DeviceAction :=
  if n % 2 = 0 then .env (.raise (bit flag)) else .prog

/-- The device that may do anything can keep raising a flag, whatever the program. -/
theorem exists_keepsRaising {α : Type} (p : Driver α) {flag : Nat} (hflag : flag < 32) (s : Bus)
    (t : BusTrace) : ∃ r : (flexspi anyAction fspi).Run ⟨p, s, t⟩, KeepsRaising flag r := by
  have hact : ∀ a s, (flexspi anyAction fspi).act a s = some { s with dev := s.dev.perform a } :=
    fun a s => act_of_permits fspi rfl
  have hraise : ∀ n, raising flag (2 * n) = .env (.raise (bit flag)) := fun n =>
    if_pos (Nat.mul_mod_right 2 n)
  have hturn : ∀ n, raising flag (2 * n + 1) = .prog := fun n => if_neg (by omega)
  refine ⟨Run.ofSchedule (raising flag) ⟨p, s, t⟩ ?_, ⟨fun n => ⟨2 * n + 1, by omega, hturn n⟩, ?_⟩⟩
  · intro n a _ s hnone
    rw [hact] at hnone
    cases hnone
  · intro n
    refine ⟨2 * n + 1, by omega, ?_⟩
    simp [Run.ofSchedule, follow, hraise, step, hact, Controller.perform, hflag]

end QspiTool
