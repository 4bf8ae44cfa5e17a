import QspiTool.Device.Controller
import QspiTool.Driver.Rounds
import QspiTool.Interaction.Fair

/-!
# Proof rules for the driver's accesses

The rules of `Interaction.Logic` at the controller: one for each kind of access and for the
busy-wait, with the effect of the access on the state and on the trace written out.
-/

namespace QspiTool

open Words Interaction Machine

variable {permits : Permits} {fspi : Nat} {G : Head bus → Assertion bus Bus DeviceAction}
  {P R : Assertion bus Bus DeviceAction}

/-- The guarantee of a purely functional specification. -/
abbrev noGuarantee : Head bus → Assertion bus Bus DeviceAction := fun _ _ _ => True

/-- A load answers what the device shows. -/
lemma reach_load {α : Type} (permits : Permits) (fspi off : Nat) (f : Word → Driver α) (s : Bus)
    (t : BusTrace) :
    (flexspi permits fspi).Reach ⟨load (fspi + off) >>= f, s, t⟩
      ⟨f (s.dev.load off), s, t ++ [.call (.load (fspi + off)) (s.dev.load off)]⟩ := by
  have h := reach_call (M := flexspi permits fspi) (S := bus) (.load (fspi + off)) f s t
  simp only [exec_load] at h
  exact h

section

variable {Q : Word → Assertion bus Bus DeviceAction}

lemma load_triple {off : Nat} (hP : (flexspi permits fspi).Stable P)
    (hQ : ∀ v, (flexspi permits fspi).Stable (Q v))
    (hG : ∀ s t, P s t → G (.call (.load (fspi + off))) s t)
    (h : ∀ s t, P s t →
      Q (s.dev.load off) s (t ++ [.call (.load (fspi + off)) (s.dev.load off)])) :
    (flexspi permits fspi).Triple G P (load (fspi + off)) Q :=
  Triple.op (S := bus) (o := .load (fspi + off)) (Q := Q) hP hQ hG (by simpa using h)

lemma read32_triple {x : Nat} (hP : (flexspi permits fspi).Stable P)
    (hQ : ∀ v, (flexspi permits fspi).Stable (Q v))
    (hG : ∀ s t, P s t → G (.call (.read32 x)) s t)
    (h : ∀ s t, P s t → Q (ofBytes fun i => s.mem (x + i)) s
      (t ++ [.call (.read32 x) (ofBytes fun i => s.mem (x + i))])) :
    (flexspi permits fspi).Triple G P (read32 x) Q :=
  Triple.op (S := bus) (o := .read32 x) (Q := Q) hP hQ hG (by simpa using h)

end

section

variable {Q : Byte → Assertion bus Bus DeviceAction}

lemma read8_triple {x : Nat} (hP : (flexspi permits fspi).Stable P)
    (hQ : ∀ v, (flexspi permits fspi).Stable (Q v))
    (hG : ∀ s t, P s t → G (.call (.read8 x)) s t)
    (h : ∀ s t, P s t → Q (s.mem x) s (t ++ [.call (.read8 x) (s.mem x)])) :
    (flexspi permits fspi).Triple G P (read8 x) Q :=
  Triple.op (S := bus) (o := .read8 x) (Q := Q) hP hQ hG (by simpa using h)

end

section

variable {Q : Unit → Assertion bus Bus DeviceAction}

lemma store_triple {off : Nat} {v : Word} (hP : (flexspi permits fspi).Stable P)
    (hQ : (flexspi permits fspi).Stable (Q ()))
    (hG : ∀ s t, P s t → G (.call (.store (fspi + off) v)) s t)
    (h : ∀ s t, P s t → Q () { s with dev := s.dev.store off v }
      (t ++ [.call (.store (fspi + off) v) ()])) :
    (flexspi permits fspi).Triple G P (store (fspi + off) v) Q :=
  Triple.op (S := bus) (o := .store (fspi + off) v) (Q := Q) hP (fun _ => hQ) hG
    (by simpa using h)

lemma store8_triple {off : Nat} {b : Byte} (hP : (flexspi permits fspi).Stable P)
    (hQ : (flexspi permits fspi).Stable (Q ()))
    (hG : ∀ s t, P s t → G (.call (.store8 (fspi + off) b)) s t)
    (h : ∀ s t, P s t →
      Q () { s with dev := { s.dev with core := s.dev.core.store8 off b } }
        (t ++ [.call (.store8 (fspi + off) b) ()])) :
    (flexspi permits fspi).Triple G P (store8 (fspi + off) b) Q :=
  Triple.op (S := bus) (o := .store8 (fspi + off) b) (Q := Q) hP (fun _ => hQ) hG
    (by simpa using h)

lemma write32_triple {x : Nat} {v : Word} (hP : (flexspi permits fspi).Stable P)
    (hQ : (flexspi permits fspi).Stable (Q ()))
    (hG : ∀ s t, P s t → G (.call (.write32 x v)) s t)
    (h : ∀ s t, P s t → Q () { s with mem := storeWord s.mem x v }
      (t ++ [.call (.write32 x v) ()])) :
    (flexspi permits fspi).Triple G P (write32 x v) Q :=
  Triple.op (S := bus) (o := .write32 x v) (Q := Q) hP (fun _ => hQ) hG (by simpa using h)

lemma write8_triple {x : Nat} {b : Byte} (hP : (flexspi permits fspi).Stable P)
    (hQ : (flexspi permits fspi).Stable (Q ()))
    (hG : ∀ s t, P s t → G (.call (.write8 x b)) s t)
    (h : ∀ s t, P s t → Q () { s with mem := Function.update s.mem x b }
      (t ++ [.call (.write8 x b) ()])) :
    (flexspi permits fspi).Triple G P (write8 x b) Q :=
  Triple.op (S := bus) (o := .write8 x b) (Q := Q) hP (fun _ => hQ) hG (by simpa using h)

/-- `while (0 == (*reg & (1 << n))) {}`: the precondition survives the probes, and the last
probe has read a set bit. -/
lemma waitBit_triple {off n : Nat} (hn : n < 32) (hP : (flexspi permits fspi).Stable P)
    (hQ : (flexspi permits fspi).Stable (Q ()))
    (hG : ∀ s t, P s t → G (.poll ⟨fspi + off, n⟩) s t)
    (hspin : ∀ s t, P s t → (s.dev.load off).getLsbD n = false →
      P s (t ++ [.spin ⟨fspi + off, n⟩ (s.dev.load off)]))
    (hready : ∀ s t, P s t → (s.dev.load off).getLsbD n = true →
      Q () s (t ++ [.spin ⟨fspi + off, n⟩ (s.dev.load off)])) :
    (flexspi permits fspi).Triple G P (waitBit (fspi + off) n) Q := by
  refine Triple.await (Q := Q) hP hQ hG ?_ ?_
  · intro s t hs hfail
    simp only [exec_load, decide_eq_false_iff_not] at hfail ⊢
    rw [and_bit_ne_zero _ hn, Bool.not_eq_true] at hfail
    exact hspin s t hs hfail
  · intro s t hs hready'
    simp only [exec_load, decide_eq_true_eq] at hready' ⊢
    rw [and_bit_ne_zero _ hn] at hready'
    exact hready s t hs hready'

end

/-- `*reg |= m` when the register holds what only the driver writes. -/
lemma orReg_core_triple {off : Nat} {m : Word} (h₁ : off ≠ Reg.intr) (h₂ : ¬ Reg.IsStatus off)
    (h₃ : ¬ Reg.IsRfdr off) (hP : (flexspi permits fspi).Stable P)
    (hR : (flexspi permits fspi).Stable R)
    (hload : ∀ s t, P s t → G (.call (.load (fspi + off))) s t)
    (hkeep : ∀ s t v, P s t → P s (t ++ [.call (.load (fspi + off)) v]))
    (hstore : ∀ s t v, P s t → v = s.dev.core.reg off →
      G (.call (.store (fspi + off) (v ||| m))) s t ∧
        R { s with dev := s.dev.store off (v ||| m) }
          (t ++ [.call (.store (fspi + off) (v ||| m)) ()])) :
    (flexspi permits fspi).Triple G P (orReg (fspi + off) m) fun _ => R := by
  have hmid : ∀ v, (flexspi permits fspi).Stable fun s t => P s t ∧ v = s.dev.core.reg off :=
    fun v => stable_and hP (stable_core fun _ c => v = c.reg off)
  refine Triple.bind (Q := fun v s t => P s t ∧ v = s.dev.core.reg off) ?_ fun v => ?_
  · refine load_triple hP hmid hload fun s t hs => ?_
    exact ⟨hkeep s t _ hs, Controller.load_core _ h₁ h₂ h₃⟩
  · exact store_triple (hmid v) hR (fun s t hs => (hstore s t v hs.1 hs.2).1)
      fun s t hs => (hstore s t v hs.1 hs.2).2

/-! ## Fair runs -/

/-- The program gets its turns, and the flag is raised again and again. -/
structure KeepsRaising {α : Type} (flag : Nat) {c₀ : Config bus Bus DeviceAction α}
    (r : (flexspi permits fspi).Run c₀) : Prop where
  turns : ∀ n, ∃ m, n ≤ m ∧ r.tick m = .prog
  raised : ∀ n, ∃ m, n ≤ m ∧ (r.cfg m).state.dev.intr.getLsbD flag = true

/-- That is fair to a program that waits for no other flag. -/
lemma KeepsRaising.fair {α : Type} {p : Driver α} {flag : Nat} (hflag : flag < 32)
    (hp : p.Every (WaitsOnlyFor ⟨fspi + Reg.intr, flag⟩)) {s : Bus} {t : BusTrace}
    {r : (flexspi permits fspi).Run ⟨p, s, t⟩} (h : KeepsRaising flag r) : r.Fair := by
  refine r.fair_of_recurring (fun a s s' hact hraised => (act_spec hact).2.2.2.1 flag hraised) ?_
    h.turns h.raised
  intro n w hw hraised
  have hdone : (r.cfg n).prog.head ≠ .done := by
    rw [hw]
    rintro ⟨⟩
  obtain rfl := every_reach hp (r.reach n) hdone w hw
  simp only [exec_load, decide_eq_true_eq]
  rw [and_bit_ne_zero _ hflag]
  exact hraised

/-! ## The buffers of the controller's machine -/

lemma storeWord_eq (mem : Nat → Byte) (a : Nat) (v : Word) :
    storeWord mem a v = storeBytes mem a (bytesOf [v]) := by
  funext x
  simp only [storeWord, storeBytes]
  by_cases hle : a ≤ x
  · rw [if_pos hle, getElem?_bytesOf]
    by_cases hlt : x < a + 4
    · have hdiv : (x - a) / 4 = 0 := by omega
      have hmod : (x - a) % 4 = x - a := by omega
      rw [if_pos ⟨hle, hlt⟩, hdiv, hmod]
      rfl
    · have hdiv : [v][(x - a) / 4]? = none := List.getElem?_eq_none (by simp; omega)
      rw [if_neg fun h => hlt h.2, hdiv]
      rfl
  · rw [if_neg hle, if_neg fun h => hle h.1]

lemma update_eq_storeBytes (mem : Nat → Byte) (a : Nat) (b : Byte) :
    Function.update mem a b = storeBytes mem a [b] := by
  funext x
  by_cases hxa : x = a
  · subst hxa
    simp [storeBytes]
  · rw [Function.update_of_ne hxa]
    apply (storeBytes_of_not_mem mem _).symm
    rw [List.length_singleton]
    omega

/-- The controller does not touch the buffers. -/
def flexspiBuffers (permits : Permits) (fspi : Nat) : Buffers (flexspi permits fspi) where
  bytes := Bus.mem
  read8 _ _ := rfl
  read32 _ _ := rfl
  write8 a b s := update_eq_storeBytes s.mem a b
  write32 a v s := storeWord_eq s.mem a v
  other o s h8 h32 := by
    cases o with
    | write8 a b => exact absurd rfl (h8 a b)
    | write32 a v => exact absurd rfl (h32 a v)
    | _ => rfl
  act _ _ _ h := (act_spec h).2.1

end QspiTool
