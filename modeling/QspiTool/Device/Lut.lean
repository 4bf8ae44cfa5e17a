import QspiTool.Device.Rules
import QspiTool.Driver.Footprint
import QspiTool.Driver.History

/-!
# The look-up table

The LUT as 512 bytes, and what the public calls do to it.  `QSPI_SetupLut` unlocks it, copies its
table byte by byte and locks it again.  A transfer may store words behind `TFDR`, into the LUT too,
but never stores to `LUTCR`, so a locked LUT stays locked and keeps its bytes.

The trace remembers which bytes have been stored: no other call makes byte stores (`lutWritten`).
-/

namespace QspiTool

open Words Interaction Machine

/-! ## Bytes of the LUT -/

/-- Byte `i` of the LUT. -/
def lutByte (c : Core) (i : Nat) : Byte := byteAt (c.reg (Reg.lut (i / 4))) (i % 4)

/-- Only a store into the unlocked LUT changes it. -/
lemma lutByte_store {c : Core} {off : Nat} (h : Reg.IsLut off → c.lutLocked = true) (n : Nat)
    (v : Word) {i : Nat} (hi : i < 512) : lutByte (c.store n off v) i = lutByte c i := by
  have hreg : (c.store n off v).reg (Reg.lut (i / 4)) = c.reg (Reg.lut (i / 4)) := by
    by_cases hlut : Reg.IsLut off
    · have hlocked : Reg.IsLut off ∧ c.lutLocked = true := ⟨hlut, h hlut⟩
      simp only [Core.store_reg_eq, if_pos hlocked, ite_self]
    · refine Core.store_reg_of_ne c n v fun heq => hlut ?_
      rw [← heq]
      simp only [Reg.IsLut, Reg.lut]
      omega
  rw [lutByte, hreg, lutByte]

/-- Only a store to `LUTCR` changes the lock. -/
lemma lutLocked_store {off : Nat} (h : off ≠ Reg.lutcr) (c : Core) (n : Nat) (v : Word) :
    (c.store n off v).lutLocked = c.lutLocked := by
  simp only [Core.store, apply_ite Core.lutLocked, Core.setReg, if_neg h, ite_self]

/-- What a store to `LUTCR` does to the lock. -/
lemma Core.store_lutcr (c : Core) (n : Nat) (v : Word) :
    (c.store n Reg.lutcr v).lutLocked =
      if c.lutKey then
        if v = lockerLock then true else if v = lockerUnlock then false else c.lutLocked
      else c.lutLocked := rfl

lemma lutLocked_store8 (c : Core) (off : Nat) (b : Byte) :
    (c.store8 off b).lutLocked = c.lutLocked := by
  simp only [Core.store8, apply_ite Core.lutLocked, Core.setReg, ite_self]

/-- A byte store into the unlocked LUT. -/
lemma lutByte_store8 {c : Core} (h : c.lutLocked = false) {i : Nat} (hi : i < 512) (b : Byte)
    (j : Nat) : lutByte (c.store8 (Reg.lut 0 + i) b) j = if j = i then b else lutByte c j := by
  have hlut : Reg.IsLut (Reg.lut 0 + i) := by
    simp only [Reg.IsLut, Reg.lut]
    omega
  have hword : 4 * ((Reg.lut 0 + i) / 4) = Reg.lut (i / 4) := by
    simp only [Reg.lut]
    omega
  have hplace : (Reg.lut 0 + i) % 4 = i % 4 := by
    simp only [Reg.lut]
    omega
  rw [Core.store8, if_pos ⟨hlut, h⟩, hword, hplace, lutByte, lutByte]
  by_cases hsame : j / 4 = i / 4
  · simp only [Core.setReg, hsame, Function.update_self, setByte]
    rw [byteAt_ofBytes _ (Nat.mod_lt j (by decide))]
    have hiff : j % 4 = i % 4 ↔ j = i := by omega
    simp only [hiff]
  · have hne : Reg.lut (j / 4) ≠ Reg.lut (i / 4) := by
      simp only [Reg.lut]
      omega
    have hne' : j ≠ i := fun heq => hsame (heq ▸ rfl)
    simp only [Core.setReg, Function.update_of_ne hne, if_neg hne']

/-- A table laid over the LUT. -/
def overlay (mem : Nat → Byte) (table len : Nat) (lut : Nat → Byte) : Nat → Byte :=
  fun i => if i < len then mem (table + i) else lut i

/-! ## Byte stores in a trace -/

/-- The event stores byte `k` of the LUT. -/
def isLutStore (fspi k : Nat) : Event bus DeviceAction → Bool
  | .call (.store8 a _) _ => decide (a = fspi + Reg.lut 0 + k)
  | _ => false

/-- Byte `k` of the LUT has been stored. -/
def lutWritten (fspi : Nat) (t : BusTrace) (k : Nat) : Bool := t.any (isLutStore fspi k)

lemma lutWritten_snoc (fspi : Nat) (t : BusTrace) (e : Event bus DeviceAction) (k : Nat) :
    lutWritten fspi (t ++ [e]) k = (lutWritten fspi t k || isLutStore fspi k e) := by
  simp [lutWritten]

/-- Exactly these bytes of the LUT have been stored. -/
def Wrote (fspi : Nat) (W : Nat → Prop) (t : BusTrace) : Prop :=
  ∀ k, lutWritten fspi t k = true ↔ W k

lemma Wrote.snoc {fspi : Nat} {W : Nat → Prop} {t : BusTrace} (h : Wrote fspi W t)
    {e : Event bus DeviceAction} (he : ∀ k, isLutStore fspi k e = false) :
    Wrote fspi W (t ++ [e]) := by
  intro k
  rw [lutWritten_snoc, he k, Bool.or_false]
  exact h k

/-! ## Calls that are no `QSPI_SetupLut` -/

variable {permits : Permits} {fspi : Nat} {α : Type}

/-- No byte store, and no store to `LUTCR`. -/
def Lutless (fspi : Nat) : Head bus → Prop
  | .call (.store a _) => ∃ off, a = fspi + off ∧ off ≠ Reg.lutcr
  | .call (.store8 _ _) => False
  | _ => True

lemma lutless_of_flagHead {d : Head bus} (h : FlagHead fspi d) : Lutless fspi d := by
  cases h with
  | loadIntr => trivial
  | storeIntr v => exact ⟨_, rfl, by decide⟩
  | loadStatus hoff => trivial
  | storeStatus v hoff =>
    have hle := hoff.1
    exact ⟨_, rfl, by simp only [Reg.lutcr]; omega⟩

lemma lutless_of_transferHead {d : Head bus} (h : TransferHead fspi d) : Lutless fspi d := by
  cases h with
  | flag h => exact lutless_of_flagHead h
  | loadControl hoff => trivial
  | storeControl v hoff =>
    have hle := hoff.1
    exact ⟨_, rfl, by simp only [Reg.lutcr]; omega⟩
  | write h =>
    cases h with
    | flag h => exact lutless_of_flagHead h
    | wait => trivial
    | chunk h =>
      cases h with
      | read32 a => trivial
      | read8 a => trivial
      | fill v hi => exact ⟨_, rfl, by simp only [Reg.lutcr, Reg.tfdr]; omega⟩
  | read h =>
    cases h with
    | flag h => exact lutless_of_flagHead h
    | wait => trivial
    | chunk h =>
      cases h with
      | fetch hi => trivial
      | write32 a v => trivial
      | write8 a b => trivial
  | done => trivial

/-- What such an access does to the LUT. -/
lemma exec_lutless {o : Access} (h : Lutless fspi (.call o)) (s : Bus) :
    (s.dev.core.lutLocked = true →
      ((flexspi permits fspi).exec o s).2.dev.core.lutLocked = true ∧
        ∀ i < 512, lutByte ((flexspi permits fspi).exec o s).2.dev.core i =
          lutByte s.dev.core i) ∧
      ∀ k, isLutStore fspi k (.call o ((flexspi permits fspi).exec o s).1) = false := by
  have hsame : ∀ s' : Bus, s'.dev = s.dev → s.dev.core.lutLocked = true →
      s'.dev.core.lutLocked = true ∧ ∀ i < 512, lutByte s'.dev.core i = lutByte s.dev.core i := by
    intro s' hdev hlocked
    rw [hdev]
    exact ⟨hlocked, fun _ _ => rfl⟩
  cases o with
  | store a v =>
    obtain ⟨off, rfl, hoff⟩ := h
    refine ⟨fun hlocked => ?_, fun _ => rfl⟩
    rw [exec_store]
    exact ⟨(lutLocked_store hoff _ _ v).trans hlocked,
      fun i hi => lutByte_store (fun _ => hlocked) _ v hi⟩
  | store8 a b => exact h.elim
  | write8 a b => exact ⟨hsame _ rfl, fun _ => rfl⟩
  | write32 a v => exact ⟨hsame _ rfl, fun _ => rfl⟩
  | _ => exact ⟨hsame s rfl, fun _ => rfl⟩

/-- What holds of the LUT between two calls: which bytes have been stored, and, once a table has
been set up, that the LUT is locked and what it holds. -/
def LutHolds (fspi : Nat) (W : Nat → Prop) (installed : Prop) (lut : Nat → Byte) :
    Assertion bus Bus DeviceAction := fun s t =>
  Wrote fspi W t ∧ (installed → s.dev.core.lutLocked = true ∧
    ∀ i < 512, lutByte s.dev.core i = lut i)

lemma stable_lutHolds {W : Nat → Prop} {installed : Prop} {lut : Nat → Byte} :
    (flexspi permits fspi).Stable (LutHolds fspi W installed lut) := by
  intro a s s' t hs hact
  obtain ⟨-, -, hcore, -, -⟩ := act_spec hact
  refine ⟨hs.1.snoc fun _ => rfl, ?_⟩
  rw [hcore]
  exact hs.2

/-- **The other calls leave the LUT alone.** -/
lemma lutless_triple {W : Nat → Prop} {installed : Prop} {lut : Nat → Byte} {p : Driver α}
    (hp : p.Every (Lutless fspi)) :
    (flexspi permits fspi).Triple (fun _ => LutHolds fspi W installed lut)
      (LutHolds fspi W installed lut) p fun _ => LutHolds fspi W installed lut := by
  refine Triple.invariant hp stable_lutHolds (fun _ _ _ _ hs => hs) ?_ ?_
  · rintro o s t ho ⟨hwrote, hlut⟩
    obtain ⟨hexec, hevent⟩ := exec_lutless ho s
    refine ⟨hwrote.snoc hevent, fun hinstalled => ?_⟩
    obtain ⟨hlocked, hbytes⟩ := hlut hinstalled
    obtain ⟨hlocked', hbytes'⟩ := hexec hlocked
    exact ⟨hlocked', fun i hi => (hbytes' i hi).trans (hbytes i hi)⟩
  · intro w s t _ hs
    exact ⟨hs.1.snoc fun _ => rfl, hs.2⟩

/-! ## `QSPI_SetupLut` -/

/-- A table in the memory `mem` is being laid over the LUT. -/
def Filling (fspi : Nat) (mem : Nat → Byte) (W : Nat → Prop) (lut : Nat → Byte) :
    Assertion bus Bus DeviceAction := fun s t =>
  s.mem = mem ∧ Wrote fspi W t ∧ ∀ i < 512, lutByte s.dev.core i = lut i

variable {mem : Nat → Byte} {W : Nat → Prop} {lut : Nat → Byte}

lemma stable_filling : (flexspi permits fspi).Stable (Filling fspi mem W lut) := by
  rintro a s s' t ⟨hmem, hwrote, hbytes⟩ hact
  obtain ⟨-, hmem', hcore, -, -⟩ := act_spec hact
  refine ⟨hmem'.trans hmem, hwrote.snoc fun _ => rfl, ?_⟩
  rw [hcore]
  exact hbytes

lemma stable_filling_key : (flexspi permits fspi).Stable fun s t =>
    Filling fspi mem W lut s t ∧ s.dev.core.lutKey = true :=
  stable_and stable_filling (stable_core fun _ c => c.lutKey = true)

lemma stable_filling_locked (locked : Bool) : (flexspi permits fspi).Stable fun s t =>
    Filling fspi mem W lut s t ∧ s.dev.core.lutLocked = locked :=
  stable_and stable_filling (stable_core fun _ c => c.lutLocked = locked)

/-- A store outside the LUT. -/
lemma Filling.store {off : Nat} (hoff : ¬ Reg.IsLut off) (v : Word) {s : Bus} {t : BusTrace}
    (h : Filling fspi mem W lut s t) :
    Filling fspi mem W lut { s with dev := s.dev.store off v }
      (t ++ [.call (.store (fspi + off) v) ()]) := by
  obtain ⟨hmem, hwrote, hbytes⟩ := h
  refine ⟨hmem, hwrote.snoc fun _ => rfl, fun i hi => ?_⟩
  exact (lutByte_store (fun hlut => absurd hlut hoff) _ v hi).trans (hbytes i hi)

/-- The key sequence: the key to `LUTKEY`, then `v` to `LUTCR`. -/
lemma keyed_triple {v : Word} {locked : Bool}
    (hv : ∀ c : Core, c.lutKey = true → ∀ n, (c.store n Reg.lutcr v).lutLocked = locked) :
    (flexspi permits fspi).Triple noGuarantee (Filling fspi mem W lut)
      (store (fspi + Reg.lutkey) lutkeyValue >>= fun _ => store (fspi + Reg.lutcr) v)
      fun _ s t => Filling fspi mem W lut s t ∧ s.dev.core.lutLocked = locked := by
  refine Triple.bind (Q := fun _ s t => Filling fspi mem W lut s t ∧ s.dev.core.lutKey = true)
    ?_ fun _ => ?_
  · apply store_triple stable_filling stable_filling_key fun _ _ _ => trivial
    intro s t hs
    exact ⟨hs.store (by decide) _, rfl⟩
  · apply store_triple stable_filling_key (stable_filling_locked locked) fun _ _ _ => trivial
    intro s t hs
    exact ⟨hs.1.store (by decide) _, hv _ hs.2 s.dev.received.length⟩

lemma unlockLut_triple : (flexspi permits fspi).Triple noGuarantee (Filling fspi mem W lut)
    (unlockLut fspi) fun _ s t => Filling fspi mem W lut s t ∧ s.dev.core.lutLocked = false := by
  apply keyed_triple
  intro c hkey n
  simp [Core.store_lutcr, hkey, lockerUnlock, lockerLock]

lemma lockLut_triple : (flexspi permits fspi).Triple noGuarantee (Filling fspi mem W lut)
    (lockLut fspi) fun _ s t => Filling fspi mem W lut s t ∧ s.dev.core.lutLocked = true := by
  apply keyed_triple
  intro c hkey n
  simp [Core.store_lutcr, hkey]

/-- One byte more of the table. -/
lemma Filling.store8 {table i : Nat} (hi : i < 512) {s : Bus} {t : BusTrace}
    (h : Filling fspi mem (fun k => W k ∨ k < i) (overlay mem table i lut) s t)
    (hopen : s.dev.core.lutLocked = false) (b : Byte) (hb : b = mem (table + i)) :
    Filling fspi mem (fun k => W k ∨ k < i + 1) (overlay mem table (i + 1) lut)
      { s with dev := { s.dev with core := s.dev.core.store8 (Reg.lut 0 + i) b } }
      (t ++ [.call (.store8 (fspi + (Reg.lut 0 + i)) b) ()]) := by
  obtain ⟨hmem, hwrote, hbytes⟩ := h
  refine ⟨hmem, fun k => ?_, fun j hj => ?_⟩
  · have hevent : isLutStore fspi k (.call (.store8 (fspi + (Reg.lut 0 + i)) b) ()) = true ↔
        k = i := by
      simp only [isLutStore, decide_eq_true_eq]
      omega
    rw [lutWritten_snoc, Bool.or_eq_true, hwrote k, hevent, or_assoc]
    exact or_congr_right Nat.lt_succ_iff_lt_or_eq.symm
  · rw [lutByte_store8 hopen hi, hbytes j hj]
    simp only [overlay]
    by_cases hji : j = i
    · rw [if_pos hji, if_pos (by omega), hb, hji]
    · have hlt : j < i + 1 ↔ j < i := by omega
      simp only [if_neg hji, hlt]

/-- The copy loop, from byte `i` on. -/
lemma copyBytes_triple {table n i : Nat} (hn : i + n ≤ 512) :
    (flexspi permits fspi).Triple noGuarantee
      (fun s t => Filling fspi mem (fun k => W k ∨ k < i) (overlay mem table i lut) s t ∧
        s.dev.core.lutLocked = false)
      (copyBytes (fspi + Reg.lut 0) table n i)
      fun _ => Filling fspi mem (fun k => W k ∨ k < i + n) (overlay mem table (i + n) lut) := by
  induction n generalizing i with
  | zero => exact Triple.ret stable_filling fun s t hs => hs.1
  | succ n ih =>
    have hstable : ∀ b : Byte, (flexspi permits fspi).Stable fun s t =>
        (Filling fspi mem (fun k => W k ∨ k < i) (overlay mem table i lut) s t ∧
          s.dev.core.lutLocked = false) ∧ b = mem (table + i) := fun b =>
      stable_and (stable_filling_locked false) fun _ _ _ _ hb _ => hb
    refine Triple.bind (Q := fun b s t =>
      (Filling fspi mem (fun k => W k ∨ k < i) (overlay mem table i lut) s t ∧
        s.dev.core.lutLocked = false) ∧ b = mem (table + i)) ?_ fun b => ?_
    · apply read8_triple (stable_filling_locked false) hstable fun _ _ _ => trivial
      rintro s t ⟨⟨hmem, hwrote, hbytes⟩, hopen⟩
      exact ⟨⟨⟨hmem, hwrote.snoc fun _ => rfl, hbytes⟩, hopen⟩, congrFun hmem _⟩
    · refine Triple.bind (Q := fun _ s t =>
        Filling fspi mem (fun k => W k ∨ k < i + 1) (overlay mem table (i + 1) lut) s t ∧
          s.dev.core.lutLocked = false) ?_ fun _ => ?_
      · rw [Nat.add_assoc fspi]
        apply store8_triple (hstable b) (stable_filling_locked false) fun _ _ _ => trivial
        rintro s t ⟨⟨hs, hopen⟩, hb⟩
        exact ⟨hs.store8 (by omega) hopen b hb, (lutLocked_store8 _ _ b).trans hopen⟩
      · have hshift : i + (n + 1) = i + 1 + n := by omega
        rw [hshift]
        exact ih (by omega)

/-- **`QSPI_SetupLut` lays its table over the LUT and locks it.** -/
lemma qspiSetupLut_triple {ctx : QspiContext} (hctx : ctx.flexspi = fspi) (table len : Nat) :
    (flexspi permits fspi).Triple noGuarantee (Filling fspi mem W lut)
      (qspiSetupLut ctx table len) fun _ s t =>
        (Filling fspi mem (fun k => W k ∨ k < len) (overlay mem table len lut) s t ∧
          s.dev.core.lutLocked = true) ∧ len ≤ 512 := by
  subst hctx
  refine Triple.bind (Triple.check stable_filling fun _ _ _ _ => trivial) fun _ => ?_
  apply Triple.of_pure
  intro _
  refine Triple.bind (Triple.check stable_filling fun _ _ _ _ => trivial) fun _ => ?_
  apply Triple.of_pure
  intro _
  refine Triple.bind (Triple.check stable_filling fun _ _ _ _ => trivial) fun _ => ?_
  apply Triple.of_pure
  intro hlen
  refine Triple.bind unlockLut_triple fun _ => ?_
  have hcopy : (flexspi permits ctx.flexspi).Triple noGuarantee
      (fun s t => Filling ctx.flexspi mem (fun k => W k ∨ k < 0) (overlay mem table 0 lut) s t ∧
        s.dev.core.lutLocked = false)
      (copyBytes (ctx.flexspi + Reg.lut 0) table len 0) fun _ =>
        Filling ctx.flexspi mem (fun k => W k ∨ k < 0 + len) (overlay mem table (0 + len) lut) :=
    copyBytes_triple (by omega)
  refine Triple.bind (hcopy.pre ?_) fun _ => ?_
  · -- no byte of the table has been copied yet
    rintro s t ⟨⟨hmem, hwrote, hbytes⟩, hopen⟩
    exact ⟨⟨hmem, fun k => (hwrote k).trans (by simp), fun i hi => by simp [overlay, hbytes i hi]⟩,
      hopen⟩
  · rw [Nat.zero_add]
    exact lockLut_triple.post fun _ _ _ hs => ⟨hs, hlen⟩

/-! ## Histories -/

/-- `QSPI_SetupLut`, `QSPI_Busy` and the transfers over one context, with the caller writing to its
own memory between two calls. -/
def commands (permits : Permits) (ctx : QspiContext) (s : Bus) : Setting Bus DeviceAction where
  machine := flexspi permits ctx.flexspi
  Start b := b = ⟨ctx, s, []⟩
  Elsewhere s s' := s'.dev = s.dev
  Allowed _ call := call ≠ .init ∧ call ≠ .deInit

/-- The call has stored byte `k` of the LUT. -/
def Made.Fills (m : Made Bus DeviceAction) (k : Nat) : Prop :=
  ∃ table len, m.call = .setupLut table len ∧ k < len

/-- The LUT after a call. -/
def Made.lay (lut : Nat → Byte) (m : Made Bus DeviceAction) : Nat → Byte :=
  match m.call with
  | .setupLut table len => overlay m.before.state.mem table len lut
  | _ => lut

/-- The tables of some calls laid over the LUT, in call order. -/
def laid (ms : List (Made Bus DeviceAction)) (lut : Nat → Byte) : Nat → Byte :=
  ms.foldl Made.lay lut

/-- The first call was `QSPI_SetupLut`. -/
def SetUp (ms : List (Made Bus DeviceAction)) : Prop :=
  ∃ m ∈ ms.head?, ∃ table len, m.call = .setupLut table len

/-- A call that gives back the context it was given. -/
lemma keeping_triple {G : Head bus → Assertion bus Bus DeviceAction}
    {P R : Assertion bus Bus DeviceAction} {p : Driver α} {ctx : QspiContext}
    (f : α → Option Int) (hR : (flexspi permits fspi).Stable R)
    (h : (flexspi permits fspi).Triple G P p fun _ => R) :
    (flexspi permits fspi).Triple G P (p >>= fun a => pure (ctx, f a)) fun r s t =>
      R s t ∧ r.1 = ctx := by
  refine Triple.bind h fun a => ?_
  exact Triple.ret (stable_and hR fun _ _ _ _ heq _ => heq) fun s t hs => ⟨hs, rfl⟩

lemma setupLut_call {ctx : QspiContext} (table len : Nat) :
    (flexspi permits ctx.flexspi).Triple noGuarantee (Filling ctx.flexspi mem W lut)
      ((Call.setupLut table len).run ctx) fun r s t =>
        ((Filling ctx.flexspi mem (fun k => W k ∨ k < len) (overlay mem table len lut) s t ∧
          s.dev.core.lutLocked = true) ∧ len ≤ 512) ∧ r.1 = ctx := by
  apply keeping_triple (fun _ => none) _ (qspiSetupLut_triple rfl table len)
  exact stable_and (stable_filling_locked true) fun _ _ _ _ hlen _ => hlen

/-- A transfer, or `QSPI_Busy`. -/
lemma lutless_call {ctx : QspiContext} {call : Call} (hcall : call ≠ .init ∧ call ≠ .deInit)
    (hother : ∀ table len, call ≠ .setupLut table len) {installed : Prop} :
    (flexspi permits ctx.flexspi).Triple (fun _ => LutHolds ctx.flexspi W installed lut)
      (LutHolds ctx.flexspi W installed lut) (call.run ctx) fun r s t =>
        LutHolds ctx.flexspi W installed lut s t ∧ r.1 = ctx := by
  cases call with
  | init => exact absurd rfl hcall.1
  | deInit => exact absurd rfl hcall.2
  | setupLut table len => exact absurd rfl (hother table len)
  | busy =>
    apply keeping_triple some stable_lutHolds
    apply lutless_triple
    exact (qspiBusy_every ctx).mono fun _ => lutless_of_flagHead
  | transfer kind addr buffer size =>
    apply keeping_triple some stable_lutHolds
    apply lutless_triple
    refine (kind.run_every ctx addr buffer size).mono fun d hd => ?_
    rcases hd with hd | rfl
    · exact lutless_of_transferHead hd
    · trivial

/-- What the calls made so far say of the context, of the byte stores and of the LUT. -/
structure LutState (ctx : QspiContext) (s : Bus) (ms : List (Made Bus DeviceAction))
    (b : Stage Bus DeviceAction) : Prop where
  ctx_eq : b.ctx = ctx
  fresh : ms = [] → b.state.dev = s.dev
  wrote : Wrote ctx.flexspi (fun k => ∃ m ∈ ms, m.Fills k) b.trace
  inside : ∀ m ∈ ms, ∀ k, m.Fills k → k < 512
  holds : SetUp ms → b.state.dev.core.lutLocked = true ∧
    ∀ i < 512, lutByte b.state.dev.core i = laid ms (lutByte s.dev.core) i

lemma laid_snoc (ms : List (Made Bus DeviceAction)) (m : Made Bus DeviceAction)
    (lut : Nat → Byte) : laid (ms ++ [m]) lut = m.lay (laid ms lut) := by
  simp [laid]

lemma fills_setupLut {table len : Nat} {b b' : Stage Bus DeviceAction} {k : Nat} :
    (⟨.setupLut table len, b, b'⟩ : Made Bus DeviceAction).Fills k ↔ k < len := by
  constructor
  · rintro ⟨table', len', heq, hk⟩
    injection heq with _ hlen
    rwa [hlen]
  · exact fun hk => ⟨table, len, rfl, hk⟩

section Step

variable {ctx : QspiContext} {s : Bus} {ms : List (Made Bus DeviceAction)}
  {b b' : Stage Bus DeviceAction} {r : Option Int}

/-- A `QSPI_SetupLut` more. -/
lemma LutState.setupLut (h : LutState ctx s ms b) {table len : Nat}
    (hreach : (flexspi permits ctx.flexspi).Reach
      ⟨(Call.setupLut table len).run b.ctx, b.state, b.trace⟩
      ⟨.ret (b'.ctx, r), b'.state, b'.trace⟩) :
    LutState ctx s (ms ++ [⟨.setupLut table len, b, b'⟩]) b' := by
  rw [h.ctx_eq] at hreach
  have hfilling : Filling ctx.flexspi b.state.mem (fun k => ∃ m ∈ ms, m.Fills k)
      (lutByte b.state.dev.core) b.state b.trace := ⟨rfl, h.wrote, fun _ _ => rfl⟩
  obtain ⟨⟨⟨⟨-, hwrote, hbytes⟩, hlocked⟩, hlen⟩, hctx⟩ :=
    (setupLut_call table len).returns hfilling hreach
  refine ⟨hctx, fun hms => ?_, fun k => ?_, fun m hm k hk => ?_, fun hsetUp => ⟨hlocked, ?_⟩⟩
  · exact absurd hms (List.append_ne_nil_of_right_ne_nil _ (List.cons_ne_nil _ _))
  · rw [hwrote k]
    simp only [List.mem_append, List.mem_singleton, or_and_right, exists_or, exists_eq_left,
      fills_setupLut]
  · rcases List.mem_append.mp hm with hm | hm
    · exact h.inside m hm k hk
    · obtain rfl := List.mem_singleton.mp hm
      have hlt := fills_setupLut.mp hk
      omega
  · intro i hi
    rw [hbytes i hi, laid_snoc]
    -- the bytes behind the table are those of the LUT before
    have hbefore : lutByte b.state.dev.core i = laid ms (lutByte s.dev.core) i := by
      by_cases hms : ms = []
      · rw [h.fresh hms, hms]
        rfl
      · obtain ⟨m, ms, rfl⟩ := List.exists_cons_of_ne_nil hms
        exact (h.holds hsetUp).2 i hi
    simp only [Made.lay, overlay, hbefore]

/-- A transfer or a `QSPI_Busy` more. -/
lemma LutState.other (h : LutState ctx s ms b) {call : Call}
    (hcall : call ≠ .init ∧ call ≠ .deInit) (hother : ∀ table len, call ≠ .setupLut table len)
    (hreach : (flexspi permits ctx.flexspi).Reach ⟨call.run b.ctx, b.state, b.trace⟩
      ⟨.ret (b'.ctx, r), b'.state, b'.trace⟩) :
    LutState ctx s (ms ++ [⟨call, b, b'⟩]) b' := by
  rw [h.ctx_eq] at hreach
  obtain ⟨⟨hwrote, hholds⟩, hctx⟩ :=
    (lutless_call hcall hother).returns ⟨h.wrote, h.holds⟩ hreach
  have hnot : ∀ k, ¬ (⟨call, b, b'⟩ : Made Bus DeviceAction).Fills k := by
    rintro k ⟨table, len, heq, -⟩
    exact hother table len heq
  have hsnoc : ∀ lut, laid (ms ++ [⟨call, b, b'⟩]) lut = laid ms lut := by
    intro lut
    rw [laid_snoc]
    cases call with
    | setupLut table len => exact absurd rfl (hother table len)
    | _ => rfl
  refine ⟨hctx, fun hms => ?_, fun k => ?_, fun m hm k hk => ?_, fun hsetUp => ?_⟩
  · exact absurd hms (List.append_ne_nil_of_right_ne_nil _ (List.cons_ne_nil _ _))
  · rw [hwrote k]
    simp only [List.mem_append, List.mem_singleton, or_and_right, exists_or, exists_eq_left,
      hnot, or_false]
  · rcases List.mem_append.mp hm with hm | hm
    · exact h.inside m hm k hk
    · obtain rfl := List.mem_singleton.mp hm
      exact absurd hk (hnot k)
  · simp only [hsnoc]
    apply hholds
    obtain ⟨m, hm, table, len, heq⟩ := hsetUp
    refine ⟨m, ?_, table, len, heq⟩
    cases ms with
    | nil =>
      obtain rfl := Option.mem_some.mp hm
      exact absurd heq (hother table len)
    | cons m' ms => exact hm

/-- Inside a transfer or a `QSPI_Busy`. -/
lemma LutState.within (h : LutState ctx s ms b) {call : Call}
    (hcall : call ≠ .init ∧ call ≠ .deInit) (hother : ∀ table len, call ≠ .setupLut table len)
    {c : Config bus Bus DeviceAction (QspiContext × Option Int)}
    (hreach : (flexspi permits ctx.flexspi).Reach ⟨call.run b.ctx, b.state, b.trace⟩ c) :
    LutHolds ctx.flexspi (fun k => ∃ m ∈ ms, m.Fills k) (SetUp ms) (lutByte b.state.dev.core)
      c.state c.trace := by
  rw [h.ctx_eq] at hreach
  exact (lutless_call hcall hother).throughout (fun _ _ _ hs => hs.1)
    ⟨h.wrote, fun hsetUp => ⟨(h.holds hsetUp).1, fun _ _ => rfl⟩⟩ hreach

end Step

/-- The LUT and the byte stores, whatever calls have been made. -/
theorem lutState_of_history {ctx : QspiContext} {s : Bus} {ms : List (Made Bus DeviceAction)}
    {b : Stage Bus DeviceAction} (h : History (commands permits ctx s) ms b) :
    LutState ctx s ms b := by
  induction h with
  | start h =>
    obtain rfl := h
    refine ⟨rfl, fun _ => rfl, fun k => ?_, fun m hm => ?_, fun hsetUp => ?_⟩
    · simp [lutWritten]
    · exact absurd hm List.not_mem_nil
    · obtain ⟨m, hm, -⟩ := hsetUp
      exact absurd hm (Option.not_mem_none m)
  | elsewhere _ hmove ih =>
    have hdev := hmove
    simp only [commands] at hdev
    exact ⟨ih.ctx_eq, fun hms => hdev.trans (ih.fresh hms), ih.wrote, ih.inside,
      by simpa only [hdev] using ih.holds⟩
  | call call _ hcall hreach ih =>
    by_cases hlut : ∃ table len, call = .setupLut table len
    · obtain ⟨table, len, rfl⟩ := hlut
      exact ih.setupLut hreach
    · exact ih.other hcall (fun table len heq => hlut ⟨table, len, heq⟩) hreach

end QspiTool
