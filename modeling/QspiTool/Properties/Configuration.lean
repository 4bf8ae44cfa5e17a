import QspiTool.Properties.CommandRegisters
import QspiTool.Properties.LookupTable
import QspiTool.Properties.TransferRounds

/-!
# Transfers keep the configuration

`transfer_blocking` and `QSPI_Busy` store to a dozen registers and to the window `TFDR`, whose index
may run past its array.  None of these stores overlaps a register of the configuration.  Those to
the strobes and to `FLSHCR2` write back what has just been read, with one bit set.

This is shown access by access, on every machine.  On the controller it follows that the registers
stay what they were, over any number of requests, and with the watermarks the rounds of every later
transfer.
-/

namespace QspiTool

open Words Interaction Machine

variable {σ A : Type} {M : Machine bus σ A} {fspi : Nat}

/-! ## Where a store hits -/

namespace Reg

/-- The registers that a store may not change, or only one bit of. -/
def guarded : List Nat := configuration ++ strobes ++ (List.range 4).map flshcr2

/-- The registers a store may change freely: the flags, the command, and everything behind
`DLLCR`. -/
def IsFree (off : Nat) : Prop := off = intr ∨ off = ipcr0 ∨ off = ipcr1 ∨ 0xC8 ≤ off

lemma mem_guarded_of_configuration {x : Nat} (h : x ∈ configuration) : x ∈ guarded := by
  simp [guarded, h]

lemma mem_guarded_of_strobes {x : Nat} (h : x ∈ strobes) : x ∈ guarded := by
  simp [guarded, h]

lemma flshcr2_mem_guarded (port : FlexspiPort) : flshcr2 port.index ∈ guarded := by
  cases port <;> decide

lemma guarded_layout : ∀ x ∈ guarded, x % 4 = 0 ∧
    (x + 4 ≤ intr ∨ intr + 4 ≤ x ∧ x + 4 ≤ ipcr0 ∨ ipcr1 + 4 ≤ x ∧ x + 4 ≤ 0xC8) := by
  decide

/-- The registers are words: two of them overlap only when they are the same. -/
lemma eq_of_overlaps {off x : Nat} (hoff : off ∈ guarded) (hx : x ∈ guarded)
    (h : Overlaps off x) : off = x := by
  have hoff' := (guarded_layout off hoff).1
  have hx' := (guarded_layout x hx).1
  obtain ⟨hlo, hhi⟩ := h
  omega

lemma IsFree.not_overlaps {off x : Nat} (hoff : IsFree off) (hx : x ∈ guarded) :
    ¬ Overlaps off x := by
  rintro ⟨hlo, hhi⟩
  have hlayout := (guarded_layout x hx).2
  simp only [IsFree, intr, ipcr0, ipcr1] at hoff hlayout
  omega

lemma isFree_of_isStatus {off : Nat} (h : IsStatus off) : IsFree off := by
  have hle := h.1
  refine .inr (.inr (.inr ?_))
  omega

lemma isFree_tfdr (i : Nat) : IsFree (tfdr i) := by
  refine .inr (.inr (.inr ?_))
  simp only [tfdr]
  omega

/-- A guarded register is a cell of the controller that loads read back. -/
lemma guarded_cell {x : Nat} (h : x ∈ guarded) : IsCell x ∧ ¬ IsRfdr x := by
  have hlayout := (guarded_layout x h).2
  simp only [intr, ipcr0, ipcr1] at hlayout
  simp only [IsCell, IsStatus, IsLut, IsRfdr, intr]
  omega

end Reg

/-! ## What a store may change -/

/-- The last access was a load of `off`, and `v` differs from what it has read at most in bit
`n`. -/
def Rewrites (fspi off n : Nat) (v : Word) (t : Trace bus A) : Prop :=
  ∃ l u, ownEvents t = l ++ [loadEvent (fspi + off) u] ∧ SameBut n u v

/-- A store of `v` to `off` hits no register of the configuration, of a strobe it changes at most
bit 0, and of `FLSHCR2` at most bit 31 and only for the given port. -/
structure StoreKeeps (fspi : Nat) (port? : Option FlexspiPort) (t : Trace bus A) (off : Nat)
    (v : Word) : Prop where
  configuration : ∀ x ∈ Reg.configuration, ¬ Reg.Overlaps off x
  strobes : ∀ x ∈ Reg.strobes, Reg.Overlaps off x → off = x ∧ Rewrites fspi off 0 v t
  flshcr2 : ∀ port : FlexspiPort, Reg.Overlaps off (Reg.flshcr2 port.index) →
    off = Reg.flshcr2 port.index ∧ port? = some port ∧ Rewrites fspi off 31 v t

/-- The next access, if it is a store to the controller, keeps the configuration. -/
def KeepsConfiguration (fspi : Nat) (port? : Option FlexspiPort) :
    Head bus → Assertion bus σ A
  | .call (.store a v) => fun _ t => ∃ off, a = fspi + off ∧ StoreKeeps fspi port? t off v
  | .call (.store8 _ _) => fun _ _ => False
  | _ => fun _ _ => True

/-- The access stores, if at all, to a free register. -/
def FreeStores (fspi : Nat) : Head bus → Prop
  | .call (.store a _) => ∃ off, a = fspi + off ∧ Reg.IsFree off
  | .call (.store8 _ _) => False
  | _ => True

lemma keepsConfiguration_of_free {port? : Option FlexspiPort} {d : Head bus}
    (h : FreeStores fspi d) (s : σ) (t : Trace bus A) :
    KeepsConfiguration fspi port? d s t := by
  cases d with
  | call o =>
    cases o with
    | store a v =>
      obtain ⟨off, rfl, hoff⟩ := h
      refine ⟨off, rfl, ⟨?_, ?_, ?_⟩⟩
      · intro x hx
        exact hoff.not_overlaps (Reg.mem_guarded_of_configuration hx)
      · intro x hx hover
        exact absurd hover (hoff.not_overlaps (Reg.mem_guarded_of_strobes hx))
      · intro port hover
        exact absurd hover (hoff.not_overlaps (Reg.flshcr2_mem_guarded port))
    | store8 a b => exact h
    | _ => trivial
  | _ => trivial

/-- `v` may be stored to a strobe when only bit 0 is new. -/
lemma storeKeeps_strobe {port? : Option FlexspiPort} {t : Trace bus A} {off : Nat} {v : Word}
    (hoff : off ∈ Reg.strobes) (h : Rewrites fspi off 0 v t) :
    StoreKeeps fspi port? t off v where
  configuration := by
    intro x hx hover
    have hdisjoint : ∀ x ∈ Reg.configuration, x ∉ Reg.strobes := by decide
    obtain rfl := Reg.eq_of_overlaps (Reg.mem_guarded_of_strobes hoff)
      (Reg.mem_guarded_of_configuration hx) hover
    exact hdisjoint off hx hoff
  strobes := by
    intro x hx hover
    exact ⟨Reg.eq_of_overlaps (Reg.mem_guarded_of_strobes hoff) (Reg.mem_guarded_of_strobes hx)
      hover, h⟩
  flshcr2 := by
    intro port hover
    have hoff' := Reg.eq_of_overlaps (Reg.mem_guarded_of_strobes hoff)
      (Reg.flshcr2_mem_guarded port) hover
    have hdisjoint : Reg.flshcr2 port.index ∉ Reg.strobes := by cases port <;> decide
    rw [hoff'] at hoff
    exact absurd hoff hdisjoint

/-- `v` may be stored to `FLSHCR2` of the given port when only bit 31 is new. -/
lemma storeKeeps_flshcr2 {port : FlexspiPort} {t : Trace bus A} {v : Word}
    (h : Rewrites fspi (Reg.flshcr2 port.index) 31 v t) :
    StoreKeeps fspi (some port) t (Reg.flshcr2 port.index) v where
  configuration := by
    intro x hx hover
    have hoff := Reg.eq_of_overlaps (Reg.flshcr2_mem_guarded port)
      (Reg.mem_guarded_of_configuration hx) hover
    have hdisjoint : Reg.flshcr2 port.index ∉ Reg.configuration := by cases port <;> decide
    rw [← hoff] at hx
    exact hdisjoint hx
  strobes := by
    intro x hx hover
    have hoff := Reg.eq_of_overlaps (Reg.flshcr2_mem_guarded port)
      (Reg.mem_guarded_of_strobes hx) hover
    have hdisjoint : Reg.flshcr2 port.index ∉ Reg.strobes := by cases port <;> decide
    rw [← hoff] at hx
    exact absurd hx hdisjoint
  flshcr2 := by
    intro port' hover
    have hoff := Reg.eq_of_overlaps (Reg.flshcr2_mem_guarded port)
      (Reg.flshcr2_mem_guarded port') hover
    have hport : port = port' := by
      revert hoff
      cases port <;> cases port' <;> decide
    exact ⟨hoff, congrArg some hport, h⟩

/-! ## The calls -/

section

variable {port? : Option FlexspiPort} {α : Type} {p : Driver α}

/-- What stores to free registers only keeps the configuration. -/
lemma keeps_of_freeStores (hp : p.Every (FreeStores fspi)) :
    M.Triple (KeepsConfiguration fspi port?) (fun _ _ => True) p fun _ _ _ => True :=
  Triple.of_every hp fun _ s t hd => keepsConfiguration_of_free hd s t

/-- `reg |= 1 << n`. -/
lemma orReg_keepsConfiguration {off n : Nat} {m : Word} (hm : ∀ u, SameBut n u (u ||| m))
    (h : ∀ (t : Trace bus A) (v : Word), Rewrites fspi off n v t →
      StoreKeeps fspi port? t off v) :
    M.Triple (KeepsConfiguration fspi port?) (fun _ _ => True) (orReg (fspi + off) m)
      fun _ _ _ => True := by
  have hstable : ∀ u, M.Stable fun _ t => ∃ l, ownEvents t = l ++ [loadEvent (fspi + off) u] :=
    fun u => stable_ownEvents fun t => ∃ l, t = l ++ [loadEvent (fspi + off) u]
  refine Triple.bind (Q := fun u _ t => ∃ l, ownEvents t = l ++ [loadEvent (fspi + off) u]) ?_
    fun u => ?_
  · refine Triple.op (S := bus) stable_true hstable (fun _ _ _ => trivial) fun s t _ => ?_
    exact ⟨ownEvents t, ownEvents_call t _ _⟩
  · refine Triple.op (S := bus) (hstable u) (fun _ => stable_true) ?_ fun _ _ _ => trivial
    rintro s t ⟨l, hl⟩
    exact ⟨off, rfl, h t _ ⟨l, u, hl, hm u⟩⟩

lemma orReg_strobe_keepsConfiguration {off : Nat} (hoff : off ∈ Reg.strobes) :
    M.Triple (KeepsConfiguration fspi port?) (fun _ _ => True) (orReg (fspi + off) 1#32)
      fun _ _ _ => True :=
  orReg_keepsConfiguration (sameBut_or_bit 0) fun _ _ => storeKeeps_strobe hoff

end

lemma freeStores_flag {d : Head bus} (h : FlagHead fspi d) : FreeStores fspi d := by
  cases h with
  | loadIntr => trivial
  | storeIntr v => exact ⟨Reg.intr, rfl, .inl rfl⟩
  | loadStatus hoff => trivial
  | storeStatus v hoff => exact ⟨_, rfl, Reg.isFree_of_isStatus hoff⟩

lemma freeStores_write {bound : Nat} {d : Head bus} (h : WriteHead fspi bound d) :
    FreeStores fspi d := by
  cases h with
  | flag hf => exact freeStores_flag hf
  | wait => trivial
  | chunk hc =>
    cases hc with
    | read32 a => trivial
    | read8 a => trivial
    | fill v hi => exact ⟨_, rfl, Reg.isFree_tfdr _⟩

lemma freeStores_read {bound : Nat} {d : Head bus} (h : ReadHead fspi bound d) :
    FreeStores fspi d := by
  cases h with
  | flag hf => exact freeStores_flag hf
  | wait => trivial
  | chunk hc =>
    cases hc with
    | fetch hi => trivial
    | write32 a v => trivial
    | write8 a b => trivial

section

variable {port? : Option FlexspiPort}

lemma check_keepsConfiguration (c : Prop) [Decidable c] :
    M.Triple (KeepsConfiguration fspi port?) (fun _ _ => True) (check c) fun _ _ _ => True :=
  keeps_of_freeStores ((Prog.every_check c).mpr (.inr trivial))

lemma writeBlocking_keepsConfiguration (buffer size : Nat) :
    M.Triple (KeepsConfiguration fspi port?) (fun _ _ => True) (writeBlocking fspi buffer size)
      fun _ _ _ => True := by
  refine Triple.bind (check_keepsConfiguration _) fun _ => keeps_of_freeStores ?_
  refine (load_every trivial).bind fun v => ?_
  exact ((writeLoop_every (watermarkOf v) buffer size).mono fun _ => freeStores_write).bind
    fun _ => trivial

lemma readBlocking_keepsConfiguration (buffer size : Nat) :
    M.Triple (KeepsConfiguration fspi port?) (fun _ _ => True) (readBlocking fspi buffer size)
      fun _ _ _ => True := by
  refine Triple.bind (check_keepsConfiguration _) fun _ => ?_
  refine Triple.bind (keeps_of_freeStores (load_every trivial)) fun v => ?_
  refine Triple.bind (orReg_strobe_keepsConfiguration (by decide)) fun _ => keeps_of_freeStores ?_
  exact ((readLoop_every (watermarkOf v) buffer size).mono fun _ => freeStores_read).bind
    fun _ => trivial

lemma moveData_keepsConfiguration (xfer : FlexspiTransfer) :
    M.Triple (KeepsConfiguration fspi port?) (fun _ _ => True) (moveData fspi xfer)
      fun _ _ _ => True := by
  unfold moveData
  split
  · exact writeBlocking_keepsConfiguration xfer.data _
  · exact writeBlocking_keepsConfiguration xfer.data _
  · exact readBlocking_keepsConfiguration xfer.data _
  · exact keeps_of_freeStores trivial

lemma clearFlags_keepsConfiguration :
    M.Triple (KeepsConfiguration fspi port?) (fun _ _ => True) (clearFlags fspi)
      fun _ _ _ => True :=
  keeps_of_freeStores (clearFlags_every.mono fun _ => freeStores_flag)

lemma awaitCommand_keepsConfiguration (result : Int) :
    M.Triple (KeepsConfiguration fspi port?) (fun _ _ => True) (awaitCommand fspi result)
      fun _ _ _ => True := by
  apply keeps_of_freeStores
  refine (waitBit_every trivial).bind fun _ => ?_
  split
  · exact (orReg_every trivial fun v => ⟨Reg.intr, rfl, .inl rfl⟩).bind fun _ => trivial
  · trivial

end

lemma setupCommand_keepsConfiguration (xfer : FlexspiTransfer) :
    M.Triple (KeepsConfiguration fspi (some xfer.port)) (fun _ _ => True)
      (setupCommand fspi xfer) fun _ _ _ => True := by
  have hcommand : ∀ {off : Nat} (v : Word), Reg.IsFree off →
      M.Triple (KeepsConfiguration fspi (some xfer.port)) (fun _ _ => True) (store (fspi + off) v)
        fun _ _ _ => True := fun v hoff => keeps_of_freeStores (store_every ⟨_, rfl, hoff⟩)
  refine Triple.bind (orReg_keepsConfiguration (sameBut_or_bit 31) fun _ _ => storeKeeps_flshcr2)
    fun _ => ?_
  refine Triple.bind clearFlags_keepsConfiguration fun _ => ?_
  refine Triple.bind (hcommand _ (.inr (.inl rfl))) fun _ => ?_
  refine Triple.bind (orReg_strobe_keepsConfiguration (by decide)) fun _ => ?_
  refine Triple.bind (orReg_strobe_keepsConfiguration (by decide)) fun _ => ?_
  exact hcommand _ (.inr (.inr (.inl rfl)))

/-- **A transfer keeps the configuration**, on every machine. -/
theorem transferBlocking_keepsConfiguration (xfer : FlexspiTransfer) :
    M.Triple (KeepsConfiguration fspi (some xfer.port)) (fun _ _ => True)
      (transferBlocking fspi xfer) fun _ _ _ => True := by
  refine Triple.bind (setupCommand_keepsConfiguration xfer) fun _ => ?_
  refine Triple.bind (orReg_strobe_keepsConfiguration (by decide)) fun _ => ?_
  exact Triple.bind (moveData_keepsConfiguration xfer) fun r => awaitCommand_keepsConfiguration r

/-- `QSPI_Busy` keeps the configuration. -/
theorem qspiBusy_keepsConfiguration (ctx : QspiContext) :
    M.Triple (KeepsConfiguration ctx.flexspi none) (fun _ _ => True) (qspiBusy ctx)
      fun _ _ _ => True :=
  keeps_of_freeStores ((qspiBusy_every ctx).mono fun _ => freeStores_flag)

/-! ## What the registers keep -/

namespace Core

/-- The watermark that cuts the data of a direction. -/
def watermark (c : Core) (dir : Direction) : Watermark := watermarkOf (c.reg dir.control)

/-- `c` is configured as `c₀`: at most the strobes' bits 0 and the bits 31 of `FLSHCR2` differ. -/
structure ConfiguredAs (c₀ c : Core) : Prop where
  configuration : ∀ x ∈ Reg.configuration, c.reg x = c₀.reg x
  strobes : ∀ x ∈ Reg.strobes, SameBut 0 (c₀.reg x) (c.reg x)
  flshcr2 : ∀ port : FlexspiPort,
    SameBut 31 (c₀.reg (Reg.flshcr2 port.index)) (c.reg (Reg.flshcr2 port.index))

variable {c₀ c : Core}

lemma ConfiguredAs.refl (c : Core) : ConfiguredAs c c where
  configuration _ _ := rfl
  strobes _ _ := SameBut.refl 0 _
  flshcr2 _ := SameBut.refl 31 _

lemma control_mem_strobes (dir : Direction) : dir.control ∈ Reg.strobes := by
  cases dir <;> decide

/-- The same configuration, the same watermarks. -/
lemma ConfiguredAs.watermark_eq (h : ConfiguredAs c₀ c) (dir : Direction) :
    c.watermark dir = c₀.watermark dir :=
  watermarkOf_congr (h.strobes dir.control (control_mem_strobes dir))

/-- A store of what has been read, with at most bit `n` changed, to one of the guarded registers. -/
lemma sameBut_store {x off m n : Nat} {v : Word} (hx : x ∈ Reg.guarded)
    (h : SameBut n (c₀.reg x) (c.reg x))
    (hstore : Reg.Overlaps off x → off = x ∧ SameBut n (c.reg x) v) :
    SameBut n (c₀.reg x) ((c.store m off v).reg x) := by
  by_cases hover : Reg.Overlaps off x
  · obtain ⟨rfl, hsame⟩ := hstore hover
    rw [store_reg c m v (Reg.guarded_cell hx).1, Function.update_self]
    exact h.trans hsame
  · have hne : x ≠ off := by
      rintro rfl
      exact hover ⟨by omega, by omega⟩
    rwa [store_reg_of_ne c m v hne]

end Core

/-- The last access, if it was a load of a guarded register, has read what the core keeps there. -/
def ReadsBack (fspi : Nat) (c : Core) (t : Trace bus A) : Prop :=
  ∀ x ∈ Reg.guarded, ∀ l u, ownEvents t = l ++ [loadEvent (fspi + x) u] → u = c.reg x

lemma Rewrites.sameBut {c : Core} {t : Trace bus A} {x n : Nat} {v : Word}
    (h : Rewrites fspi x n v t) (hread : ReadsBack fspi c t) (hx : x ∈ Reg.guarded) :
    SameBut n (c.reg x) v := by
  obtain ⟨l, u, hevents, hsame⟩ := h
  rwa [hread x hx l u hevents] at hsame

/-- A store that keeps the configuration keeps that of the core. -/
lemma Core.ConfiguredAs.store {c₀ c : Core} (h : c₀.ConfiguredAs c) {port? : Option FlexspiPort}
    {t : Trace bus A} {off : Nat} {v : Word} (hkeep : StoreKeeps fspi port? t off v)
    (hread : ReadsBack fspi c t) (m : Nat) : c₀.ConfiguredAs (c.store m off v) where
  configuration := by
    intro x hx
    have hne : x ≠ off := by
      rintro rfl
      exact hkeep.configuration x hx ⟨by omega, by omega⟩
    rw [Core.store_reg_of_ne c m v hne, h.configuration x hx]
  strobes := by
    intro x hx
    have hguarded := Reg.mem_guarded_of_strobes hx
    refine Core.sameBut_store hguarded (h.strobes x hx) fun hover => ?_
    obtain ⟨rfl, hrewrites⟩ := hkeep.strobes x hx hover
    exact ⟨rfl, hrewrites.sameBut hread hguarded⟩
  flshcr2 := by
    intro port
    have hguarded := Reg.flshcr2_mem_guarded port
    refine Core.sameBut_store hguarded (h.flshcr2 port) fun hover => ?_
    obtain ⟨rfl, -, hrewrites⟩ := hkeep.flshcr2 port hover
    exact ⟨rfl, hrewrites.sameBut hread hguarded⟩

/-- The configuration is that of `c₀`, and so have been the watermarks that the driver has read. -/
structure StillConfigured (fspi : Nat) (c₀ : Core) (s : Bus) (t : BusTrace) : Prop where
  configured : c₀.ConfiguredAs s.dev.core
  readsBack : ReadsBack fspi s.dev.core t
  levels : ∀ (dir : Direction) (v : Word), loadEvent (fspi + dir.control) v ∈ t →
    watermarkOf v = c₀.watermark dir

section

variable {permits : Permits} {c₀ : Core} {s s' : Bus} {t : BusTrace}

lemma stillConfigured_start (fspi : Nat) (s : Bus) : StillConfigured fspi s.dev.core s [] where
  configured := Core.ConfiguredAs.refl _
  readsBack := by
    intro x _ l u h
    exact absurd h.symm (List.append_ne_nil_of_right_ne_nil l (List.cons_ne_nil _ _))
  levels := by
    intro dir v h
    cases h

/-- A load of a guarded register answers what the core keeps there. -/
lemma StillConfigured.load (h : StillConfigured fspi c₀ s t) (a : Nat) :
    StillConfigured fspi c₀ s (t ++ [loadEvent a (s.dev.load (a - fspi))]) := by
  have hread : ∀ x ∈ Reg.guarded, a = fspi + x → s.dev.load (a - fspi) = s.dev.core.reg x := by
    rintro x hx rfl
    obtain ⟨⟨hintr, hstatus, -⟩, hrfdr⟩ := Reg.guarded_cell hx
    rw [Nat.add_sub_cancel_left, Controller.load_core _ hintr hstatus hrfdr]
  refine ⟨h.configured, ?_, ?_⟩
  · intro x hx l u hevents
    rw [ownEvents_call] at hevents
    obtain ⟨-, hlast⟩ := List.append_inj' hevents rfl
    obtain ⟨hload, hu⟩ := Event.call.inj (List.cons.inj hlast).1
    obtain rfl := Access.load.inj hload
    exact (eq_of_heq hu).symm.trans (hread x hx rfl)
  · intro dir v hv
    obtain hv | hv := List.mem_append.mp hv
    · exact h.levels dir v hv
    · obtain ⟨hload, hu⟩ := Event.call.inj (List.mem_singleton.mp hv)
      have hcontrol := Core.control_mem_strobes dir
      obtain rfl := eq_of_heq hu
      rw [hread _ (Reg.mem_guarded_of_strobes hcontrol) (Access.load.inj hload).symm]
      exact h.configured.watermark_eq dir

/-- Anything else the driver does, when it keeps the configuration of the core. -/
lemma StillConfigured.other (h : StillConfigured fspi c₀ s t) {e : Event bus DeviceAction}
    (hown : e.isOwn = true) (hload : ∀ a v, e ≠ loadEvent a v) (hc : c₀.ConfiguredAs s'.dev.core) :
    StillConfigured fspi c₀ s' (t ++ [e]) where
  configured := hc
  readsBack := by
    intro x _ l u hevents
    have hown' : ownEvents (t ++ [e]) = ownEvents t ++ [e] := by simp [ownEvents, hown]
    rw [hown'] at hevents
    exact absurd (List.cons.inj (List.append_inj' hevents rfl).2).1 (hload _ u)
  levels := by
    intro dir v hv
    obtain hv | hv := List.mem_append.mp hv
    · exact h.levels dir v hv
    · exact absurd (List.mem_singleton.mp hv).symm (hload _ v)

lemma stable_stillConfigured : (flexspi permits fspi).Stable (StillConfigured fspi c₀) := by
  intro a s s' t h hact
  obtain ⟨-, -, hcore, -, -⟩ := act_spec hact
  refine ⟨?_, ?_, ?_⟩
  · rw [hcore]
    exact h.configured
  · intro x hx l u hevents
    rw [ownEvents_act] at hevents
    rw [hcore]
    exact h.readsBack x hx l u hevents
  · intro dir v hv
    obtain hv | hv := List.mem_append.mp hv
    · exact h.levels dir v hv
    · cases List.mem_singleton.mp hv

/-- **One access** that keeps the configuration. -/
lemma stillConfigured_call {port? : Option FlexspiPort} (o : Access) (s : Bus) (t : BusTrace)
    (hkeep : KeepsConfiguration fspi port? (.call o) s t) (h : StillConfigured fspi c₀ s t) :
    StillConfigured fspi c₀ ((flexspi permits fspi).exec o s).2
      (t ++ [.call o ((flexspi permits fspi).exec o s).1]) := by
  cases o with
  | load a => exact h.load a
  | store a v =>
    obtain ⟨off, rfl, hstore⟩ := hkeep
    simp only [exec_store]
    exact h.other rfl (by rintro _ _ ⟨⟩) (h.configured.store hstore h.readsBack _)
  | store8 a b => exact hkeep.elim
  | _ => exact h.other rfl (by rintro _ _ ⟨⟩) h.configured

lemma stillConfigured_reach {port? : Option FlexspiPort} {α : Type} {p : Driver α}
    (hp : (flexspi permits fspi).Triple (KeepsConfiguration fspi port?) (fun _ _ => True) p
      fun _ _ _ => True) (h : StillConfigured fspi c₀ s t) {c : Config bus Bus DeviceAction α}
    (hreach : (flexspi permits fspi).Reach ⟨p, s, t⟩ c) :
    StillConfigured fspi c₀ c.state c.trace := by
  refine hp.keeps stable_stillConfigured stillConfigured_call ?_ trivial h hreach
  intro w s t _ h
  exact h.other rfl (by rintro _ _ ⟨⟩) h.configured

end

/-! ## Runs of requests -/

/-- A call of `transfer_blocking` or of `QSPI_Busy`. -/
inductive Request
  | transfer (xfer : FlexspiTransfer)
  | busy

namespace Request

def run (ctx : QspiContext) : Request → Driver Int
  | transfer xfer => transferBlocking ctx.flexspi xfer
  | busy => qspiBusy ctx

/-- The port the request selects. -/
def port? : Request → Option FlexspiPort
  | transfer xfer => some xfer.port
  | busy => none

lemma keeps (ctx : QspiContext) (r : Request) :
    M.Triple (KeepsConfiguration ctx.flexspi r.port?) (fun _ _ => True) (r.run ctx)
      fun _ _ _ => True := by
  cases r with
  | transfer xfer => exact transferBlocking_keepsConfiguration xfer
  | busy => exact qspiBusy_keepsConfiguration ctx

end Request

/-- From the state `s₀` some requests have been made, and the last one has returned.  Between two
requests the caller may write to its own memory. -/
inductive Served (permits : Permits) (ctx : QspiContext) (s₀ : Bus) :
    List Request → Bus → BusTrace → Prop
  | start : Served permits ctx s₀ [] s₀ []
  | elsewhere {rs : List Request} {s : Bus} {t : BusTrace} (mem : Nat → Byte)
      (h : Served permits ctx s₀ rs s t) : Served permits ctx s₀ rs { s with mem := mem } t
  | request {rs : List Request} {s s' : Bus} {t t' : BusTrace} {result : Int} (r : Request)
      (h : Served permits ctx s₀ rs s t)
      (hreach : (flexspi permits ctx.flexspi).Reach ⟨r.run ctx, s, t⟩ ⟨.ret result, s', t'⟩) :
      Served permits ctx s₀ (rs ++ [r]) s' t'

variable {permits : Permits} {ctx : QspiContext} {s₀ s : Bus} {rs : List Request} {t : BusTrace}

/-- Make some requests, each under its schedule, if all of them return. -/
def serve (permits : Permits) (ctx : QspiContext) :
    List (Request × List (Tick DeviceAction)) → Bus → BusTrace → Option (Bus × BusTrace)
  | [], s, t => some (s, t)
  | (r, ticks) :: plan, s, t =>
      ((flexspi permits ctx.flexspi).run ticks ⟨r.run ctx, s, t⟩).bind fun c =>
        c.prog.value?.bind fun _ => serve permits ctx plan c.state c.trace

lemma served_of_serve {plan : List (Request × List (Tick DeviceAction))} {s' : Bus}
    {t' : BusTrace} (h : Served permits ctx s₀ rs s t)
    (hserve : serve permits ctx plan s t = some (s', t')) :
    Served permits ctx s₀ (rs ++ plan.map Prod.fst) s' t' := by
  induction plan generalizing rs s t with
  | nil =>
    obtain ⟨rfl, rfl⟩ := Prod.mk.inj (Option.some.inj hserve)
    rwa [List.map_nil, List.append_nil]
  | cons x plan ih =>
    obtain ⟨⟨p, s₁, t₁⟩, hrun, hrest⟩ := Option.bind_eq_some_iff.mp hserve
    obtain ⟨result, hresult, hserve⟩ := Option.bind_eq_some_iff.mp hrest
    obtain rfl := Prog.eq_ret_of_value? hresult
    have hone := ih (h.request x.1 (reach_of_run hrun)) hserve
    rwa [List.append_assoc, List.singleton_append] at hone

/-- Any number of requests keep the configuration. -/
lemma Served.stillConfigured (h : Served permits ctx s₀ rs s t) :
    StillConfigured ctx.flexspi s₀.dev.core s t := by
  induction h with
  | start => exact stillConfigured_start ctx.flexspi s₀
  | elsewhere mem _ ih => exact ⟨ih.configured, ih.readsBack, ih.levels⟩
  | request r _ hreach ih => exact stillConfigured_reach (r.keeps ctx) ih hreach

/-- **Requests keep the configuration.**  After any requests, wherever the next one stands: a store
it is about to make hits no register of the configuration, and rewrites the strobes and `FLSHCR2` of
its own port as read but for bit 0 or bit 31.  The controller is configured as before the first
request, its watermarks are the ones of then, and they cut the data of a transfer that returns. -/
theorem requests_keep_configuration (h : Served permits ctx s₀ rs s t) (r : Request)
    {c : Config bus Bus DeviceAction Int}
    (hreach : (flexspi permits ctx.flexspi).Reach ⟨r.run ctx, s, t⟩ c) :
    KeepsConfiguration ctx.flexspi r.port? c.prog.head c.state c.trace ∧
    s₀.dev.core.ConfiguredAs c.state.dev.core ∧
    (∀ dir, c.state.dev.core.watermark dir = s₀.dev.core.watermark dir) ∧
    ∀ xfer, r = .transfer xfer → xfer.Accepted → c.prog.head = .done →
      InRounds xfer.cmdType.direction xfer.dataSize.toNat
        (s₀.dev.core.watermark xfer.cmdType.direction)
        (marks ctx.flexspi t) (marks ctx.flexspi c.trace) := by
  have hkept : StillConfigured ctx.flexspi s₀.dev.core c.state c.trace :=
    stillConfigured_reach (r.keeps ctx) h.stillConfigured hreach
  refine ⟨?_, hkept.configured, hkept.configured.watermark_eq, ?_⟩
  · by_cases hdone : c.prog.head = .done
    · rw [hdone]
      trivial
    · exact (r.keeps ctx).guarantee trivial hreach hdone
  · rintro xfer rfl hacc hdone
    obtain ⟨p, s', t'⟩ := c
    obtain ⟨result, rfl⟩ := Prog.exists_ret_of_head hdone
    obtain ⟨level, hlevel, hrounds⟩ :=
      (transferBlocking_roundsMade (flexspiBuffers permits ctx.flexspi) hacc).returns rfl hreach
    rwa [hkept.levels _ level (loadEvent_of_level hlevel)] at hrounds

/-- A read of four bytes. -/
def narrowRead : FlexspiTransfer where
  deviceAddress := 0#32
  port := .portA1
  cmdType := .read
  seqIndex := 0#8
  seqNumber := 1#8
  data := 0x40
  dataSize := 4#16

/-- A write of 132 bytes. -/
def wideWrite : FlexspiTransfer where
  deviceAddress := 0#32
  port := .portA2
  cmdType := .write
  seqIndex := 0#8
  seqNumber := 1#8
  data := 0x80
  dataSize := 132#16

def wideWriteTicks : List (Tick DeviceAction) :=
  timed [(17, .raise (bit txEmpty)), (75, .raise (bit cmdDone))] 3

/-- A read and `QSPI_Busy`. -/
def readThenBusy : List (Request × List (Tick DeviceAction)) :=
  [(.transfer narrowRead, timed [(19, .raise (bit rxWatermarkFlag)), (11, .raise (bit cmdDone))] 3),
    (.busy, timed [] 5)]

/-- A read and `QSPI_Busy`, then a write at the largest watermark, whose last word goes behind
`TFDR`. -/
theorem requests_keep_configuration_wide :
    ∃ s t c, Served anyAction readyContext wideWindow [.transfer narrowRead, .busy] s t ∧
      (flexspi anyAction 4096).Reach ⟨(Request.transfer wideWrite).run readyContext, s, t⟩ c ∧
      (c.state.dev.core.watermark .taken).val = 128 ∧
      InRounds .taken 132 (wideWindow.dev.core.watermark .taken) (marks 4096 t)
        (marks 4096 c.trace) := by
  have htest : (serve anyAction readyContext readThenBusy wideWindow []).any (fun x =>
      ((flexspi anyAction 4096).run wideWriteTicks
        ⟨(Request.transfer wideWrite).run readyContext, x.1, x.2⟩).any fun c =>
          c.prog.value?.isSome) = true := by
    decide +kernel
  obtain ⟨⟨s, t⟩, hserve, hrun⟩ := (Option.any_eq_true _ _).mp htest
  have hserved : Served anyAction readyContext wideWindow [.transfer narrowRead, .busy] s t :=
    served_of_serve .start hserve
  obtain ⟨⟨p, s', t'⟩, hreach, hvalue⟩ := exists_reach_of_run _ hrun
  obtain ⟨result, hresult⟩ := Option.isSome_iff_exists.mp hvalue
  obtain rfl := Prog.eq_ret_of_value? hresult
  obtain ⟨-, -, hwatermark, hrounds⟩ :=
    requests_keep_configuration hserved (.transfer wideWrite) hreach
  refine ⟨s, t, _, hserved, hreach, ?_, hrounds wideWrite rfl ⟨by decide, by decide⟩ rfl⟩
  rw [hwatermark]
  decide

end QspiTool
