import QspiTool.Device.Sequencer
import QspiTool.Properties.InstalledSequences

/-!
# The controller executes the commands of the calls

Seen from outside, the public calls drive the abstract machine of `Device.Sequencer`: whatever the
device does between two accesses, the controller executes one command for each transfer, in the
order of the calls, with the words that the tables set up before it have put into its sequence.  A
call that is under way has executed its command or has not; there is nothing in between.
-/

namespace QspiTool

open Words Interaction Machine

variable {permits : Permits} {fspi : Nat} {s₀ : Bus} {t₀ : BusTrace} {l : List Command}

/-! ## What the observer of `IPCMD` sees of a transfer -/

/-- The commands executed since the observer began. -/
abbrev Executed (permits : Permits) (fspi : Nat) (s₀ : Bus) (t₀ : BusTrace) (l : List Command) :
    Assertion bus Bus DeviceAction :=
  (flexspi permits fspi).Seen (executes fspi) s₀ t₀ l

lemma hidden_of_triggerFree {d : Head bus} (h : TriggerFree fspi d) : Hidden (executes fspi) d := by
  cases d with
  | call o =>
    cases o with
    | store a v => exact fun s => if_neg fun htrigger => of_decide_eq_false h htrigger.1
    | _ => exact fun s => rfl
  | poll w => exact fun s => rfl
  | abort => trivial
  | done => trivial

lemma executed_quiet {α : Type} {p : Driver α} (hp : p.Every (TriggerFree fspi)) :
    (flexspi permits fspi).Triple (fun _ => Executed permits fspi s₀ t₀ l)
      (Executed permits fspi s₀ t₀ l) p fun _ => Executed permits fspi s₀ t₀ l :=
  hidden_triple (hp.mono fun _ => hidden_of_triggerFree)

/-- The command has been executed, or nothing has happened yet. -/
abbrev AtMost (permits : Permits) (fspi : Nat) (s₀ : Bus) (t₀ : BusTrace) (l m : List Command)
    (_ : Head bus) : Assertion bus Bus DeviceAction := fun s t =>
  Executed permits fspi s₀ t₀ l s t ∨ Executed permits fspi s₀ t₀ (l ++ m) s t

/-- The trigger executes what the registers say. -/
lemma trigger_executes {reg : Nat → Word} {cmd : Command}
    (hcmd : ∀ c : Core, c.reg = reg → c.command = cmd) :
    (flexspi permits fspi).Triple (AtMost permits fspi s₀ t₀ l [cmd])
      (fun s t => Executed permits fspi s₀ t₀ l s t ∧ s.dev.core.reg = reg)
      (orReg (fspi + Reg.ipcmd) 1#32) fun _ => Executed permits fspi s₀ t₀ (l ++ [cmd]) := by
  have hreg : (flexspi permits fspi).Stable fun s _ => s.dev.core.reg = reg :=
    stable_core fun _ c => c.reg = reg
  refine Triple.bind (Q := fun _ s t => Executed permits fspi s₀ t₀ l s t ∧ s.dev.core.reg = reg)
    ?_ fun v => ?_
  · apply load_triple (stable_and stable_seen hreg) (fun _ => stable_and stable_seen hreg)
    · exact fun s t hs => .inl hs.1
    · intro s t hs
      have hcall := hs.1.call (.load (fspi + Reg.ipcmd))
      simp only [exec_load, executes, List.append_nil] at hcall
      exact ⟨hcall, hs.2⟩
  · apply store_triple (stable_and stable_seen hreg) stable_seen
    · exact fun s t hs => .inl hs.1
    · intro s t hs
      have hcall := hs.1.call (.store (fspi + Reg.ipcmd) (v ||| 1#32))
      have htrigger : executes fspi s (.store (fspi + Reg.ipcmd) (v ||| 1#32)) = [cmd] := by
        rw [← hcmd s.dev.core hs.2]
        exact if_pos ⟨rfl, by simp⟩
      rw [exec_store, htrigger] at hcall
      exact hcall

lemma transferBlocking_executes {xfer : FlexspiTransfer} {mem : Nat → Byte} {reg : Nat → Word}
    {cmd : Command} (hcmd : ∀ c : Core, c.reg = setupRegs xfer reg → c.command = cmd) :
    (flexspi permits fspi).Triple (AtMost permits fspi s₀ t₀ l [cmd])
      (fun s t => Executed permits fspi s₀ t₀ l s t ∧ RegState mem reg s t)
      (transferBlocking fspi xfer) fun _ => Executed permits fspi s₀ t₀ (l ++ [cmd]) := by
  have hsetup : (flexspi permits fspi).Triple (AtMost permits fspi s₀ t₀ l [cmd])
      (fun s t => Executed permits fspi s₀ t₀ l s t ∧ RegState mem reg s t)
      (setupCommand fspi xfer) fun _ s t =>
        Executed permits fspi s₀ t₀ l s t ∧ s.dev.core.reg = setupRegs xfer reg := by
    have hquiet : (flexspi permits fspi).Triple (fun _ => Executed permits fspi s₀ t₀ l)
        (Executed permits fspi s₀ t₀ l) (setupCommand fspi xfer)
        fun _ => Executed permits fspi s₀ t₀ l := executed_quiet (setupCommand_triggerFree xfer)
    exact ((hquiet.and (setupCommand_tx xfer)).allow fun _ _ _ hs => .inl hs.1).post fun _ _ _ hs =>
      ⟨hs.1, hs.2.2.1⟩
  refine Triple.bind hsetup fun _ => Triple.bind (trigger_executes hcmd) fun _ => ?_
  apply (executed_quiet _).allow fun _ _ _ hs => .inr hs
  exact (moveData_triggerFree xfer).bind fun r => awaitCommand_triggerFree r

/-! ## One call -/

/-- The registers behind the setup describe the command of the transfer. -/
lemma command_setupRegs (kind : Transfer) (addr : Word) (buffer : Nat) (size : BitVec 64)
    {c₀ c : Core} (h : c.reg = setupRegs (kind.descriptor addr buffer size) c₀.reg) :
    c.command = c₀.sequencer.command kind addr size := by
  have hkind : (kind.descriptor addr buffer size).cmdType ≠ .command := by
    cases kind <;> rintro ⟨⟩
  have hcfg : c.reg Reg.ipcr1 = configValue (kind.descriptor addr buffer size) := by
    rw [h, setupRegs, Function.update_self]
  have haddr : c.reg Reg.ipcr0 = addr := by
    rw [h, setupRegs, Function.update_of_ne (by decide), Function.update_of_ne (by decide),
      Function.update_of_ne (by decide), Function.update_self]
    rfl
  have hlut : lutByte c = lutByte c₀ := by
    funext i
    rw [lutByte, lutByte, h, setupRegs_of_ge _ _ (by simp only [Reg.lut]; omega)]
  have hindex := read_ipcr1SeqIndex hkind
  have hsize := read_ipcr1DataSize hkind
  have hmore := read_ipcr1SeqNumber hkind (Nat.le_refl 1)
  rw [Core.command, hcfg, haddr, hlut, hindex, hsize, hmore]
  simp only [Transfer.descriptor, BitVec.toNat_setWidth]
  rfl

/-- A transfer executes the command that its descriptor describes. -/
lemma loggedTransfer_executes (kind : Transfer) (addr : Word) (buffer : Nat) (size : BitVec 64)
    (s₀ : Bus) (t₀ : BusTrace) :
    (flexspi permits fspi).Triple
      (AtMost permits fspi s₀ t₀ [] [s₀.dev.core.sequencer.command kind addr size])
      (fun s t => Executed permits fspi s₀ t₀ [] s t ∧ RegState s₀.mem s₀.dev.core.reg s t)
      (loggedTransfer fspi (kind.descriptor addr buffer size)) fun _ =>
        Executed permits fspi s₀ t₀ [s₀.dev.core.sequencer.command kind addr size] := by
  refine Triple.bind (transferBlocking_executes fun c hc =>
    command_setupRegs kind addr buffer size hc) fun r => ?_
  have hload : ∀ off, (load (fspi + off)).Every (TriggerFree fspi) := fun off => load_every rfl
  refine Triple.allow (executed_quiet ?_) fun _ _ _ hs => .inr hs
  exact (hload _).bind fun _ => (hload _).bind fun _ => (hload _).bind fun _ => trivial

/-- So does every public transfer, once its arguments have been checked. -/
lemma transfer_executes (kind : Transfer) (ctx : QspiContext) (addr : Word) (buffer : Nat)
    (size : BitVec 64) (s₀ : Bus) (t₀ : BusTrace) :
    (flexspi permits ctx.flexspi).Triple
      (AtMost permits ctx.flexspi s₀ t₀ [] [s₀.dev.core.sequencer.command kind addr size])
      (fun s t => Executed permits ctx.flexspi s₀ t₀ [] s t ∧
        RegState s₀.mem s₀.dev.core.reg s t)
      (kind.run ctx addr buffer size) fun _ =>
        Executed permits ctx.flexspi s₀ t₀ [s₀.dev.core.sequencer.command kind addr size] := by
  have hlogged : (flexspi permits ctx.flexspi).Triple _ _ _ _ :=
    loggedTransfer_executes kind addr buffer size s₀ t₀
  have hchecked : ∀ (c : Prop) [Decidable c], (flexspi permits ctx.flexspi).Triple
      (AtMost permits ctx.flexspi s₀ t₀ [] [s₀.dev.core.sequencer.command kind addr size])
      (fun s t => Executed permits ctx.flexspi s₀ t₀ [] s t ∧
        RegState s₀.mem s₀.dev.core.reg s t)
      (check c >>= fun _ => loggedTransfer ctx.flexspi (kind.descriptor addr buffer size))
      fun _ => Executed permits ctx.flexspi s₀ t₀
        [s₀.dev.core.sequencer.command kind addr size] := by
    intro c _
    refine Triple.bind (Triple.check (stable_and stable_seen stable_regState)
      fun s t hs _ => .inl hs.1) fun _ => ?_
    exact hlogged.pre fun s t hs => hs.1
  cases kind with
  | write lutIndex => exact hlogged
  | read => exact hchecked _
  | readSample => exact hchecked _

/-- **A call executes its command once**, or, where it stands still, has not yet. -/
lemma call_executes (permits : Permits) (ctx : QspiContext) {call : Call}
    (hcall : call ≠ .init ∧ call ≠ .deInit) (s₀ : Bus) (t₀ : BusTrace) :
    (flexspi permits ctx.flexspi).Triple
      (AtMost permits ctx.flexspi s₀ t₀ [] (s₀.dev.core.sequencer.started call))
      (fun s t => Executed permits ctx.flexspi s₀ t₀ [] s t ∧
        RegState s₀.mem s₀.dev.core.reg s t)
      (call.run ctx) fun _ =>
        Executed permits ctx.flexspi s₀ t₀ (s₀.dev.core.sequencer.started call) := by
  by_cases htransfer : ∃ kind addr buffer size, call = .transfer kind addr buffer size
  · obtain ⟨kind, addr, buffer, size, rfl⟩ := htransfer
    exact (transfer_executes kind ctx addr buffer size s₀ t₀).bind fun r =>
      Triple.ret stable_seen fun _ _ hs => hs
  · have hother : ∀ kind addr buffer size, call ≠ .transfer kind addr buffer size :=
      fun kind addr buffer size heq => htransfer ⟨kind, addr, buffer, size, heq⟩
    have hstarted : s₀.dev.core.sequencer.started call = [] := by
      cases call with
      | transfer kind addr buffer size => exact absurd rfl (hother kind addr buffer size)
      | _ => rfl
    rw [hstarted]
    apply ((executed_quiet (triggerFree_call hcall hother)).allow fun _ _ _ hs => .inl hs).pre
    exact fun s t hs => hs.1

/-! ## Histories -/

/-- Between two calls the LUT is locked and holds the table. -/
structure Carries (ctx : QspiContext) (lut : Nat → Byte) (b : Stage Bus DeviceAction) : Prop where
  ctx_eq : b.ctx = ctx
  locked : b.state.dev.core.lutLocked = true
  bytes : ∀ i < 512, lutByte b.state.dev.core i = lut i

section

variable {ctx : QspiContext} {q : Sequencer} {b b' : Stage Bus DeviceAction} {call : Call}

lemma Carries.started (h : Carries ctx q.lut b) :
    b.state.dev.core.sequencer.started call = q.started call := by
  cases call with
  | transfer kind addr buffer size =>
    have hwords := sequenceWords_congr h.bytes kind.seqIndex.toNat
    exact congrArg (fun words => [Command.mk words addr (size.toNat % 65536) 0]) hwords
  | _ => rfl

/-- `QSPI_SetupLut` locks the LUT, with its table laid over what was there. -/
lemma carries_of_setupLut {table len : Nat} {r : Option Int}
    (hreach : (flexspi permits b.ctx.flexspi).Reach
      ⟨(Call.setupLut table len).run b.ctx, b.state, b.trace⟩
      ⟨.ret (b'.ctx, r), b'.state, b'.trace⟩) :
    Carries b.ctx (overlay b.state.mem table len (lutByte b.state.dev.core)) b' := by
  have hwrote : Wrote b.ctx.flexspi (fun k => lutWritten b.ctx.flexspi b.trace k = true) b.trace :=
    fun k => Iff.rfl
  obtain ⟨⟨⟨⟨-, -, hbytes⟩, hlocked⟩, -⟩, hctx⟩ :=
    (setupLut_call table len).returns ⟨rfl, hwrote, fun _ _ => rfl⟩ hreach
  exact ⟨hctx, hlocked, hbytes⟩

/-- A call installs the table that it brings. -/
lemma Carries.next (h : Carries ctx q.lut b) (hcall : call ≠ .init ∧ call ≠ .deInit)
    {r : Option Int} (hreach : (flexspi permits ctx.flexspi).Reach
      ⟨call.run b.ctx, b.state, b.trace⟩ ⟨.ret (b'.ctx, r), b'.state, b'.trace⟩) :
    Carries ctx (q.installed b.state.mem call) b' := by
  obtain rfl := h.ctx_eq
  by_cases hlut : ∃ table len, call = .setupLut table len
  · obtain ⟨table, len, rfl⟩ := hlut
    obtain ⟨hctx, hlocked, hbytes⟩ := carries_of_setupLut hreach
    refine ⟨hctx, hlocked, fun i hi => ?_⟩
    simp only [hbytes i hi, Sequencer.installed, overlay, h.bytes i hi]
  · have hother : ∀ table len, call ≠ .setupLut table len :=
      fun table len heq => hlut ⟨table, len, heq⟩
    have hwrote : Wrote b.ctx.flexspi (fun k => lutWritten b.ctx.flexspi b.trace k = true)
        b.trace := fun k => Iff.rfl
    obtain ⟨⟨-, hholds⟩, hctx⟩ := (lutless_call hcall hother).returns
      ⟨hwrote, fun _ : True => ⟨h.locked, fun _ _ => rfl⟩⟩ hreach
    obtain ⟨hlocked, hbytes⟩ := hholds trivial
    have hsame : q.installed b.state.mem call = q.lut := by
      cases call with
      | setupLut table len => exact absurd rfl (hother table len)
      | _ => rfl
    exact ⟨hctx, hlocked, fun i hi => by rw [hbytes i hi, h.bytes i hi, hsame]⟩

/-- A call that has begun has executed its command or not; one that has returned has. -/
lemma Carries.executes (h : Carries ctx q.lut b) (hcall : call ≠ .init ∧ call ≠ .deInit)
    {c : Config bus Bus DeviceAction (QspiContext × Option Int)}
    (hreach : (flexspi permits ctx.flexspi).Reach ⟨call.run b.ctx, b.state, b.trace⟩ c) :
    (executedSince permits ctx.flexspi b c.trace = [] ∨
      executedSince permits ctx.flexspi b c.trace = q.started call) ∧
    ∀ r, c.prog.value? = some r →
      executedSince permits ctx.flexspi b c.trace = q.started call := by
  rw [h.ctx_eq] at hreach
  rw [← h.started]
  have htriple := call_executes permits ctx hcall b.state b.trace
  have hstart : Executed permits ctx.flexspi b.state b.trace [] b.state b.trace ∧
      RegState b.state.mem b.state.dev.core.reg b.state b.trace := ⟨seen_start, rfl, rfl⟩
  have hreturned : ∀ r, c.prog.value? = some r →
      executedSince permits ctx.flexspi b c.trace = b.state.dev.core.sequencer.started call := by
    intro r hvalue
    obtain ⟨p, s, t⟩ := c
    obtain rfl := Prog.eq_ret_of_value? hvalue
    exact (htriple.returns hstart hreach).observed_drop
  refine ⟨?_, hreturned⟩
  by_cases hdone : c.prog.head = .done
  · obtain ⟨r, hr⟩ := Prog.exists_ret_of_head hdone
    exact .inr (hreturned r (by rw [hr]; rfl))
  · exact (htriple.guarantee hstart hreach hdone).imp Seen.observed_drop Seen.observed_drop

end

/-- The history so far, on the controller and on the sequencer. -/
lemma sequencer_of_history {ctx : QspiContext} {s : Bus} (hlocked : s.dev.core.lutLocked = true)
    {ms : List (Made Bus DeviceAction)} {b : Stage Bus DeviceAction}
    (h : History (commands permits ctx s) ms b) :
    Carries ctx (s.dev.core.sequencer.after ms).lut b ∧
      executedBy permits ctx.flexspi ms = (s.dev.core.sequencer.after ms).executed := by
  induction h with
  | start h =>
    obtain rfl := h
    exact ⟨⟨rfl, hlocked, fun _ _ => rfl⟩, rfl⟩
  | elsewhere _ hmove ih =>
    obtain ⟨⟨hctx, hlocked, hbytes⟩, hexecuted⟩ := ih
    simp only [commands] at hmove
    exact ⟨⟨hctx, by rwa [hmove], by rwa [hmove]⟩, hexecuted⟩
  | call call _ hcall hreach ih =>
    obtain ⟨hcarries, hexecuted⟩ := ih
    rw [Sequencer.after_snoc]
    refine ⟨hcarries.next hcall hreach, ?_⟩
    have hone := (hcarries.executes hcall hreach).2 _ rfl
    simp only [executedBy, List.flatMap_append, List.flatMap_cons, List.flatMap_nil,
      List.append_nil] at hexecuted ⊢
    rw [hexecuted, hone]
    rfl

/-- **The calls drive the sequencer.**  From a locked LUT, after any calls, and whatever the device
has done between the accesses: the LUT holds the table of the sequencer, and the controller has
executed the commands of the sequencer, each once and in the order of the calls.  A call under way
has executed its command or nothing, and when it returns it has executed its command. -/
theorem commands_refine_sequencer {ctx : QspiContext} {s : Bus}
    (hlocked : s.dev.core.lutLocked = true) {ms : List (Made Bus DeviceAction)}
    {b : Stage Bus DeviceAction} (h : History (commands permits ctx s) ms b) :
    (∀ i < 512, lutByte b.state.dev.core i = (s.dev.core.sequencer.after ms).lut i) ∧
    executedBy permits ctx.flexspi ms = (s.dev.core.sequencer.after ms).executed ∧
    ∀ (call : Call) (c : Config bus Bus DeviceAction (QspiContext × Option Int)),
      call ≠ .init ∧ call ≠ .deInit →
      (flexspi permits ctx.flexspi).Reach ⟨call.run b.ctx, b.state, b.trace⟩ c →
      (executedSince permits ctx.flexspi b c.trace = [] ∨
        executedSince permits ctx.flexspi b c.trace =
          (s.dev.core.sequencer.after ms).started call) ∧
      ∀ r, c.prog.value? = some r → executedSince permits ctx.flexspi b c.trace =
        (s.dev.core.sequencer.after ms).started call := by
  obtain ⟨hcarries, hexecuted⟩ := sequencer_of_history hlocked h
  exact ⟨hcarries.bytes, hexecuted, fun call c hcall hreach => hcarries.executes hcall hreach⟩

/-- Memory in which each byte holds the end of its address. -/
def countingMemory : Bus := ⟨Controller.reset, fun a => BitVec.ofNat 8 a⟩

/-- A table of 20 bytes, and a write with its first sequence. -/
theorem commands_refine_sequencer_write :
    ∃ ms b, History (commands anyAction readyContext countingMemory) ms b ∧
      executedBy anyAction 4096 ms =
        [⟨[0x43424140#32, 0x47464544#32, 0x4B4A4948#32, 0x4F4E4D4C#32], 0xCAFE#32, 4, 0⟩] := by
  obtain ⟨ms, b, hhistory, htest⟩ := Setting.exists_history
    (w := commands anyAction readyContext countingMemory)
    [(.setupLut 0x40 20, List.replicate 44 .prog),
      (.transfer (.write 0#8) 0xCAFE#32 0x80 4#64,
        timed [(17, .raise (bit txEmpty)), (11, .raise (bit cmdDone))] 6)]
    (fun ms _ => decide ((countingMemory.dev.core.sequencer.after ms).executed =
      [⟨[0x43424140#32, 0x47464544#32, 0x4B4A4948#32, 0x4F4E4D4C#32], 0xCAFE#32, 4, 0⟩]))
    rfl (by simp [commands]) (by decide +kernel)
  obtain ⟨-, hexecuted, -⟩ := commands_refine_sequencer rfl hhistory
  exact ⟨ms, b, hhistory, hexecuted.trans (of_decide_eq_true htest)⟩

end QspiTool
