import QspiTool.Driver.FpgaInterface
import QspiTool.Properties.CommandLog

/-!
# The instructions behind the transfers

A table that `QSPI_SetupLut` has copied from memory is what the later transfers execute, word for
word, until the next table.  With `fpga_lut` that leaves one sequence with instructions in it, that
of `QSPI_ReadSample`: it sends the opcode and an address, and has no instruction that reads data.
-/

namespace QspiTool

open Words Interaction Machine

variable {permits : Permits} {ctx : QspiContext} {s : Bus}

/-- The words of `table` lie in memory from `a` on, little-endian. -/
def TableAt (mem : Nat → Byte) (a : Nat) (table : List Word) : Prop :=
  ∀ i < 4 * table.length, mem (a + i) = byteAt (table.getD (i / 4) 0#32) (i % 4)

instance (mem : Nat → Byte) (a : Nat) (table : List Word) : Decidable (TableAt mem a table) :=
  inferInstanceAs (Decidable (∀ i < _, _))

/-- The sequences of a LUT that holds a table are those of the table. -/
lemma sequenceWords_table {lut : Nat → Byte} {table : List Word} {n : Nat}
    (h : ∀ i < 4 * table.length, lut i = byteAt (table.getD (i / 4) 0#32) (i % 4))
    (hn : 4 * n + 4 ≤ table.length) (hlt : n < 32) :
    sequenceWords lut n = tableWords table n := by
  rw [sequenceWords, if_pos hlt, tableWords]
  refine List.map_congr_left fun i hi => eq_of_byteAt fun j hj => ?_
  have hi' := List.mem_range.mp hi
  have hword : (16 * n + 4 * i + j) / 4 = 4 * n + i := by omega
  have hplace : (16 * n + 4 * i + j) % 4 = j := by omega
  rw [byteAt_ofBytes _ hj, h _ (by omega), hword, hplace]

/-- Two LUTs with the same bytes of a sequence have the same words in it. -/
lemma sequenceWords_eq {lut lut' : Nat → Byte} {n : Nat}
    (h : ∀ i < 16, lut (16 * n + i) = lut' (16 * n + i)) :
    sequenceWords lut n = sequenceWords lut' n := by
  unfold sequenceWords
  split
  · refine List.map_congr_left fun i hi => eq_of_byteAt fun j hj => ?_
    have hi' := List.mem_range.mp hi
    rw [byteAt_ofBytes _ hj, byteAt_ofBytes _ hj, Nat.add_assoc]
    exact h _ (by omega)
  · rfl

/-- **The last table stays.**  Behind a `QSPI_SetupLut` and calls that set up no table, the LUT is
locked and holds the table, and behind it what it held before. -/
lemma carries_of_table {l : List (Made Bus DeviceAction)} {b : Stage Bus DeviceAction}
    (h : History (commands permits ctx s) l b) {ms ms' : List (Made Bus DeviceAction)}
    {m : Made Bus DeviceAction} (hl : l = ms ++ m :: ms') {a len : Nat}
    (hcall : m.call = .setupLut a len)
    (hlast : ∀ m' ∈ ms', ∀ a' len', m'.call ≠ .setupLut a' len') :
    Carries ctx (overlay m.before.state.mem a len (lutByte m.before.state.dev.core)) b := by
  induction h generalizing ms' with
  | start => simp at hl
  | elsewhere _ hmove ih =>
    obtain ⟨hctx, hlocked, hbytes⟩ := ih hl hlast
    simp only [commands] at hmove
    exact ⟨hctx, by rwa [hmove], by rwa [hmove]⟩
  | @call ms₀ b₀ b' r call hhistory hallowed hreach ih =>
    have hctx : b₀.ctx = ctx := (lutState_of_history hhistory).ctx_eq
    rcases List.eq_nil_or_concat ms' with rfl | ⟨ms'', m', rfl⟩
    · -- the table has just been set up
      obtain ⟨-, hlast'⟩ := List.append_inj' hl rfl
      obtain rfl := (List.cons.inj hlast').1
      obtain rfl : call = .setupLut a len := hcall
      subst hctx
      exact carries_of_setupLut hreach
    · rw [List.concat_eq_append] at hlast
      rw [List.concat_eq_append, ← List.cons_append, ← List.append_assoc] at hl
      obtain ⟨rfl, hone⟩ := List.append_inj' hl rfl
      obtain rfl := (List.cons.inj hone).1
      have hcarries := ih rfl fun m' hm' => hlast m' (List.mem_append_left _ hm')
      have hother : ∀ a' len', call ≠ .setupLut a' len' :=
        hlast _ (List.mem_append_right _ (List.mem_singleton_self _))
      have hnext := Carries.next (q := ⟨_, []⟩) hcarries hallowed hreach
      cases call with
      | setupLut a' len' => exact absurd rfl (hother a' len')
      | _ => exact hnext

/-- **The last table is the one that is executed.** -/
lemma executed_of_table {ms ms' : List (Made Bus DeviceAction)} {m : Made Bus DeviceAction}
    {b : Stage Bus DeviceAction} (h : History (commands permits ctx s) (ms ++ m :: ms') b)
    {a len : Nat} (hcall : m.call = .setupLut a len)
    (hlast : ∀ m' ∈ ms', ∀ a' len', m'.call ≠ .setupLut a' len')
    {kind : Transfer} {addr : Word} {buffer : Nat} {size : BitVec 64}
    {c : Config bus Bus DeviceAction (QspiContext × Option Int)}
    (hreach : (flexspi permits ctx.flexspi).Reach
      ⟨(Call.transfer kind addr buffer size).run b.ctx, b.state, b.trace⟩ c) :
    (∀ cmd ∈ executedSince permits ctx.flexspi b c.trace,
      cmd.words = sequenceWords
        (overlay m.before.state.mem a len (lutByte m.before.state.dev.core))
        kind.seqIndex.toNat) ∧
    ∀ r, c.prog.value? = some r →
      (executedSince permits ctx.flexspi b c.trace).length = 1 := by
  obtain ⟨hsome, hreturned⟩ := Carries.executes (q := ⟨_, []⟩) (carries_of_table h rfl hcall hlast)
    ⟨by rintro ⟨⟩, by rintro ⟨⟩⟩ hreach
  refine ⟨fun cmd hcmd => ?_, fun r hr => ?_⟩
  · rcases hsome with hnone | hone
    · rw [hnone] at hcmd
      cases hcmd
    · rw [hone] at hcmd
      obtain rfl := List.mem_singleton.mp hcmd
      rfl
  · rw [hreturned r hr]
    rfl

lemma readSample_index : Transfer.readSample.seqIndex.toNat = fpgaLutIdx .rdSample := by decide

/-- **The FPGA table in use.**  After `QSPI_SetupLut` with `fpga_lut`, whatever calls without a new
table come next and whatever the device does, a transfer executes one command.  With an index of
the table its instructions are the opcode and the address of `RD_SAMPLE` for `QSPI_ReadSample` and
its index, and none for every other; no instruction of the table reads data.  With an index behind
the table it executes what the LUT held there before `fpga_lut` was set up. -/
theorem fpga_lut_executes {ms ms' : List (Made Bus DeviceAction)} {m : Made Bus DeviceAction}
    {b : Stage Bus DeviceAction} (h : History (commands permits ctx s) (ms ++ m :: ms') b)
    {a : Nat} (hcall : m.call = .setupLut a (4 * fpgaLut.length))
    (htable : TableAt m.before.state.mem a fpgaLut)
    (hlast : ∀ m' ∈ ms', ∀ a' len, m'.call ≠ .setupLut a' len)
    {kind : Transfer} {addr : Word} {buffer : Nat} {size : BitVec 64}
    {c : Config bus Bus DeviceAction (QspiContext × Option Int)}
    (hreach : (flexspi permits ctx.flexspi).Reach
      ⟨(Call.transfer kind addr buffer size).run b.ctx, b.state, b.trace⟩ c) :
    (∀ cmd ∈ executedSince permits ctx.flexspi b c.trace,
      (kind.seqIndex.toNat < fpgaOpcodeIdxCount →
        sequenceProgram cmd.words =
          (if kind.seqIndex = Transfer.readSample.seqIndex then
            [⟨lutCmd, flexspi4Pad, 0x80#32⟩, ⟨lutAddr, flexspi4Pad, lutDummy⟩] else []) ∧
        ∀ i ∈ sequenceProgram cmd.words, i.opcode ≠ lutRead) ∧
      (fpgaOpcodeIdxCount ≤ kind.seqIndex.toNat →
        cmd.words = sequenceWords (lutByte m.before.state.dev.core) kind.seqIndex.toNat)) ∧
    ∀ r, c.prog.value? = some r →
      (executedSince permits ctx.flexspi b c.trace).length = 1 := by
  have hcount : fpgaOpcodeIdxCount = 20 := rfl
  obtain ⟨hwords, hone⟩ := executed_of_table h hcall hlast hreach
  refine ⟨fun cmd hcmd => ⟨fun hindex => ?_, fun hbehind => ?_⟩, hone⟩
  · have htableWords : cmd.words = tableWords fpgaLut kind.seqIndex.toNat := by
      rw [hwords cmd hcmd]
      refine sequenceWords_table (fun i hi => ?_) (by rw [fpgaLut_length]; omega) (by omega)
      rw [overlay, if_pos hi]
      exact htable i hi
    rw [htableWords, fpgaLut_program _ hindex, fpgaProgram]
    have hiff : kind.seqIndex.toNat = fpgaLutIdx .rdSample ↔
        kind.seqIndex = Transfer.readSample.seqIndex := by
      rw [← readSample_index]
      exact BitVec.toNat_inj
    by_cases hsample : kind.seqIndex = Transfer.readSample.seqIndex
    · rw [if_pos (hiff.mpr hsample), if_pos hsample]
      exact ⟨rfl, by decide⟩
    · rw [if_neg fun heq => hsample (hiff.mp heq), if_neg hsample]
      exact ⟨rfl, fun i hi => absurd hi List.not_mem_nil⟩
  · rw [hwords cmd hcmd]
    refine sequenceWords_eq fun i hi => ?_
    rw [overlay, if_neg (by rw [fpgaLut_length]; omega)]

/-- `fpga_lut` lies at 4096. -/
def fpgaMemory : Bus where
  dev := Controller.reset
  mem a := byteAt (fpgaLut.getD ((a - 4096) / 4) 0#32) (a % 4)

/-- `QSPI_ReadSample` behind `fpga_lut`. -/
theorem fpga_lut_executes_readSample :
    ∃ ms b c, History (commands anyAction readyContext fpgaMemory) ms b ∧
      (flexspi anyAction 4096).Reach
        ⟨(Call.transfer .readSample 0#32 0x100 4#64).run b.ctx, b.state, b.trace⟩ c ∧
      (executedSince anyAction 4096 b c.trace).map (fun cmd => sequenceProgram cmd.words) =
        [[⟨lutCmd, flexspi4Pad, 0x80#32⟩, ⟨lutAddr, flexspi4Pad, lutDummy⟩]] := by
  obtain ⟨ms, b, hhistory, htest⟩ := Setting.exists_history
    (w := commands anyAction readyContext fpgaMemory)
    [(.setupLut 4096 (4 * fpgaLut.length), List.replicate 644 .prog)]
    (fun ms b => decide (ms.map Made.call = [.setupLut 4096 (4 * fpgaLut.length)]) &&
      (ms.all fun m => decide (TableAt m.before.state.mem 4096 fpgaLut)) &&
      ((flexspi anyAction 4096).run
        (timed [(19, .raise (bit rxWatermarkFlag)), (11, .raise (bit cmdDone))] 6)
        ⟨(Call.transfer .readSample 0#32 0x100 4#64).run b.ctx, b.state, b.trace⟩).any
        fun c => c.prog.value?.isSome)
    rfl
    (fun _ x hx => by obtain rfl := List.mem_singleton.mp hx; exact ⟨by decide, by decide⟩)
    (by decide +kernel)
  simp only [Bool.and_eq_true, decide_eq_true_eq, List.all_eq_true] at htest
  obtain ⟨⟨hcalls, htable⟩, hrun⟩ := htest
  obtain ⟨m, rfl, hcall⟩ := List.map_eq_singleton_iff.mp hcalls
  obtain ⟨c, hreach, hc⟩ := exists_reach_of_run _ hrun
  obtain ⟨r, hr⟩ := Option.isSome_iff_exists.mp hc
  have hsplit : History (commands anyAction readyContext fpgaMemory) ([] ++ m :: []) b := hhistory
  obtain ⟨hprogram, hone⟩ := fpga_lut_executes hsplit hcall
    (htable m (List.mem_singleton_self m)) (by rintro m' ⟨⟩) hreach
  refine ⟨_, b, c, hhistory, hreach, ?_⟩
  obtain ⟨cmd, hcmd⟩ := List.length_eq_one_iff.mp (hone r hr)
  have hcmd' : executedSince anyAction 4096 b c.trace = [cmd] := hcmd
  rw [hcmd', List.map_singleton]
  have hmem : cmd ∈ executedSince anyAction 4096 b c.trace := by
    rw [hcmd']
    exact List.mem_singleton_self cmd
  exact congrArg (fun p => [p]) ((hprogram cmd hmem).1 (by decide)).1

end QspiTool
