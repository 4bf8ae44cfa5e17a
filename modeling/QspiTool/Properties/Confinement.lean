import QspiTool.Driver.Rounds
import QspiTool.Properties.WholeBuffer

/-!
# Calls keep to their buffers

Which bytes of memory the public calls may read and write, whatever the device answers and
whenever it answers.  A session reads the bytes of the tables and of the buffers it writes from,
and changes the bytes of the buffers it reads into; the sizes are those that the narrowing to 16
bits leaves.

This holds on every machine that keeps the callers' buffers, so nothing is asked of the device.
-/

namespace QspiTool

open Words Interaction Machine

variable {σ A α : Type} {M : Machine bus σ A}

/-! ## The bytes a call may move -/

/-- The bytes a call may take are those of its table, or of the buffer it writes from; the bytes it
may store to are those of the buffer it reads into. -/
def Call.Moves : Direction → Call → Nat → Prop
  | .taken, .setupLut lut len, x => lut ≤ x ∧ x < lut + len
  | .taken, .transfer (.write _) _ buffer size, x => buffer ≤ x ∧ x < buffer + size.toNat % 65536
  | .stored, .transfer .read _ buffer size, x => buffer ≤ x ∧ x < buffer + size.toNat % 65536
  | .stored, .transfer .readSample _ buffer size, x =>
      buffer ≤ x ∧ x < buffer + size.toNat % 65536
  | _, _, _ => False

/-- An access moves only these bytes. -/
def MovesOnly (moves : Direction → Nat → Prop) (d : Head bus) : Prop :=
  ∀ o, d = .call o → ∀ dir, ∀ x ∈ o.moved dir, moves dir x

lemma MovesOnly.mono {moves moves' : Direction → Nat → Prop} {d : Head bus}
    (hmoves : ∀ dir x, moves dir x → moves' dir x) (h : MovesOnly moves d) :
    MovesOnly moves' d :=
  fun o ho dir x hx => hmoves dir x (h o ho dir x hx)

/-! ## Accesses that move nothing -/

/-- Not a byte. -/
def Moveless (d : Head bus) : Prop := ∀ o, d = .call o → ∀ dir, o.moved dir = []

lemma Moveless.only {moves : Direction → Nat → Prop} {d : Head bus} (h : Moveless d) :
    MovesOnly moves d := by
  intro o ho dir x hx
  rw [h o ho dir] at hx
  exact absurd hx List.not_mem_nil

lemma moveless_abort : Moveless .abort := by
  rintro o ⟨⟩

lemma moveless_poll (w : BitWait) : Moveless (.poll w) := by
  rintro o ⟨⟩

lemma moveless_op {o : Access} (h : o.moved .taken = []) (h' : o.moved .stored = []) :
    Moveless (.call o) := by
  rintro o' ho
  obtain rfl := Head.call.inj ho
  intro dir
  cases dir with
  | taken => exact h
  | stored => exact h'

lemma moveless_load (a : Nat) : Moveless (.call (.load a)) := moveless_op rfl rfl

lemma moveless_store (a : Nat) (v : Word) : Moveless (.call (.store a v)) := moveless_op rfl rfl

lemma moveless_flagHead {fspi : Nat} {d : Head bus} (h : FlagHead fspi d) : Moveless d := by
  cases h with
  | loadIntr => exact moveless_load _
  | storeIntr v => exact moveless_store _ v
  | loadStatus _ => exact moveless_load _
  | storeStatus v _ => exact moveless_store _ v

lemma check_moveless (c : Prop) [Decidable c] : (check c).Every Moveless :=
  (Prog.every_check c).mpr (.inr moveless_abort)

lemma orReg_moveless (a : Nat) (m : Word) : (orReg a m).Every Moveless :=
  orReg_every (moveless_load a) fun v => moveless_store a v

lemma op_moveless {o : Access} (h : o.moved .taken = []) (h' : o.moved .stored = []) :
    (Prog.op (S := bus) o).Every Moveless :=
  (Prog.every_op o).mpr (moveless_op h h')

lemma mapMemory_moveless (fd : Int) (base size pageSize : Nat) :
    (mapMemory fd base size pageSize).Every Moveless := by
  refine (check_moveless _).bind fun _ => (check_moveless _).bind fun _ => ?_
  refine (check_moveless _).bind fun _ => (op_moveless rfl rfl).bind fun map => ?_
  split <;> trivial

lemma requestFlexspiMemory_moveless (ctx : QspiContext) :
    (requestFlexspiMemory ctx).Every Moveless := by
  refine (mapMemory_moveless _ _ _ _).bind fun r => ?_
  dsimp only
  split <;> trivial

lemma setPads_moveless (iomux : Nat) (pads : List Nat) : (setPads iomux pads).Every Moveless := by
  induction pads with
  | nil => trivial
  | cons pad pads ih => exact (op_moveless rfl rfl).bind fun _ => ih

lemma iomuxInit_moveless (ctx : QspiContext) : (iomuxInit ctx).Every Moveless := by
  refine (check_moveless _).bind fun _ => (mapMemory_moveless _ _ _ _).bind fun r => ?_
  dsimp only
  split
  · trivial
  · exact (setPads_moveless _ _).bind fun _ => trivial

lemma clockInit_moveless (ctx : QspiContext) (mux pre post : Word) :
    (clockInit ctx mux pre post).Every Moveless := by
  refine (check_moveless _).bind fun _ => (mapMemory_moveless _ _ _ _).bind fun r => ?_
  dsimp only
  split
  · trivial
  · refine (op_moveless rfl rfl).bind fun _ => (op_moveless rfl rfl).bind fun _ => ?_
    refine (op_moveless rfl rfl).bind fun _ => (orReg_moveless _ _).bind fun _ => ?_
    exact (op_moveless rfl rfl).bind fun _ => trivial

lemma bringUp_moveless (ctx : QspiContext) : (bringUp ctx).Every Moveless := by
  refine (iomuxInit_moveless ctx).bind fun ctx => (orReg_moveless _ _).bind fun _ => ?_
  refine (clockInit_moveless ctx _ _ _).bind fun ctx => (orReg_moveless _ _).bind fun _ => ?_
  refine (op_moveless rfl rfl).bind fun _ => (op_moveless rfl rfl).bind fun _ => ?_
  exact (op_moveless rfl rfl).bind fun _ => trivial

lemma qspiInit_moveless (ctx : QspiContext) : (qspiInit ctx).Every Moveless := by
  refine (op_moveless rfl rfl).bind fun pageSize => (check_moveless _).bind fun _ => ?_
  refine (check_moveless _).bind fun _ => (op_moveless rfl rfl).bind fun fd => ?_
  dsimp only
  split
  · trivial
  · refine (requestFlexspiMemory_moveless _).bind fun r => ?_
    obtain ⟨ctx₁, result⟩ := r
    dsimp only
    split
    · exact (op_moveless rfl rfl).bind fun _ => trivial
    · exact bringUp_moveless _

lemma qspiDeInit_moveless (ctx : QspiContext) : (qspiDeInit ctx).Every Moveless := by
  unfold qspiDeInit
  split
  · trivial
  · refine (op_moveless rfl rfl).bind fun _ => (op_moveless rfl rfl).bind fun _ => ?_
    refine (op_moveless rfl rfl).bind fun _ => (op_moveless rfl rfl).bind fun _ => ?_
    exact (op_moveless rfl rfl).bind fun _ => trivial

lemma setupCommand_moveless (fspi : Nat) (xfer : FlexspiTransfer) :
    (setupCommand fspi xfer).Every Moveless := by
  refine (orReg_moveless _ _).bind fun _ => ?_
  refine (clearFlags_every.mono fun _ => moveless_flagHead).bind fun _ => ?_
  refine (op_moveless rfl rfl).bind fun _ => (orReg_moveless _ _).bind fun _ => ?_
  exact (orReg_moveless _ _).bind fun _ => op_moveless rfl rfl

lemma awaitCommand_moveless (fspi : Nat) (result : Int) :
    (awaitCommand fspi result).Every Moveless := by
  refine (waitBit_every (moveless_poll _)).bind fun _ => ?_
  split
  · exact (orReg_moveless _ _).bind fun _ => trivial
  · trivial

/-! ## The data loops -/

/-- `write_blocking` stores to no byte. -/
lemma writeBlocking_stores (fspi buffer size : Nat) :
    (writeBlocking fspi buffer size).Every
      fun d => ∀ o : Access, d = .call o → o.moved .stored = [] := by
  have hmoveless : ∀ d, Moveless d → ∀ o : Access, d = .call o → o.moved .stored = [] :=
    fun d hd o ho => hd o ho .stored
  refine ((check_moveless _).mono hmoveless).bind fun _ => ?_
  refine ((op_moveless rfl rfl).mono hmoveless).bind fun v => ?_
  refine Prog.Every.bind ?_ fun _ => trivial
  refine (writeLoop_every (watermarkOf v) buffer size).mono fun d hd => ?_
  cases hd with
  | flag h => exact hmoveless d (moveless_flagHead h)
  | wait => exact hmoveless _ (moveless_poll _)
  | chunk h => cases h <;> (rintro o ho; obtain rfl := Head.call.inj ho; rfl)

/-- `read_blocking` takes none. -/
lemma readBlocking_takes (fspi buffer size : Nat) :
    (readBlocking fspi buffer size).Every
      fun d => ∀ o : Access, d = .call o → o.moved .taken = [] := by
  have hmoveless : ∀ d, Moveless d → ∀ o : Access, d = .call o → o.moved .taken = [] :=
    fun d hd o ho => hd o ho .taken
  refine ((check_moveless _).mono hmoveless).bind fun _ => ?_
  refine ((op_moveless rfl rfl).mono hmoveless).bind fun v => ?_
  refine ((orReg_moveless _ _).mono hmoveless).bind fun _ => ?_
  refine Prog.Every.bind ?_ fun _ => trivial
  refine (readLoop_every (watermarkOf v) buffer size).mono fun d hd => ?_
  cases hd with
  | flag h => exact hmoveless d (moveless_flagHead h)
  | wait => exact hmoveless _ (moveless_poll _)
  | chunk h => cases h <;> (rintro o ho; obtain rfl := Head.call.inj ho; rfl)

/-- The bytes from `lo` up to `hi`, in one direction. -/
def Span (dir : Direction) (lo hi : Nat) (dir' : Direction) (x : Nat) : Prop :=
  dir' = dir ∧ lo ≤ x ∧ x < hi

lemma Confined.moved {lo hi : Nat} {o : Access} (h : Confined lo hi (.call o)) {dir : Direction}
    {x : Nat} (hx : x ∈ o.moved dir) : lo ≤ x ∧ x < hi := by
  have hbyte : ∀ a, lo ≤ a ∧ a < hi → x ∈ [a] → lo ≤ x ∧ x < hi := by
    intro a ha hx
    rwa [List.mem_singleton.mp hx]
  have hword : ∀ a, lo ≤ a ∧ a + 4 ≤ hi → x ∈ List.range' a 4 → lo ≤ x ∧ x < hi := by
    intro a ha hx
    obtain ⟨h₁, h₂⟩ := List.mem_range'_1.mp hx
    omega
  cases o with
  | read8 a =>
    cases dir with
    | taken => exact hbyte a h hx
    | stored => exact absurd hx List.not_mem_nil
  | read32 a =>
    cases dir with
    | taken => exact hword a h hx
    | stored => exact absurd hx List.not_mem_nil
  | write8 a b =>
    cases dir with
    | taken => exact absurd hx List.not_mem_nil
    | stored => exact hbyte a h hx
  | write32 a v =>
    cases dir with
    | taken => exact absurd hx List.not_mem_nil
    | stored => exact hword a h hx
  | _ => cases dir <;> exact absurd hx List.not_mem_nil

/-- The guarantee that the accesses keep to these bytes. -/
abbrev only (moves : Direction → Nat → Prop) : Head bus → Assertion bus σ A :=
  fun d _ _ => MovesOnly moves d

variable {moves : Direction → Nat → Prop}

lemma every_only {p : Prog bus α} (hp : p.Every Moveless) :
    M.Triple (only moves) (fun _ _ => True) p fun _ _ _ => True :=
  Triple.of_every hp fun _ _ _ hd => hd.only

/-- A size over the bound stops at the assertion, before any byte is moved. -/
lemma check_only {size : Nat} (h : ¬ size ≤ 32 * 32) (p : Unit → Driver α) :
    M.Triple (only moves) (fun _ _ => True) (check (size ≤ 32 * 32) >>= p)
      fun _ _ _ => True := by
  rw [check, Prog.check, if_neg h]
  exact Triple.abort stable_true fun _ _ _ => moveless_abort.only

lemma writeBlocking_only (D : Buffers M) (fspi buffer size : Nat) :
    M.Triple (only (Span .taken buffer (buffer + size))) (fun _ _ => True)
      (writeBlocking fspi buffer size) fun _ _ _ => True := by
  by_cases hsize : size ≤ 1024
  · rintro s t -
    have hlogged : M.Triple _ (Logged D fspi (D.bytes s) (marks fspi t)) _ _ :=
      writeBlocking_logged buffer size hsize
    have hboth := hlogged.every (writeBlocking_stores fspi buffer size)
    refine (hboth.allow fun d s t hd o ho dir x hx => ?_).post (fun _ _ _ _ => trivial) s t
      ⟨rfl, rfl⟩
    obtain ⟨hconfined, hstores⟩ := hd
    rw [ho] at hconfined
    cases dir with
    | taken => exact ⟨rfl, hconfined.moved hx⟩
    | stored =>
      rw [hstores o ho] at hx
      exact absurd hx List.not_mem_nil
  · exact check_only hsize _

lemma readBlocking_only (D : Buffers M) (fspi buffer size : Nat) :
    M.Triple (only (Span .stored buffer (buffer + size))) (fun _ _ => True)
      (readBlocking fspi buffer size) fun _ _ _ => True := by
  by_cases hsize : size ≤ 1024
  · rintro s t -
    have hlogged : M.Triple _ (Logged D fspi (D.bytes s) (marks fspi t)) _ _ :=
      readBlocking_logged buffer size hsize
    have hboth := hlogged.every (readBlocking_takes fspi buffer size)
    refine (hboth.allow fun d s t hd o ho dir x hx => ?_).post (fun _ _ _ _ => trivial) s t
      ⟨rfl, rfl⟩
    obtain ⟨hconfined, htakes⟩ := hd
    rw [ho] at hconfined
    cases dir with
    | taken =>
      rw [htakes o ho] at hx
      exact absurd hx List.not_mem_nil
    | stored => exact ⟨rfl, hconfined.moved hx⟩
  · exact check_only hsize _

/-! ## The calls -/

lemma loggedTransfer_only (D : Buffers M) (fspi : Nat) (kind : Transfer) (addr : Word)
    (buffer : Nat) (size : BitVec 64) :
    M.Triple (only fun dir => (Call.transfer kind addr buffer size).Moves dir) (fun _ _ => True)
      (loggedTransfer fspi (kind.descriptor addr buffer size)) fun _ _ _ => True := by
  have hspan : ∀ dir dir' x, Span dir buffer (buffer + (size.setWidth 16).toNat) dir' x →
      dir' = dir ∧ buffer ≤ x ∧ x < buffer + size.toNat % 65536 := by
    intro dir dir' x hx
    rwa [Span, BitVec.toNat_setWidth] at hx
  refine Triple.bind (Q := fun _ _ _ => True) ?_ fun _ => ?_
  · refine Triple.bind (every_only (setupCommand_moveless _ _)) fun _ => ?_
    refine Triple.bind (every_only (orReg_moveless _ _)) fun _ => ?_
    refine Triple.bind (Q := fun _ _ _ => True) ?_ fun r => every_only (awaitCommand_moveless _ _)
    cases kind with
    | write lutIndex =>
      refine (writeBlocking_only D fspi buffer _).allow fun d _ _ hd => hd.mono fun dir x hx => ?_
      obtain ⟨rfl, hrange⟩ := hspan _ _ _ hx
      exact hrange
    | read =>
      refine (readBlocking_only D fspi buffer _).allow fun d _ _ hd => hd.mono fun dir x hx => ?_
      obtain ⟨rfl, hrange⟩ := hspan _ _ _ hx
      exact hrange
    | readSample =>
      refine (readBlocking_only D fspi buffer _).allow fun d _ _ hd => hd.mono fun dir x hx => ?_
      obtain ⟨rfl, hrange⟩ := hspan _ _ _ hx
      exact hrange
  · refine every_only ((op_moveless rfl rfl).bind fun _ => (op_moveless rfl rfl).bind fun _ => ?_)
    exact (op_moveless rfl rfl).bind fun _ => trivial

lemma copyBytes_only (dst src : Nat) {n i len : Nat} (h : i + n ≤ len) :
    (copyBytes dst src n i).Every (MovesOnly (Span .taken src (src + len))) := by
  induction n generalizing i with
  | zero => trivial
  | succ n ih =>
    refine ⟨?_, fun b => ⟨Moveless.only (moveless_op rfl rfl), fun _ => ih (by omega)⟩⟩
    rintro o ho dir x hx
    obtain rfl := Head.call.inj ho
    cases dir with
    | taken =>
      obtain rfl := List.mem_singleton.mp hx
      exact ⟨rfl, by omega⟩
    | stored => exact absurd hx List.not_mem_nil

lemma qspiSetupLut_only (ctx : QspiContext) (lut len : Nat) :
    (qspiSetupLut ctx lut len).Every (MovesOnly (Span .taken lut (lut + len))) := by
  have hmoveless : ∀ p : Driver Unit, p.Every Moveless →
      p.Every (MovesOnly (Span .taken lut (lut + len))) :=
    fun p hp => hp.mono fun d hd => hd.only
  refine (hmoveless _ (check_moveless _)).bind fun _ => ?_
  refine (hmoveless _ (check_moveless _)).bind fun _ => ?_
  refine (hmoveless _ (check_moveless _)).bind fun _ => ?_
  refine (hmoveless _ ((op_moveless rfl rfl).bind fun _ => op_moveless rfl rfl)).bind fun _ => ?_
  refine Prog.Every.bind (copyBytes_only _ lut (by omega)) fun _ => ?_
  exact hmoveless _ ((op_moveless rfl rfl).bind fun _ => op_moveless rfl rfl)

/-- A call keeps to its bytes. -/
lemma call_only (D : Buffers M) (ctx : QspiContext) (call : Call) :
    M.Triple (only fun dir => call.Moves dir) (fun _ _ => True) (call.run ctx)
      fun _ _ _ => True := by
  cases call with
  | init => exact every_only ((qspiInit_moveless ctx).bind fun _ => trivial)
  | deInit => exact every_only ((qspiDeInit_moveless ctx).bind fun _ => trivial)
  | setupLut lut len =>
    refine Triple.of_every ((qspiSetupLut_only ctx lut len).bind fun _ => trivial)
      fun d _ _ hd => hd.mono fun dir x hx => ?_
    obtain ⟨rfl, hrange⟩ := hx
    exact hrange
  | busy =>
    have hbusy := (qspiBusy_every ctx).mono fun _ => moveless_flagHead
    exact every_only (hbusy.bind fun _ => trivial)
  | transfer kind addr buffer size =>
    refine Triple.bind (Q := fun _ _ _ => True) ?_ fun r =>
      Triple.ret stable_true fun _ _ _ => trivial
    have hlogged := loggedTransfer_only D ctx.flexspi kind addr buffer size
    cases kind with
    | write lutIndex => exact hlogged
    | read => exact Triple.bind (every_only (check_moveless _)) fun _ => hlogged
    | readSample => exact Triple.bind (every_only (check_moveless _)) fun _ => hlogged

/-! ## Sessions -/

/-- The bytes that some call may move. -/
def SomeMoves (calls : List Call) (dir : Direction) (x : Nat) : Prop :=
  ∃ call ∈ calls, call.Moves dir x

lemma session_only (D : Buffers M) (ctx : QspiContext) (calls : List Call) :
    M.Triple (only (SomeMoves calls)) (fun _ _ => True) (session ctx calls)
      fun _ _ _ => True := by
  induction calls generalizing ctx with
  | nil => exact Triple.ret stable_true fun _ _ _ => trivial
  | cons call calls ih =>
    have hfirst : ∀ dir x, call.Moves dir x → SomeMoves (call :: calls) dir x :=
      fun dir x hx => ⟨call, List.mem_cons_self, hx⟩
    have hrest : ∀ dir x, SomeMoves calls dir x → SomeMoves (call :: calls) dir x := by
      rintro dir x ⟨other, hmem, hx⟩
      exact ⟨other, List.mem_cons_of_mem _ hmem, hx⟩
    refine Triple.bind ((call_only D ctx call).allow fun d _ _ hd => hd.mono hfirst) fun r => ?_
    refine Triple.bind ((ih r.1).allow fun d _ _ hd => hd.mono hrest) fun rs => ?_
    exact Triple.ret stable_true fun _ _ _ => trivial

/-- An access changes no byte but those it stores to. -/
lemma Buffers.exec_unchanged (D : Buffers M) (o : Access) (s : σ) {x : Nat}
    (hx : x ∉ o.moved .stored) : D.bytes (M.exec o s).2 x = D.bytes s x := by
  cases o with
  | write8 a b =>
    rw [D.write8]
    have hne : x ≠ a := fun heq => hx (List.mem_singleton.mpr heq)
    refine storeBytes_of_not_mem _ ?_
    rw [List.length_singleton]
    omega
  | write32 a v =>
    rw [D.write32]
    have hout : ¬ (a ≤ x ∧ x < a + 4) := fun h => hx (List.mem_range'_1.mpr h)
    refine storeBytes_of_not_mem _ ?_
    rw [length_bytesOf, List.length_singleton]
    omega
  | _ => exact congrFun (D.other _ s (fun _ _ h => Access.noConfusion h) fun _ _ h =>
      Access.noConfusion h) x

/-- **Sessions keep to their buffers.**  Whatever the device does, wherever a session of public
calls is, an access takes only bytes of a table or of a buffer that some call writes from, stores
only to bytes of a buffer that some call reads into, and every other byte is what it was. -/
theorem session_confined (D : Buffers M) (ctx : QspiContext) (calls : List Call) (s : σ)
    (t : Trace bus A) {c : Config bus σ A (List (Option Int))}
    (hreach : M.Reach ⟨session ctx calls, s, t⟩ c) :
    (∀ o, c.prog.head = .call o → ∀ dir, ∀ x ∈ o.moved dir, ∃ call ∈ calls, call.Moves dir x) ∧
    ∀ x, (¬ ∃ call ∈ calls, call.Moves .stored x) → D.bytes c.state x = D.bytes s x := by
  have htriple := session_only D ctx calls
  refine ⟨fun o ho => ?_, fun x hx => ?_⟩
  · exact htriple.guarantee trivial hreach (by rw [ho]; rintro ⟨⟩) o ho
  · apply htriple.keeps (I := fun s' _ => D.bytes s' x = D.bytes s x) _ _ _ trivial rfl hreach
    · intro a s₁ s₂ t₁ hkeep hact
      rw [D.act a s₁ s₂ hact, hkeep]
    · intro o s₁ t₁ honly hkeep
      exact (D.exec_unchanged o s₁ fun hmem => hx (honly o rfl .stored x hmem)).trans hkeep
    · intro w s₁ t₁ _ hkeep
      exact (D.exec_unchanged _ s₁ List.not_mem_nil).trans hkeep

/-- A read of 7 bytes stores zeros up to the last of them. -/
theorem session_confined_read :
    ∃ c : Config bus Bus DeviceAction (List (Option Int)), (flexspi anyAction 4096).Reach
        ⟨session readyContext [.transfer .read 0#32 0x100 7#64],
          ⟨Controller.reset, fun _ => 0xFF#8⟩, []⟩ c ∧
      c.prog.value? = some [some 0] ∧ c.state.mem 0x106 = 0#8 ∧ c.state.mem 0x107 = 0xFF#8 := by
  obtain ⟨c, hreach, htest⟩ : ∃ c, (flexspi anyAction 4096).Reach
      ⟨session readyContext [.transfer .read 0#32 0x100 7#64],
        ⟨Controller.reset, fun _ => 0xFF#8⟩, []⟩ c ∧
      decide (c.prog.value? = some [some 0] ∧ c.state.mem 0x106 = 0#8) = true :=
    exists_reach_of_run (timed (List.replicate 49 (1, .raise (BitVec.allOnes 32))) 0)
      (by decide +kernel)
  obtain ⟨hvalue, hbyte⟩ := of_decide_eq_true htest
  have hframe := (session_confined (flexspiBuffers anyAction 4096) _ _ _ _ hreach).2 0x107
  refine ⟨c, hreach, hvalue, hbyte, hframe ?_⟩
  rintro ⟨call, hmem, hchanges⟩
  obtain rfl := List.mem_singleton.mp hmem
  exact absurd hchanges.2 (by decide)

end QspiTool
