import Mathlib.Tactic.SplitIfs
import QspiTool.Device.FlagRule
import QspiTool.Device.Freedom
import QspiTool.Device.TxPath
import QspiTool.Driver.CommandWord

/-!
# How many bytes a successful call has moved

The size of a public transfer is a `size_t`, the `dataSize` of its descriptor has 16 bits, and
the only bound is asserted after the narrowing.  So a size that does not fit is reduced modulo
`2 ^ 16`, and when what is left is at most 1024 the reduced transfer is reported as a success.

`movesWholeBuffer_iff` gives the sizes for which success means the whole buffer.
-/

namespace QspiTool

open Words Interaction Machine

variable {permits : Permits} {fspi : Nat}

/-! ## The bytes a run has moved -/

/-- Out of the caller's buffer, or into it. -/
inductive Direction
  | taken
  | stored
  deriving DecidableEq

/-- The buffer bytes an access moves in the given direction. -/
def Access.moved : Direction → Access → List Nat
  | .taken, .read8 a => [a]
  | .taken, .read32 a => List.range' a 4
  | .stored, .write8 a _ => [a]
  | .stored, .write32 a _ => List.range' a 4
  | _, _ => []

/-- The buffer bytes a run has moved, in order. -/
def moved (dir : Direction) (t : BusTrace) : List Nat :=
  t.flatMap fun e => match e with
    | .call o _ => o.moved dir
    | _ => []

variable {dir : Direction} {l : List Nat} {cfg : Word}

@[simp] lemma moved_call (t : BusTrace) (o : Access) (r : o.Res) :
    moved dir (t ++ [.call o r]) = moved dir t ++ o.moved dir := by
  simp [moved]

@[simp] lemma moved_act (t : BusTrace) (a : DeviceAction) :
    moved dir (t ++ [.act a]) = moved dir t := by
  simp [moved]

@[simp] lemma moved_spin (t : BusTrace) (w : BitWait) (v : Word) :
    moved dir (t ++ [.spin w v]) = moved dir t := by
  simp [moved]

/-- `IPCR1` holds `cfg`, and the bytes `l` have been moved. -/
def Moved (dir : Direction) (cfg : Word) (l : List Nat) : Assertion bus Bus DeviceAction :=
  fun s t => s.dev.core.reg Reg.ipcr1 = cfg ∧ moved dir t = l

lemma stable_moved : (flexspi permits fspi).Stable (Moved dir cfg l) := by
  rintro a s s' t ⟨hcfg, hmoved⟩ hact
  obtain ⟨-, -, hcore, -, -⟩ := act_spec hact
  exact ⟨by rw [hcore, hcfg], by rw [moved_act, hmoved]⟩

/-! ## Accesses that move no data -/

/-- The access moves no byte and does not store to `IPCR1`. -/
def Neutral (fspi : Nat) (dir : Direction) : Head bus → Prop
  | .call o => o.moved dir = [] ∧ ∀ a v, o = .store a v → a - fspi ≠ Reg.ipcr1
  | _ => True

lemma neutral_load (a : Nat) : Neutral fspi dir (.call (.load a)) :=
  ⟨by cases dir <;> rfl, fun _ _ h => nomatch h⟩

lemma neutral_store {off : Nat} (v : Word) (h : off ≠ Reg.ipcr1) :
    Neutral fspi dir (.call (.store (fspi + off) v)) := by
  refine ⟨by cases dir <;> rfl, fun a v' heq => ?_⟩
  injection heq with ha
  omega

lemma neutral_flag {d : Head bus} (h : FlagHead fspi d) : Neutral fspi dir d := by
  cases h with
  | loadIntr => exact neutral_load _
  | storeIntr v => exact neutral_store v (by decide)
  | loadStatus _ => exact neutral_load _
  | storeStatus v hoff =>
    refine neutral_store v ?_
    have := hoff.1
    simp only [Reg.ipcr1]
    omega

lemma exec_neutral {o : Access} (h : Neutral fspi dir (.call o)) (s : Bus) :
    ((flexspi permits fspi).exec o s).2.dev.core.reg Reg.ipcr1 = s.dev.core.reg Reg.ipcr1 := by
  cases o with
  | store a v => exact Core.store_reg_of_ne _ _ _ (h.2 a v rfl).symm
  | store8 a b => exact Core.store8_reg_of_lt _ (by decide) b
  | _ => rfl

/-- A program that moves no data keeps the account. -/
lemma keeps_moved {α : Type} {p : Driver α} (hp : p.Every (Neutral fspi dir)) :
    (flexspi permits fspi).Triple noGuarantee (Moved dir cfg l) p fun _ => Moved dir cfg l := by
  refine Triple.invariant hp stable_moved (fun _ _ _ _ _ => trivial) ?_ ?_
  · rintro o s t ho ⟨hcfg, hmoved⟩
    exact ⟨by rw [exec_neutral ho, hcfg], by rw [moved_call, ho.1, List.append_nil, hmoved]⟩
  · rintro w s t - ⟨hcfg, hmoved⟩
    exact ⟨hcfg, by rw [moved_spin, hmoved]⟩

lemma clearFlags_moved :
    (flexspi permits fspi).Triple noGuarantee (Moved dir cfg l) (clearFlags fspi)
      fun _ => Moved dir cfg l :=
  keeps_moved (clearFlags_every.mono fun _ => neutral_flag)

lemma orReg_moved {off : Nat} (m : Word) (h : off ≠ Reg.ipcr1) :
    (flexspi permits fspi).Triple noGuarantee (Moved dir cfg l) (orReg (fspi + off) m)
      fun _ => Moved dir cfg l :=
  keeps_moved (orReg_every (neutral_load _) fun v => neutral_store v h)

lemma waitBit_moved (a flag : Nat) :
    (flexspi permits fspi).Triple noGuarantee (Moved dir cfg l) (waitBit a flag)
      fun _ => Moved dir cfg l :=
  keeps_moved (waitBit_every trivial)

lemma load_moved (a : Nat) :
    (flexspi permits fspi).Triple noGuarantee (Moved dir cfg l) (load a)
      fun _ => Moved dir cfg l :=
  keeps_moved (load_every (neutral_load a))

lemma store_moved {off : Nat} (v : Word) (h : off ≠ Reg.ipcr1) :
    (flexspi permits fspi).Triple noGuarantee (Moved dir cfg l) (store (fspi + off) v)
      fun _ => Moved dir cfg l :=
  keeps_moved ⟨neutral_store v h, fun _ => trivial⟩

/-! ## `write_blocking` takes the buffer -/

lemma tfdr_ne_ipcr1 (i : Nat) : Reg.tfdr i ≠ Reg.ipcr1 := by
  simp only [Reg.tfdr, Reg.ipcr1]
  omega

lemma read8_moved (a : Nat) :
    (flexspi permits fspi).Triple noGuarantee (Moved .taken cfg l) (read8 a)
      fun _ => Moved .taken cfg (l ++ [a]) :=
  read8_triple stable_moved (fun _ => stable_moved) (fun _ _ _ => trivial)
    fun s t hs => ⟨hs.1, by rw [moved_call, hs.2]; rfl⟩

lemma read32_moved (a : Nat) :
    (flexspi permits fspi).Triple noGuarantee (Moved .taken cfg l) (read32 a)
      fun _ => Moved .taken cfg (l ++ List.range' a 4) :=
  read32_triple stable_moved (fun _ => stable_moved) (fun _ _ _ => trivial)
    fun s t hs => ⟨hs.1, by rw [moved_call, hs.2]; rfl⟩

lemma writeWords_moved (n i buffer : Nat) :
    (flexspi permits fspi).Triple noGuarantee (Moved .taken cfg l) (writeWords fspi n i buffer)
      fun b s t => Moved .taken cfg (l ++ List.range' buffer (4 * n)) s t ∧
        b = buffer + 4 * n := by
  induction n generalizing i buffer l with
  | zero =>
    exact Triple.ret (stable_and_const stable_moved _) fun s t hs => ⟨by simpa using hs, rfl⟩
  | succ n ih =>
    refine Triple.bind (read32_moved buffer) fun v => ?_
    refine Triple.bind (store_moved v (tfdr_ne_ipcr1 i)) fun _ => ?_
    refine (ih (i + 1) (buffer + 4)).post fun b s t h => ⟨?_, by rw [h.2]; omega⟩
    rw [show 4 * (n + 1) = 4 + 4 * n by omega, ← List.range'_append_1, ← List.append_assoc]
    exact h.1

lemma gatherBytes_moved (n j : Nat) (v : Word) (buffer : Nat) :
    (flexspi permits fspi).Triple noGuarantee (Moved .taken cfg l) (gatherBytes n j v buffer)
      fun _ => Moved .taken cfg (l ++ List.range' buffer n) := by
  induction n generalizing j v buffer l with
  | zero => exact Triple.ret stable_moved fun s t hs => by simpa using hs
  | succ n ih =>
    refine Triple.bind (read8_moved buffer) fun b => ?_
    refine (ih (j + 1) _ (buffer + 1)).post fun _ s t h => ?_
    rw [List.append_assoc] at h
    exact h

lemma writeTail_moved (size i buffer : Nat) :
    (flexspi permits fspi).Triple noGuarantee (Moved .taken cfg l) (writeTail fspi size i buffer)
      fun _ => Moved .taken cfg (l ++ List.range' buffer size) := by
  unfold writeTail
  split <;> rename_i hsize
  · refine Triple.bind (gatherBytes_moved size 0 _ buffer) fun r => ?_
    exact Triple.bind (store_moved r.1 (tfdr_ne_ipcr1 i)) fun _ =>
      Triple.ret stable_moved fun _ _ => id
  · obtain rfl : size = 0 := not_not.mp hsize
    exact Triple.ret stable_moved fun s t hs => by simpa using hs

/-- A round takes what it removes from `size`, and moves `buffer` on by as much if there is a
next round. -/
lemma writeRound_moved (watermark : Watermark) (buffer size : Nat) :
    (flexspi permits fspi).Triple noGuarantee (Moved .taken cfg l)
      (writeRound fspi watermark buffer size) fun b s t =>
        Moved .taken cfg
          (l ++ List.range' buffer (size - writeRest watermark size)) s t ∧
        (writeRest watermark size ≠ 0 → b = buffer + (size - writeRest watermark size)) := by
  refine Triple.bind (waitBit_moved _ _) fun _ => Triple.bind clearFlags_moved fun _ => ?_
  unfold writeChunk writeRest
  split_ifs with hfull
  · refine Triple.bind (writeWords_moved (2 * watermark.val) 0 buffer) fun b =>
      Triple.of_pure fun hb => ?_
    refine Triple.bind (orReg_moved _ (by decide)) fun _ => ?_
    refine Triple.ret (stable_and_const stable_moved _) fun s t hs => ⟨?_, fun _ => by omega⟩
    rwa [show size - (size - 8 * watermark.val) = 4 * (2 * watermark.val) by omega]
  · have hchunk : (flexspi permits fspi).Triple noGuarantee (Moved .taken cfg l)
        (do let b ← writeWords fspi (size / 4) 0 buffer
            writeTail fspi (size - 4 * (size / 4)) (size / 4) b)
        fun _ => Moved .taken cfg (l ++ List.range' buffer (size - 0)) := by
      refine Triple.bind (writeWords_moved (size / 4) 0 buffer) fun b => Triple.of_pure fun hb => ?_
      refine (writeTail_moved _ _ b).post fun _ s t h => ?_
      rw [hb, List.append_assoc, List.range'_append_1] at h
      rwa [show size - 0 = 4 * (size / 4) + (size - 4 * (size / 4)) by omega]
    refine Triple.bind hchunk fun b => Triple.bind (orReg_moved _ (by decide)) fun _ => ?_
    exact Triple.ret (stable_and_const stable_moved _) fun s t hs => ⟨hs, fun h => absurd rfl h⟩

lemma writeLoop_moved (watermark : Watermark) (buffer size : Nat) :
    (flexspi permits fspi).Triple noGuarantee (Moved .taken cfg l)
      (writeLoop fspi watermark buffer size)
      fun _ => Moved .taken cfg (l ++ List.range' buffer size) := by
  induction size using Nat.strongRecOn generalizing buffer l with
  | ind size ih =>
    rw [writeLoop]
    split <;> rename_i hsize
    · subst hsize
      exact Triple.ret stable_moved fun s t hs => by simpa using hs
    · have hlt := writeRest_lt watermark hsize
      refine Triple.bind (writeRound_moved watermark buffer size) fun b =>
        Triple.of_pure fun hb => ?_
      refine (ih _ hlt b).post fun _ s t h => ?_
      obtain hrest | hrest := Nat.eq_zero_or_pos (writeRest watermark size)
      · simpa [hrest] using h
      · rw [hb (by omega), List.append_assoc, List.range'_append_1] at h
        rwa [show size - writeRest watermark size + writeRest watermark size = size by omega] at h

/-! ## `read_blocking` fills the buffer -/

lemma write8_moved (a : Nat) (b : Byte) :
    (flexspi permits fspi).Triple noGuarantee (Moved .stored cfg l) (write8 a b)
      fun _ => Moved .stored cfg (l ++ [a]) :=
  write8_triple stable_moved stable_moved (fun _ _ _ => trivial)
    fun s t hs => ⟨hs.1, by rw [moved_call, hs.2]; rfl⟩

lemma write32_moved (a : Nat) (v : Word) :
    (flexspi permits fspi).Triple noGuarantee (Moved .stored cfg l) (write32 a v)
      fun _ => Moved .stored cfg (l ++ List.range' a 4) :=
  write32_triple stable_moved stable_moved (fun _ _ _ => trivial)
    fun s t hs => ⟨hs.1, by rw [moved_call, hs.2]; rfl⟩

lemma readWords_moved (n i buffer : Nat) :
    (flexspi permits fspi).Triple noGuarantee (Moved .stored cfg l) (readWords fspi n i buffer)
      fun b s t => Moved .stored cfg (l ++ List.range' buffer (4 * n)) s t ∧
        b = buffer + 4 * n := by
  induction n generalizing i buffer l with
  | zero =>
    exact Triple.ret (stable_and_const stable_moved _) fun s t hs => ⟨by simpa using hs, rfl⟩
  | succ n ih =>
    refine Triple.bind (load_moved _) fun v => ?_
    refine Triple.bind (write32_moved buffer v) fun _ => ?_
    refine (ih (i + 1) (buffer + 4)).post fun b s t h => ⟨?_, by rw [h.2]; omega⟩
    rw [show 4 * (n + 1) = 4 + 4 * n by omega, ← List.range'_append_1, ← List.append_assoc]
    exact h.1

lemma scatterBytes_moved (n j : Nat) (v : Word) (buffer : Nat) :
    (flexspi permits fspi).Triple noGuarantee (Moved .stored cfg l) (scatterBytes n j v buffer)
      fun _ => Moved .stored cfg (l ++ List.range' buffer n) := by
  induction n generalizing j buffer l with
  | zero => exact Triple.ret stable_moved fun s t hs => by simpa using hs
  | succ n ih =>
    refine Triple.bind (write8_moved buffer _) fun _ => ?_
    refine (ih (j + 1) (buffer + 1)).post fun _ s t h => ?_
    rw [List.append_assoc] at h
    exact h

lemma readTail_moved (size i buffer : Nat) :
    (flexspi permits fspi).Triple noGuarantee (Moved .stored cfg l) (readTail fspi size i buffer)
      fun _ => Moved .stored cfg (l ++ List.range' buffer size) := by
  unfold readTail
  split <;> rename_i hsize
  · exact Triple.bind (load_moved _) fun v => scatterBytes_moved size 0 v buffer
  · obtain rfl : size = 0 := not_not.mp hsize
    exact Triple.ret stable_moved fun s t hs => by simpa using hs

lemma readRound_moved (watermark : Watermark) (buffer size : Nat) :
    (flexspi permits fspi).Triple noGuarantee (Moved .stored cfg l)
      (readRound fspi watermark buffer size) fun b s t =>
        Moved .stored cfg
          (l ++ List.range' buffer (size - readRest watermark size)) s t ∧
        (readRest watermark size ≠ 0 → b = buffer + (size - readRest watermark size)) := by
  refine Triple.bind (waitBit_moved _ _) fun _ => Triple.bind clearFlags_moved fun _ => ?_
  unfold readChunk readRest
  split_ifs with hfull
  · refine Triple.bind (readWords_moved watermark.val 0 buffer) fun b =>
      Triple.of_pure fun hb => ?_
    refine Triple.bind (orReg_moved _ (by decide)) fun _ => ?_
    refine Triple.ret (stable_and_const stable_moved _) fun s t hs => ⟨?_, fun _ => by omega⟩
    rwa [show size - (size - 4 * watermark.val) = 4 * watermark.val by omega]
  · have hchunk : (flexspi permits fspi).Triple noGuarantee (Moved .stored cfg l)
        (do let b ← readWords fspi (size / 4) 0 buffer
            readTail fspi (size - 4 * (size / 4)) (size / 4) b)
        fun _ => Moved .stored cfg (l ++ List.range' buffer (size - 0)) := by
      refine Triple.bind (readWords_moved (size / 4) 0 buffer) fun b => Triple.of_pure fun hb => ?_
      refine (readTail_moved _ _ b).post fun _ s t h => ?_
      rw [hb, List.append_assoc, List.range'_append_1] at h
      rwa [show size - 0 = 4 * (size / 4) + (size - 4 * (size / 4)) by omega]
    refine Triple.bind hchunk fun b => Triple.bind (orReg_moved _ (by decide)) fun _ => ?_
    exact Triple.ret (stable_and_const stable_moved _) fun s t hs => ⟨hs, fun h => absurd rfl h⟩

lemma readLoop_moved (watermark : Watermark) (buffer size : Nat) :
    (flexspi permits fspi).Triple noGuarantee (Moved .stored cfg l)
      (readLoop fspi watermark buffer size)
      fun _ => Moved .stored cfg (l ++ List.range' buffer size) := by
  induction size using Nat.strongRecOn generalizing buffer l with
  | ind size ih =>
    rw [readLoop]
    split <;> rename_i hsize
    · subst hsize
      exact Triple.ret stable_moved fun s t hs => by simpa using hs
    · have hlt := readRest_lt watermark hsize
      refine Triple.bind (readRound_moved watermark buffer size) fun b =>
        Triple.of_pure fun hb => ?_
      refine (ih _ hlt b).post fun _ s t h => ?_
      obtain hrest | hrest := Nat.eq_zero_or_pos (readRest watermark size)
      · simpa [hrest] using h
      · rw [hb (by omega), List.append_assoc, List.range'_append_1] at h
        rwa [show size - readRest watermark size + readRest watermark size = size by omega] at h

/-! ## The public transfers -/

/-- The direction of a command's data. -/
def FlexspiCommandType.direction : FlexspiCommandType → Direction
  | read => .stored
  | _ => .taken

/-- The direction of a public transfer. -/
abbrev Transfer.direction (kind : Transfer) : Direction := kind.cmdType.direction

/-- The low 16 bits of `IPCR1` are the data size of the descriptor. -/
lemma configValue_dataSize (xfer : FlexspiTransfer) (h : xfer.cmdType ≠ .command) :
    (configValue xfer).setWidth 16 = xfer.dataSize := by
  have hread := read_ipcr1DataSize h
  rw [Field.toNat_read] at hread
  change _ / 2 ^ 0 % 2 ^ 16 = _ at hread
  apply BitVec.eq_of_toNat_eq
  rw [BitVec.toNat_setWidth, ← hread]
  omega

lemma moveData_moved (xfer : FlexspiTransfer) (h : xfer.cmdType ≠ .command) :
    (flexspi permits fspi).Triple noGuarantee
      (Moved xfer.cmdType.direction cfg []) (moveData fspi xfer)
      fun _ s t => Moved xfer.cmdType.direction cfg
        (List.range' xfer.data xfer.dataSize.toNat) s t ∧ xfer.dataSize.toNat ≤ 1024 := by
  have hwrite : (flexspi permits fspi).Triple noGuarantee (Moved .taken cfg [])
      (writeBlocking fspi xfer.data xfer.dataSize.toNat) fun _ s t =>
        Moved .taken cfg (List.range' xfer.data xfer.dataSize.toNat) s t ∧
          xfer.dataSize.toNat ≤ 1024 := by
    refine Triple.bind (Triple.check stable_moved fun _ _ _ _ => trivial) fun _ => ?_
    refine Triple.of_pure fun hsize => Triple.bind (load_moved _) fun v => ?_
    exact Triple.bind (writeLoop_moved _ _ _) fun _ =>
      Triple.ret (stable_and_const stable_moved _) fun s t hs => ⟨hs, hsize⟩
  have hread : (flexspi permits fspi).Triple noGuarantee (Moved .stored cfg [])
      (readBlocking fspi xfer.data xfer.dataSize.toNat) fun _ s t =>
        Moved .stored cfg (List.range' xfer.data xfer.dataSize.toNat) s t ∧
          xfer.dataSize.toNat ≤ 1024 := by
    refine Triple.bind (Triple.check stable_moved fun _ _ _ _ => trivial) fun _ => ?_
    refine Triple.of_pure fun hsize => Triple.bind (load_moved _) fun v => ?_
    refine Triple.bind (orReg_moved _ (by decide)) fun _ => ?_
    exact Triple.bind (readLoop_moved _ _ _) fun _ =>
      Triple.ret (stable_and_const stable_moved _) fun s t hs => ⟨hs, hsize⟩
  unfold moveData
  cases hkind : xfer.cmdType with
  | write => exact hwrite
  | config => exact hwrite
  | read => exact hread
  | command => exact absurd hkind h

/-- Setting up a command moves no data and programs `IPCR1`. -/
lemma setupCommand_moved (xfer : FlexspiTransfer) :
    (flexspi permits fspi).Triple noGuarantee (fun _ t => moved dir t = [])
      (setupCommand fspi xfer) fun _ => Moved dir (configValue xfer) [] := by
  -- whatever `IPCR1` holds before, it is kept up to the last store
  refine Triple.pre (P := fun s t => ∃ cfg, Moved dir cfg [] s t)
    (Triple.exists_pre fun cfg => ?_) fun s t hs => ⟨_, rfl, hs⟩
  have hport : Reg.flshcr2 xfer.port.index ≠ Reg.ipcr1 := by
    have := flshcr2_lt xfer.port
    simp only [Reg.ipcr1]
    omega
  refine Triple.bind (orReg_moved _ hport) fun _ => Triple.bind clearFlags_moved fun _ => ?_
  refine Triple.bind (store_moved _ (by decide)) fun _ => ?_
  refine Triple.bind (orReg_moved _ (by decide)) fun _ => ?_
  refine Triple.bind (orReg_moved _ (by decide)) fun _ => ?_
  refine store_triple stable_moved stable_moved (fun _ _ _ => trivial) fun s t hs => ⟨?_, ?_⟩
  · simp only [Controller.store]
    rw [Core.store_reg _ _ _ (by decide), Function.update_self]
  · rw [moved_call, hs.2]
    cases dir <;> rfl

lemma transferBlocking_moved (permits : Permits) (fspi : Nat) (xfer : FlexspiTransfer)
    (h : xfer.cmdType ≠ .command) :
    (flexspi permits fspi).Triple noGuarantee
      (fun _ t => moved xfer.cmdType.direction t = [])
      (transferBlocking fspi xfer) fun _ s t =>
        Moved xfer.cmdType.direction (configValue xfer)
          (List.range' xfer.data xfer.dataSize.toNat) s t ∧ xfer.dataSize.toNat ≤ 1024 := by
  refine Triple.bind (setupCommand_moved xfer) fun _ => ?_
  refine Triple.bind (orReg_moved _ (by decide)) fun _ => ?_
  refine Triple.bind (moveData_moved xfer h) fun result => Triple.of_pure fun hsize => ?_
  refine Triple.bind (waitBit_moved _ _) fun _ => ?_
  rw [Prog.pure_eq]
  split_ifs
  · exact Triple.bind (orReg_moved _ (by decide)) fun _ =>
      Triple.ret (stable_and_const stable_moved _) fun s t hs => ⟨hs, hsize⟩
  · exact Triple.ret (stable_and_const stable_moved _) fun s t hs => ⟨hs, hsize⟩

/-- What a returned public transfer has done, whatever it returned. -/
lemma run_moved (kind : Transfer) (ctx : QspiContext) (addr : Word) (buffer : Nat)
    (size : BitVec 64) :
    (flexspi permits ctx.flexspi).Triple noGuarantee (fun _ t => moved kind.direction t = [])
      (kind.run ctx addr buffer size) fun _ s t =>
        Moved kind.direction (configValue (kind.descriptor addr buffer size))
          (List.range' buffer (size.toNat % 2 ^ 16)) s t ∧
        size.toNat % 2 ^ 16 ≤ 1024 ∧ (kind.direction = .stored → buffer ≠ 0) := by
  have hsize : (kind.descriptor addr buffer size).dataSize.toNat = size.toNat % 2 ^ 16 := by
    simp [Transfer.descriptor]
  have hstart : (flexspi permits ctx.flexspi).Stable fun _ t => moved kind.direction t = [] := by
    intro a s s' t h _
    rw [moved_act, h]
  have hlogged : (flexspi permits ctx.flexspi).Triple noGuarantee
      (fun _ t => moved kind.direction t = [])
      (loggedTransfer ctx.flexspi (kind.descriptor addr buffer size)) fun _ s t =>
        Moved kind.direction (configValue (kind.descriptor addr buffer size))
          (List.range' buffer (size.toNat % 2 ^ 16)) s t ∧ size.toNat % 2 ^ 16 ≤ 1024 := by
    have hkind : (kind.descriptor addr buffer size).cmdType ≠ .command := by
      cases kind <;> simp [Transfer.descriptor, Transfer.cmdType]
    have h := transferBlocking_moved permits ctx.flexspi (kind.descriptor addr buffer size) hkind
    rw [hsize] at h
    refine Triple.bind h fun ret => Triple.of_pure fun hle => ?_
    refine Triple.bind (load_moved _) fun _ => Triple.bind (load_moved _) fun _ => ?_
    exact Triple.bind (load_moved _) fun _ =>
      Triple.ret (stable_and_const stable_moved _) fun s t hs => ⟨hs, hle⟩
  have hchecked : (flexspi permits ctx.flexspi).Triple noGuarantee
      (fun _ t => moved kind.direction t = [])
      (check (buffer ≠ 0 ∧ 0 < size.toNat) >>= fun _ =>
        loggedTransfer ctx.flexspi (kind.descriptor addr buffer size)) fun _ s t =>
        Moved kind.direction (configValue (kind.descriptor addr buffer size))
          (List.range' buffer (size.toNat % 2 ^ 16)) s t ∧
        size.toNat % 2 ^ 16 ≤ 1024 ∧ (kind.direction = .stored → buffer ≠ 0) := by
    refine Triple.bind (Triple.check hstart fun _ _ _ _ => trivial) fun _ => ?_
    exact Triple.of_pure fun hbuf => hlogged.post fun _ s t h => ⟨h.1, h.2, fun _ => hbuf.1⟩
  cases kind with
  | write lutIndex => exact hlogged.post fun _ s t h => ⟨h.1, h.2, fun hdir => nomatch hdir⟩
  | read => exact hchecked
  | readSample => exact hchecked

/-- Success means the whole buffer: a run that returns 0 has programmed `size` as the byte
count and has moved the bytes `buffer[0 .. size - 1]`, each once and in order. -/
def MovesWholeBuffer (kind : Transfer) (ctx : QspiContext) (addr : Word) (buffer : Nat)
    (size : BitVec 64) : Prop :=
  ∀ (permits : Permits) (s : Bus) (c : Config bus Bus DeviceAction Int),
    (flexspi permits ctx.flexspi).Reach ⟨kind.run ctx addr buffer size, s, []⟩ c →
    c.prog.value? = some 0 →
    ((c.state.dev.core.reg Reg.ipcr1).setWidth 16).toNat = size.toNat ∧
      moved kind.direction c.trace = List.range' buffer size.toNat

/-! ## When success means the whole buffer -/

/-- An accepted request of a public transfer can be carried out. -/
lemma exists_return_run (kind : Transfer) (ctx : QspiContext) (addr : Word) (buffer : Nat)
    (size : BitVec 64) (hsize : size.toNat % 2 ^ 16 ≤ 1024)
    (hbuf : kind.direction = .stored → buffer ≠ 0 ∧ 0 < size.toNat) (s : Bus) :
    ∃ r s' t', (flexspi anyAction ctx.flexspi).Reach ⟨kind.run ctx addr buffer size, s, []⟩
      ⟨.ret r, s', t'⟩ := by
  have haccepted : (kind.descriptor addr buffer size).Accepted := by
    refine ⟨by cases kind <;> simp [Transfer.descriptor, Transfer.cmdType], ?_⟩
    simpa [Transfer.descriptor] using hsize
  have hlogged : (loggedTransfer ctx.flexspi (kind.descriptor addr buffer size)).Every
      (TransferHead ctx.flexspi) :=
    (loggedTransfer_every _).mono fun _ hd => hd.resolve_right fun hn => hn.2 haccepted
  have hchecked : buffer ≠ 0 ∧ 0 < size.toNat →
      (check (buffer ≠ 0 ∧ 0 < size.toNat) >>= fun _ =>
        loggedTransfer ctx.flexspi (kind.descriptor addr buffer size)).Every
        (TransferHead ctx.flexspi) := fun h =>
    ((Prog.every_check _).mpr (.inl h)).bind fun _ => hlogged
  refine exists_return ?_ s []
  cases kind with
  | write lutIndex => exact hlogged
  | read => exact hchecked (hbuf rfl)
  | readSample => exact hchecked (hbuf rfl)

/-- **When success means the whole buffer**: exactly for the sizes that fit the 16 bits of the
descriptor, and for the requests an assertion stops (a reduced size above 1024, a read into
`NULL`). -/
theorem movesWholeBuffer_iff (kind : Transfer) (ctx : QspiContext) (addr : Word) (buffer : Nat)
    (size : BitVec 64) :
    MovesWholeBuffer kind ctx addr buffer size ↔
      size.toNat < 2 ^ 16 ∨ 1024 < size.toNat % 2 ^ 16 ∨
        kind.direction = .stored ∧ buffer = 0 := by
  constructor
  · intro hwhole
    by_contra hcond
    obtain ⟨hlarge, hrest⟩ := not_or.mp hcond
    obtain ⟨hsize, hbuf⟩ := not_or.mp hrest
    obtain ⟨r, s', t', hreach⟩ := exists_return_run kind ctx addr buffer size (by omega)
      (fun h => ⟨fun h' => hbuf ⟨h, h'⟩, by omega⟩) ⟨Controller.reset, fun _ => 0#8⟩
    obtain rfl := (run_result kind ctx addr buffer size).returns trivial hreach
    obtain ⟨⟨hcfg, -⟩, -⟩ := (run_moved kind ctx addr buffer size).returns rfl hreach
    have hcount := (hwhole anyAction _ _ hreach rfl).1
    rw [hcfg, configValue_dataSize _ (by cases kind <;> simp [Transfer.descriptor,
      Transfer.cmdType])] at hcount
    simp only [Transfer.descriptor, BitVec.toNat_setWidth] at hcount
    omega
  · rintro hcond permits s ⟨p, s', t'⟩ hreach hret
    obtain rfl := Prog.eq_ret_of_value? hret
    obtain ⟨⟨hcfg, hmoved⟩, hsize, hbuf⟩ :=
      (run_moved kind ctx addr buffer size).returns rfl hreach
    have hlt : size.toNat < 2 ^ 16 := by
      obtain h | h | ⟨h, h'⟩ := hcond
      · exact h
      · omega
      · exact absurd h' (hbuf h)
    rw [Nat.mod_eq_of_lt hlt] at hmoved
    refine ⟨?_, hmoved⟩
    rw [hcfg, configValue_dataSize _ (by cases kind <;> simp [Transfer.descriptor,
      Transfer.cmdType])]
    simpa [Transfer.descriptor] using hlt

/-- **A write of 65536 bytes succeeds without sending one.** -/
theorem qspiWrite_narrows :
    ¬ ∀ (kind : Transfer) (ctx : QspiContext) (addr : Word) (buffer : Nat) (size : BitVec 64),
      MovesWholeBuffer kind ctx addr buffer size := by
  intro hevery
  have hwhole := hevery (.write 0#8) QspiContext.zero 0#32 100 65536#64
  obtain ⟨c, hreach, htest⟩ : ∃ c, (flexspi anyAction 0).Reach
      ⟨qspiWrite QspiContext.zero 0#32 0#8 100 65536#64,
        ⟨Controller.reset, fun _ => 0#8⟩, []⟩ c ∧
      decide (c.prog.value? = some 0 ∧ moved .taken c.trace = []) = true :=
    exists_reach_of_run (timed [(17, .raise (bit cmdDone))] 6) (by decide +kernel)
  obtain ⟨hret, hmoved⟩ := of_decide_eq_true htest
  have hall := (hwhole anyAction _ c hreach hret).2
  rw [show (Transfer.write 0#8).direction = .taken from rfl, hmoved] at hall
  have hlength := congrArg List.length hall
  rw [List.length_range'] at hlength
  exact absurd hlength (by decide)

end QspiTool
