import QspiTool.Device.Rules

/-!
# How `write_blocking` and `read_blocking` cut a buffer

On every machine that keeps the callers' buffers, whatever the device answers: the rounds of
`write_blocking`, the words they store and the bytes these carry; and the rounds of `read_blocking`,
the words they load and where their bytes end up.  Neither the device nor the watermark changes the
byte stream.

Each loop waits for its flag of `INTR` only, bit 6 or bit 7, so a fair run is one in which the
device keeps raising it.
-/

namespace QspiTool

open Words Interaction Machine

variable {σ A : Type}

/-! ## Packing -/

/-- On the controller: when the device keeps raising bit 6, `write_blocking` returns. -/
theorem write_returns {permits : Permits} {fspi buffer size : Nat} (hsize : size ≤ 1024) {s : Bus}
    {t : BusTrace} {r : (flexspi permits fspi).Run ⟨writeBlocking fspi buffer size, s, t⟩}
    (h : KeepsRaising txEmpty r) : ∃ n, (r.cfg n).prog = .ret 0 := by
  have htriple : (flexspi permits fspi).Triple _
    (Logged (flexspiBuffers permits fspi) fspi s.mem (marks fspi t)) _ _ :=
    writeBlocking_logged buffer size hsize
  exact htriple.returns_value_of_fair (fun _ _ _ hs => hs.1) (fun _ _ => id) ⟨rfl, rfl⟩
    (h.fair (by decide) (writeBlocking_waits fspi buffer size))

/-- **Chunking and packing.**  In a fair run `write_blocking` returns.  It reads only the buffer.
Where it has returned, it has stored the bytes of the buffer and zeros up to a whole word, in rounds
of twice the watermark that was loaded. -/
theorem write_rounds {M : Machine bus σ A} (D : Buffers M) (fspi buffer : Nat) {size : Nat}
    (hsize : size ≤ 1024) (s : σ) (t : Trace bus A) :
    (∀ r : M.Run ⟨writeBlocking fspi buffer size, s, t⟩, r.Fair → ∃ n, (r.cfg n).prog = .ret 0) ∧
    (∀ c, M.Reach ⟨writeBlocking fspi buffer size, s, t⟩ c →
      Confined buffer (buffer + size) c.prog.head ∧
        WaitsOnlyFor ⟨fspi + Reg.intr, txEmpty⟩ c.prog.head) ∧
    ∀ result s' t', M.Reach ⟨writeBlocking fspi buffer size, s, t⟩ ⟨.ret result, s', t'⟩ →
      ∃ level rounds,
        marks fspi t' = marks fspi t ++ .txLevel level :: rounds.flatMap (Round.marks .fill) ∧
        Chunked (2 * (watermarkOf level).val) txEmpty size rounds ∧
        bytesOf (stream rounds) = bytesAt (D.bytes s) buffer size ++
          List.replicate (4 * ((size + 3) / 4) - size) 0#8 := by
  have htriple : M.Triple _ (Logged D fspi (D.bytes s) (marks fspi t)) _ _ :=
    writeBlocking_logged buffer size hsize
  have hstart : Logged D fspi (D.bytes s) (marks fspi t) s t := ⟨rfl, rfl⟩
  refine ⟨fun r hfair => ?_, fun c hreach => ?_, fun result s' t' hreach => ?_⟩
  · exact htriple.returns_value_of_fair (fun _ _ _ hs => hs.1) (fun _ _ => id) hstart hfair
  · exact confined_of_reach htriple (writeBlocking_waits fspi buffer size) hstart hreach
  · obtain ⟨-, level, rounds, ⟨-, hmarks⟩, hchunked, hstream⟩ := htriple.returns hstart hreach
    refine ⟨level, rounds, ?_, hchunked, ?_⟩
    · rw [hmarks, List.append_assoc, List.singleton_append]
    · rw [hstream, bytesOf_packed]

/-- Nine bytes at a watermark of one: two words, then one. -/
theorem write_rounds_nine :
    ∃ s' t' level rounds, (flexspi anyAction 0).Reach
        ⟨writeBlocking 0 0x100 9, ⟨Controller.reset, fun a => BitVec.ofNat 8 a⟩, []⟩
        ⟨.ret 0, s', t'⟩ ∧
      marks 0 t' = .txLevel level :: rounds.flatMap (Round.marks .fill) ∧
      Chunked (2 * (watermarkOf level).val) txEmpty 9 rounds ∧
      bytesOf (stream rounds) = [0, 1, 2, 3, 4, 5, 6, 7, 8, 0, 0, 0] := by
  obtain ⟨⟨p, s', t'⟩, hreach, htest⟩ : ∃ c, (flexspi anyAction 0).Reach
      ⟨writeBlocking 0 0x100 9, ⟨Controller.reset, fun a => BitVec.ofNat 8 a⟩, []⟩ c ∧
      decide (c.prog.value? = some 0) = true :=
    exists_reach_of_run (timed [(1, .raise (bit txEmpty)), (13, .raise (bit txEmpty))] 11)
      (by decide +kernel)
  obtain rfl := Prog.eq_ret_of_value? (of_decide_eq_true htest)
  obtain ⟨level, rounds, hmarks, hchunked, hbytes⟩ :=
    (write_rounds (flexspiBuffers anyAction 0) 0 0x100 (by decide) _ _).2.2 _ _ _ hreach
  exact ⟨s', t', level, rounds, hreach, hmarks, hchunked, hbytes.trans (by decide)⟩

/-! ## Unpacking -/

/-- On the controller: when the device keeps raising bit 7, `read_blocking` returns. -/
theorem read_returns {permits : Permits} {fspi buffer size : Nat} (hsize : size ≤ 1024) {s : Bus}
    {t : BusTrace} {r : (flexspi permits fspi).Run ⟨readBlocking fspi buffer size, s, t⟩}
    (h : KeepsRaising rxWatermarkFlag r) : ∃ n, (r.cfg n).prog = .ret 0 := by
  have htriple : (flexspi permits fspi).Triple _
    (Logged (flexspiBuffers permits fspi) fspi s.mem (marks fspi t)) _ _ :=
    readBlocking_logged buffer size hsize
  exact htriple.returns_value_of_fair (fun _ _ _ hs => hs.1) (fun _ _ => id) ⟨rfl, rfl⟩
    (h.fair (by decide) (readBlocking_waits fspi buffer size))

/-- **Chunking and unpacking.**  In a fair run `read_blocking` returns.  It touches only the buffer.
Where it has returned, it has loaded the words of `size` bytes, in rounds of the watermark that was
loaded first; the buffer holds their first `size` bytes, and the rest of memory is as before. -/
theorem read_rounds {M : Machine bus σ A} (D : Buffers M) (fspi buffer : Nat) {size : Nat}
    (hsize : size ≤ 1024) (s : σ) (t : Trace bus A) :
    (∀ r : M.Run ⟨readBlocking fspi buffer size, s, t⟩, r.Fair → ∃ n, (r.cfg n).prog = .ret 0) ∧
    (∀ c, M.Reach ⟨readBlocking fspi buffer size, s, t⟩ c →
      Confined buffer (buffer + size) c.prog.head ∧
        WaitsOnlyFor ⟨fspi + Reg.intr, rxWatermarkFlag⟩ c.prog.head) ∧
    ∀ result s' t', M.Reach ⟨readBlocking fspi buffer size, s, t⟩ ⟨.ret result, s', t'⟩ →
      ∃ level flushed rounds,
        marks fspi t' = marks fspi t ++ .rxLevel level :: .rxLevel flushed ::
          .rxSet (flushed ||| 1#32) :: rounds.flatMap (Round.marks .fetch) ∧
        Chunked (watermarkOf level).val rxWatermarkFlag size rounds ∧
        (∀ i < size, (bytesOf (stream rounds))[i]? = some (D.bytes s' (buffer + i))) ∧
        ∀ x, x < buffer ∨ buffer + size ≤ x → D.bytes s' x = D.bytes s x := by
  have htriple : M.Triple _ (Logged D fspi (D.bytes s) (marks fspi t)) _ _ :=
    readBlocking_logged buffer size hsize
  have hstart : Logged D fspi (D.bytes s) (marks fspi t) s t := ⟨rfl, rfl⟩
  refine ⟨fun r hfair => ?_, fun c hreach => ?_, fun result s' t' hreach => ?_⟩
  · exact htriple.returns_value_of_fair (fun _ _ _ hs => hs.1) (fun _ _ => id) hstart hfair
  · exact confined_of_reach htriple (readBlocking_waits fspi buffer size) hstart hreach
  · obtain ⟨-, level, flushed, rounds, ⟨hbytes, hmarks⟩, hchunked⟩ :=
      htriple.returns hstart hreach
    have hlength : ((bytesOf (stream rounds)).take size).length = size := by
      rw [List.length_take, length_bytesOf, hchunked.length_stream]
      omega
    refine ⟨level, flushed, rounds, hmarks, hchunked, fun i hi => ?_, fun x hx => ?_⟩
    · have hlt : i < ((bytesOf (stream rounds)).take size).length := by rwa [hlength]
      have hget := getElem?_of_storeBytes (D.bytes s) buffer hlt
      rw [List.getElem?_take_of_lt hi] at hget
      rw [hget, hbytes]
    · rw [hbytes]
      apply storeBytes_of_not_mem
      rwa [hlength]

/-- Seven bytes at a watermark of one: a word, then three bytes of the next. -/
theorem read_rounds_seven :
    ∃ s' t' level flushed rounds, (flexspi anyAction 0).Reach
        ⟨readBlocking 0 0x100 7, ⟨Controller.reset, fun _ => 0xFF#8⟩, []⟩ ⟨.ret 0, s', t'⟩ ∧
      marks 0 t' = .rxLevel level :: .rxLevel flushed :: .rxSet (flushed ||| 1#32) ::
        rounds.flatMap (Round.marks .fetch) ∧
      Chunked (watermarkOf level).val rxWatermarkFlag 7 rounds ∧
      (bytesOf (stream rounds))[6]? = some (s'.mem 0x106) ∧ s'.mem 0x107 = 0xFF#8 := by
  obtain ⟨⟨p, s', t'⟩, hreach, htest⟩ : ∃ c, (flexspi anyAction 0).Reach
      ⟨readBlocking 0 0x100 7, ⟨Controller.reset, fun _ => 0xFF#8⟩, []⟩ c ∧
      decide (c.prog.value? = some 0) = true :=
    exists_reach_of_run (timed [(3, .raise (bit rxWatermarkFlag)),
      (11, .raise (bit rxWatermarkFlag))] 13) (by decide +kernel)
  obtain rfl := Prog.eq_ret_of_value? (of_decide_eq_true htest)
  obtain ⟨level, flushed, rounds, hmarks, hchunked, hbytes, hframe⟩ :=
    (read_rounds (flexspiBuffers anyAction 0) 0 0x100 (by decide) _ _).2.2 _ _ _ hreach
  exact ⟨s', t', level, flushed, rounds, hreach, hmarks, hchunked, hbytes 6 (by decide),
    hframe 0x107 (.inr (by decide))⟩

end QspiTool
