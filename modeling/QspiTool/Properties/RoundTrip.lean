import QspiTool.Device.Loopback
import QspiTool.Interaction.Fair

/-!
# From `write_blocking` through a FIFO to `read_blocking`

With both watermarks at `w`, a round of `write_blocking` sends `2 * w` words and a round of
`read_blocking` takes `w` of the `2 * w` words it acknowledges.  The second half of every level is
lost, so the buffer comes back just when it fits in one round of `read_blocking`.
-/

namespace QspiTool

open Words Interaction Machine

/-- Send `size` bytes from `src`, and receive as many at `dst`. -/
def writeThenRead (fspi src dst size : Nat) : Driver Int := do
  let _ ← writeBlocking fspi src size
  readBlocking fspi dst size

/-! ## The accesses, on any machine -/

section

variable {σ A : Type} {M : Machine bus σ A} {D : Buffers M} {fspi : Nat} {mem : Nat → Byte}

/-- The marks of both transfers. -/
def exchange (sent : Word) (writes : List Round) (loaded flushed : Word) (reads : List Round) :
    List Mark :=
  .txLevel sent :: writes.flatMap (Round.marks .fill) ++
    .rxLevel loaded :: .rxLevel flushed :: .rxSet (flushed ||| 1#32) ::
      reads.flatMap (Round.marks .fetch)

/-- Both transfers have been made: the rounds, and where the words received have gone. -/
def Exchanged (D : Buffers M) (fspi : Nat) (mem : Nat → Byte) (src dst size : Nat) :
    Assertion bus σ A := fun s t =>
  ∃ sent writes loaded flushed reads,
    Logged D fspi (storeBytes mem dst ((bytesOf (stream reads)).take size))
      (exchange sent writes loaded flushed reads) s t ∧
    Chunked (2 * (watermarkOf sent).val) txEmpty size writes ∧
    stream writes = packed mem src size ∧
    Chunked (watermarkOf loaded).val rxWatermarkFlag size reads

lemma writeThenRead_logged (src dst : Nat) {size : Nat} (hsize : size ≤ 1024) :
    M.Triple (fun d _ _ => d ≠ .abort) (Logged D fspi mem []) (writeThenRead fspi src dst size)
      fun result s t => result = 0 ∧ Exchanged D fspi mem src dst size s t := by
  have hallow : ∀ (lo hi : Nat) (d : Head bus), Confined lo hi d → d ≠ .abort := by
    rintro lo hi d hd rfl
    exact hd
  refine Triple.bind ((writeBlocking_logged src size hsize).allow fun d _ _ => hallow _ _ d)
    fun _ => ?_
  refine Triple.pre (P := fun s t => ∃ (sent : Word) (writes : List Round), Logged D fspi mem
    (.txLevel sent :: writes.flatMap (Round.marks .fill)) s t ∧
      Chunked (2 * (watermarkOf sent).val) txEmpty size writes ∧
      stream writes = packed mem src size) ?_ fun s t hs => hs.2
  apply Triple.exists_pre
  intro sent
  apply Triple.exists_pre
  intro writes
  apply Triple.of_pure
  rintro ⟨hwrites, hstream⟩
  refine ((readBlocking_logged dst size hsize).allow fun d _ _ => hallow _ _ d).post
    fun result s t hs => ?_
  obtain ⟨hzero, loaded, flushed, reads, hlogged, hreads⟩ := hs
  exact ⟨hzero, sent, writes, loaded, flushed, reads, hlogged, hwrites, hstream, hreads⟩

end

/-! ## The words that come back -/

variable {fspi src dst size : Nat} {junk : Nat → Word} {w : Watermark} {s : Loop}

lemma writeThenRead_polls (fspi src dst size : Nat) :
    (writeThenRead fspi src dst size).Every (PollsIntr fspi) := by
  have hwaits : ∀ {flag : Nat} {d : Head bus}, flag < 32 →
      WaitsOnlyFor ⟨fspi + Reg.intr, flag⟩ d → PollsIntr fspi d := by
    rintro flag d hflag hd w rfl
    rw [hd w rfl]
    exact ⟨rfl, hflag⟩
  exact ((writeBlocking_waits fspi src size).mono fun _ => hwaits (by decide)).bind fun _ =>
    (readBlocking_waits fspi dst size).mono fun _ => hwaits (by decide)

/-- What the FIFO makes of the rounds: the words received are the first halves of the levels
sent. -/
lemma Fifo.Idle.exchange {q : Fifo} (h : q.Idle w []) {sent loaded flushed : Word}
    {writes reads : List Round}
    (htells : q.TellsAll junk (exchange sent writes loaded flushed reads))
    (hwrites : Chunked (2 * (watermarkOf sent).val) txEmpty size writes)
    (hreads : Chunked (watermarkOf loaded).val rxWatermarkFlag size reads) :
    ∃ stale,
      (stream writes ++ stale).length = 2 * w.val * ((size + (8 * w.val - 1)) / (8 * w.val)) ∧
      ∀ j < (stream reads).length, (stream reads)[j]? =
        some ((stream writes ++ stale)[2 * w.val * (j / w.val) + j % w.val]?.getD
          (junk (j % w.val))) := by
  obtain ⟨⟨hsent, -⟩, hloaded, hflushed, -, hfetches⟩ := (tellsAll_append _ _).mp htells
  have htx : watermarkOf sent = w := (congrArg watermarkOf hsent).trans h.tx
  rw [htx] at hwrites
  obtain ⟨stale, hlength, hidle⟩ := h.after_writes hwrites
  have hrx : watermarkOf loaded = w := (congrArg watermarkOf hloaded).trans hidle.rx
  rw [hrx] at hreads
  -- the flush keeps the watermark
  have hflush : Idle w (stream writes ++ stale)
      ((q.after (writes.flatMap (Round.marks .fill))).next (.rxSet (flushed ||| 1#32))) := by
    refine ⟨hidle.tx, ?_, hidle.words, hidle.filled, hidle.fetched⟩
    exact (watermarkOf_or_one flushed).trans ((congrArg watermarkOf hflushed).trans hidle.rx)
  refine ⟨stale, ?_, hflush.after_reads hreads hfetches⟩
  have hfour : 4 * (2 * w.val) = 8 * w.val := by omega
  rw [hlength, hwrites.count, hfour]

/-- **Byte by byte.**  `read_blocking` takes its words from the first halves of the levels that
`write_blocking` has sent. -/
theorem received_byte (hsize : size ≤ 1024) (hidle : s.fifo.Idle w []) {result : Int} {s' : Loop}
    {t' : Trace bus (Nat × Word)} (hreach : (loopback junk fspi).Reach
      ⟨writeThenRead fspi src dst size, s, []⟩ ⟨.ret result, s', t'⟩) :
    ∃ stale, (packed s.mem src size ++ stale).length =
        2 * w.val * ((size + (8 * w.val - 1)) / (8 * w.val)) ∧
      ∀ i < size, s'.mem (dst + i) = byteAt
        ((packed s.mem src size ++ stale)[2 * w.val * (i / 4 / w.val) + i / 4 % w.val]?.getD
          (junk (i / 4 % w.val))) (i % 4) := by
  have htriple : (loopback junk fspi).Triple _ (Logged (loopbackBuffers junk fspi) fspi s.mem []) _
    _ := writeThenRead_logged src dst hsize
  obtain ⟨-, sent, writes, loaded, flushed, reads, ⟨hmem, hmarks⟩, hwrites, hstream, hreads⟩ :=
    htriple.returns (t := []) ⟨rfl, rfl⟩ hreach
  have hdriven : Driven junk fspi s.fifo s' t' :=
    driven_returns (t := []) (writeThenRead_polls fspi src dst size) ⟨trivial, rfl⟩ hreach
  rw [Driven, hmarks] at hdriven
  obtain ⟨stale, hlength, hwords⟩ := hidle.exchange hdriven.1 hwrites hreads
  rw [hstream] at hlength hwords
  refine ⟨stale, hlength, fun i hi => ?_⟩
  have hlt : i < ((bytesOf (stream reads)).take size).length := by
    rw [List.length_take, length_bytesOf, hreads.length_stream]
    omega
  have hbyte := getElem?_of_storeBytes s.mem dst hlt
  rw [← hmem, List.getElem?_take_of_lt hi, getElem?_bytesOf,
    hwords (i / 4) (by rw [hreads.length_stream]; omega)] at hbyte
  exact (Option.some.inj hbyte).symm

/-! ## The round trip -/

/-- What has been sent comes back: in a fair run both transfers return, and then the buffers hold
the same bytes. -/
structure RoundTrips (junk : Nat → Word) (fspi src dst size : Nat) (s : Loop) : Prop where
  ends : ∀ r : (loopback junk fspi).Run ⟨writeThenRead fspi src dst size, s, []⟩, r.Fair →
    ∃ n, (r.cfg n).prog = .ret 0
  same : ∀ result s' t', (loopback junk fspi).Reach ⟨writeThenRead fspi src dst size, s, []⟩
    ⟨.ret result, s', t'⟩ → ∀ i < size, s'.mem (dst + i) = s.mem (src + i)

/-- A buffer of one round of `read_blocking` comes back. -/
lemma roundTrips_of_le (hsize : size ≤ 1024) (hidle : s.fifo.Idle w []) (hle : size ≤ 4 * w.val)
    (junk : Nat → Word) : RoundTrips junk fspi src dst size s where
  ends := by
    intro r hfair
    have htriple : (loopback junk fspi).Triple _
      (Logged (loopbackBuffers junk fspi) fspi s.mem []) _ _ := writeThenRead_logged src dst hsize
    exact htriple.returns_value_of_fair (fun _ _ _ hs => hs.1) (fun _ _ h => h rfl) ⟨rfl, rfl⟩ hfair
  same := by
    rintro result s' t' hreach i hi
    obtain ⟨stale, -, hbytes⟩ := received_byte hsize hidle hreach
    have hword : i / 4 < w.val := by omega
    have hlt : i / 4 < (packed s.mem src size).length := by
      rw [length_packed]
      omega
    have hsent := byteAt_packed s.mem src hi
    rw [List.getElem?_eq_getElem hlt, Option.map_some] at hsent
    rw [hbytes i hi, Nat.div_eq_of_lt hword, Nat.mod_eq_of_lt hword, Nat.mul_zero, Nat.zero_add,
      List.getElem?_append_left hlt, List.getElem?_eq_getElem hlt, Option.getD_some]
    exact Option.some.inj hsent

lemma exists_received (junk : Nat → Word) (fspi src dst : Nat) {size : Nat} (hsize : size ≤ 1024)
    (s : Loop) : ∃ result s' t', (loopback junk fspi).Reach
      ⟨writeThenRead fspi src dst size, s, []⟩ ⟨.ret result, s', t'⟩ := by
  have htriple : (loopback junk fspi).Triple _
    (Logged (loopbackBuffers junk fspi) fspi s.mem []) _ _ := writeThenRead_logged src dst hsize
  obtain ⟨⟨p, s', t'⟩, hreach, habort | ⟨a, ha⟩⟩ :=
    exists_reach_end (M := loopback junk fspi) (writeThenRead_polls fspi src dst size)
      (fun w s t hw => loopback_answers hw s t) s []
  · have hhead := htriple.guarantee (t := []) ⟨rfl, rfl⟩ hreach (by rw [habort]; rintro ⟨⟩)
    rw [habort] at hhead
    exact absurd rfl hhead
  · obtain rfl := ha
    exact ⟨a, s', t', hreach⟩

/-- When a buffer takes more than one round to read, the last of these rounds is behind the levels
that it takes to write it. -/
lemma exists_round_behind {n size : Nat} (hpos : 0 < n) (h : 4 * n < size) :
    ∃ k, 4 * (n * k) < size ∧ 2 * n * ((size + (8 * n - 1)) / (8 * n)) ≤ 2 * n * k := by
  have hlast : 4 * n * ((size - 1) / (4 * n)) ≤ size - 1 := Nat.mul_div_le _ _
  have hnext : size - 1 < 4 * n * ((size - 1) / (4 * n)) + 4 * n := Nat.lt_mul_div_succ _ (by omega)
  have hone : 1 ≤ (size - 1) / (4 * n) := (Nat.one_le_div_iff (by omega)).mpr (by omega)
  generalize (size - 1) / (4 * n) = k at hlast hnext hone
  refine ⟨k, ?_, Nat.mul_le_mul_left _ (Nat.le_of_lt_succ (Nat.div_lt_of_lt_mul ?_))⟩
  · rw [← Nat.mul_assoc]
    omega
  · have hdouble : 8 * n * (k + 1) = 4 * n * k + 4 * n * k + 8 * n := by
      rw [Nat.mul_succ, ← Nat.add_mul]
      congr 2
      omega
    have hle : 4 * n * 1 ≤ 4 * n * k := Nat.mul_le_mul_left _ hone
    rw [Nat.succ_eq_add_one, hdouble]
    omega

/-- In the last round of a longer buffer `read_blocking` reads past the words in the FIFO. -/
lemma le_of_roundTrips (hsize : size ≤ 1024) (hidle : s.fifo.Idle w [])
    (h : ∀ junk, RoundTrips junk fspi src dst size s) : size ≤ 4 * w.val := by
  apply Nat.le_of_not_lt
  intro hlt
  obtain ⟨k, hk, hbehind⟩ := exists_round_behind w.pos hlt
  -- past the words there is something else than what has been sent
  obtain ⟨junk, hjunk⟩ : ∃ junk : Nat → Word,
      byteAt (junk 0) 0 = ~~~ s.mem (src + 4 * (w.val * k)) :=
    ⟨fun _ => ofBytes fun _ => ~~~ s.mem (src + 4 * (w.val * k)), byteAt_ofBytes _ (by decide)⟩
  obtain ⟨result, s', t', hreach⟩ := exists_received junk fspi src dst hsize s
  obtain ⟨stale, hlength, hbytes⟩ := received_byte hsize hidle hreach
  have hword : 4 * (w.val * k) / 4 = w.val * k := Nat.mul_div_cancel_left _ (by decide)
  have hempty : (packed s.mem src size ++ stale)[2 * w.val * k + 0]? = none :=
    List.getElem?_eq_none (by rwa [hlength])
  have hreceived := hbytes _ hk
  rw [(h junk).same result s' t' hreach _ hk, hword, Nat.mul_div_cancel_left _ w.pos,
    Nat.mul_mod_right, Nat.mul_mod_right, hempty, Option.getD_none, hjunk] at hreceived
  have hbit := congrArg (fun b : Byte => b.getLsbD 0) hreceived
  simp at hbit

/-- **The round trip is that of one round of `read_blocking`.**  With both watermarks at `w` and the
FIFO empty, what has been sent comes back, whatever is past the words in the FIFO, just when it is
no more than `4 * w` bytes. -/
theorem roundTrips_iff (fspi src dst : Nat) {size : Nat} (hsize : size ≤ 1024) {w : Watermark}
    {s : Loop} (hidle : s.fifo.Idle w []) :
    (∀ junk, RoundTrips junk fspi src dst size s) ↔ size ≤ 4 * w.val :=
  ⟨le_of_roundTrips hsize hidle, roundTrips_of_le hsize hidle⟩

/-- The device at its lowest watermarks, with a counting buffer. -/
def Loop.counting : Loop where
  fifo := ⟨0#32, 0#32, fun _ => 0#32, [], false, false⟩
  reg := fun _ => 0#32
  mem := fun a => BitVec.ofNat 8 a

lemma idle_counting : Loop.counting.fifo.Idle (watermarkOf 0#32) [] := ⟨rfl, rfl, rfl, rfl, rfl⟩

/-- Four bytes come back, five do not. -/
theorem roundTrips_iff_four :
    (∀ junk, RoundTrips junk 0 0x100 0x200 4 Loop.counting) ∧
      ¬ ∀ junk, RoundTrips junk 0 0x100 0x200 5 Loop.counting := by
  refine ⟨(roundTrips_iff 0 0x100 0x200 (by decide) idle_counting).mpr (by decide), fun h => ?_⟩
  exact absurd ((roundTrips_iff 0 0x100 0x200 (by decide) idle_counting).mp h) (by decide)

/-- **Words are lost.**  Of four words at a watermark of one, the third comes back as the second. -/
theorem second_word_lost :
    ¬ ∀ (w : Watermark) (size : Nat) (s : Loop), w.val ≤ 16 → size ≤ 1024 → s.fifo.Idle w [] →
      RoundTrips (fun _ => 0#32) 0 0x100 0x200 size s := by
  intro h
  obtain ⟨⟨p, s', t'⟩, hreach, htest⟩ : ∃ c, (loopback (fun _ => 0#32) 0).Reach
      ⟨writeThenRead 0 0x100 0x200 16, Loop.counting, []⟩ c ∧
      decide (c.prog.value? = some 0 ∧ c.state.mem 0x204 = 0x08#8) = true :=
    exists_reach_of_run (.prog :: [13, 16, 11, 11, 11, 11].flatMap fun n =>
      .env (Reg.intr, bit txEmpty ||| bit rxWatermarkFlag) :: List.replicate n .prog)
      (by decide +kernel)
  obtain ⟨hvalue, hbyte⟩ := of_decide_eq_true htest
  obtain rfl := Prog.eq_ret_of_value? hvalue
  have hsame := (h _ 16 Loop.counting (by decide) (by decide) idle_counting).same _ _ _ hreach 4
    (by decide)
  rw [hbyte] at hsame
  exact absurd hsame (by decide)

end QspiTool
