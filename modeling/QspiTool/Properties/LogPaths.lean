import QspiTool.Log.History

/-!
# The buffer of `slog_get_full_path`

`slog_get_full_path` prints the path into the buffer of its caller with `snprintf`, which stays
inside, and then stores a zero behind the path as if all of it had been printed.  So it overruns
the buffer exactly when the path with its zero does not fit.

Every path there can be is at most `longestPath` long (`log_full_path`), so a buffer of one byte
more is always large enough, and it then holds the path.
-/

namespace QspiTool

open Interaction Machine Oracle CText

variable {cfg : SlogConfig} {f f' : SlogFile} {g g' : Slog} {es : List Entry}
  {leaked : List Nat} {calls : List LogCall}

/-! ## The longest path -/

lemma length_openPath_le {date : SlogDate} (h : f.sFilePath.text.length ≤ longestPath) :
    (openPath cfg f date).text.length ≤ longestPath := by
  unfold openPath
  split_ifs
  · rw [slogFileName_fits]
    exact length_slogFileName_le cfg date
  · exact h

lemma Filed.length_le {date : SlogDate} {line : Text} (h : Filed cfg f date line f' es)
    (hf : f.sFilePath.text.length ≤ longestPath) : f'.sFilePath.text.length ≤ longestPath := by
  have hwritten : ∀ f₁ : SlogFile, (f₁.written cfg).sFilePath = f₁.sFilePath := by
    intro f₁
    unfold SlogFile.written
    split_ifs <;> rfl
  cases h with
  | kept _ =>
    rw [hwritten]
    exact hf
  | opened _ _ _ =>
    rw [hwritten]
    exact length_openPath_le hf
  | refused _ _ => exact length_openPath_le hf

lemma LogCall.Effect.length_le {call : LogCall} (h : call.Effect g g' es leaked)
    (hg : g.logFile.sFilePath.text.length ≤ longestPath) :
    g'.logFile.sFilePath.text.length ≤ longestPath := by
  cases h with
  | configured _ _ =>
    cases call with
    | init _ _ _ => exact Nat.zero_le _
    | configSet cfg =>
      simp only [configure]
      split_ifs
      · exact Nat.zero_le _
      · exact hg
    | _ => exact hg
  | logged _ _ hlogged =>
    cases hlogged with
    | noMemory _ _ => exact hg
    | shown tid hshown =>
      obtain ⟨verdict, told, filed, -, -, hfiled⟩ := hshown
      split_ifs at hfiled
      · rw [hfiled.1]
        exact hg
      · exact hfiled.length_le hg

lemma LogHistory.length_le (h : LogHistory g calls g' es leaked)
    (hg : g.logFile.sFilePath.text.length ≤ longestPath) :
    g'.logFile.sFilePath.text.length ≤ longestPath := by
  induction h with
  | nil => exact hg
  | cons heffect _ ih => exact ih (heffect.length_le hg)

/-! ## The buffer -/

/-- Only characters of the `n` bytes from `p` on are stored. -/
def InBuffer (p n : Nat) : Head stdio → Prop
  | .call (.write a bytes) => p ≤ a ∧ a + bytes.length ≤ p + n
  | _ => True

/-- The mutex stores nothing. -/
lemma slogSyncLock_inBuffer {p n : Nat} {Q : Unit → Desk → Prop} (d : Desk)
    (h : ∀ d', Q () d') : libc.Ensures (fun h _ => InBuffer p n h) (slogSyncLock g) Q d := by
  simp [slogSyncLock, slogSyncFailed, InBuffer, h]

/-- The mutex may be had. -/
lemma slogSyncLock_may {G : Head stdio → Desk → Prop} {Q : Unit → Desk → Prop} {d : Desk}
    (h : libc.Ensures G (slogSyncLock g) Q d) : ∃ d', Q () d' := by
  unfold slogSyncLock at h
  rw [ensures_whenever] at h
  by_cases hsafe : g.nTdSafe = true
  · have hlock := h.1 hsafe
    simp only [ensures_bind, ensures_pthread, ensures_whenever] at hlock
    exact ⟨_, (hlock.2 0).2 (not_not_intro rfl)⟩
  · exact ⟨d, h.2 hsafe⟩

lemma slogSyncUnlock_inBuffer {p n : Nat} {Q : Unit → Desk → Prop} (d : Desk)
    (h : ∀ d', Q () d') : libc.Ensures (fun h _ => InBuffer p n h) (slogSyncUnlock g) Q d := by
  simp [slogSyncUnlock, slogSyncFailed, InBuffer, h]

/-- Inside the buffer exactly when the path fits, with its zero. -/
lemma slogGetFullPath_inBuffer {p n : Nat} (hp : p ≠ 0) (hn : n ≠ 0) (d : Desk) :
    libc.Ensures (fun h _ => InBuffer p n h) (slogGetFullPath g p n)
      (fun r _ => r = g.logFile.sFilePath.text.length) d ↔
        g.logFile.sFilePath.text.length < n := by
  unfold slogGetFullPath
  rw [if_neg (by simp [hp, hn])]
  simp only [ensures_bind, ensures_write]
  constructor
  · intro h
    obtain ⟨d', -, hzero, -⟩ := slogSyncLock_may h
    simp only [InBuffer, List.length_singleton] at hzero
    omega
  · intro hfits
    refine slogSyncLock_inBuffer d fun d' => ⟨?_, ?_, ?_⟩
    · simp [InBuffer]
      omega
    · simp [InBuffer]
      omega
    · exact slogSyncUnlock_inBuffer d' fun _ => rfl

/-- **The buffer of `slog_get_full_path`.**  After any sequence of calls the path has at most 2321
characters; and a call of `slog_get_full_path` with a buffer of `n` bytes stores only inside the
buffer and returns the length of the path, whatever happens to the mutex, exactly when the path is
shorter than `n`. -/
theorem log_full_path (calls : List LogCall) {a a' : Answers} {d' : Desk}
    {t : Trace stdio Answers}
    (hreach : libc.machine.Reach ⟨logSession .zero calls, (a, .clear), []⟩
      ⟨.ret g', (a', d'), t⟩) :
    g'.logFile.sFilePath.text.length ≤ longestPath ∧
    ∀ p n, p ≠ 0 → n ≠ 0 →
      ((∀ c, libc.machine.Reach ⟨slogGetFullPath g' p n, (a', d'), t⟩ c →
          InBuffer p n c.prog.head ∧
          ∀ r, c.prog = .ret r → r = g'.logFile.sFilePath.text.length) ↔
        g'.logFile.sFilePath.text.length < n) := by
  obtain ⟨leaked, lost, hhistory, -⟩ := logSession_returns hreach
  refine ⟨hhistory.length_le (Nat.zero_le _), fun p n hp hn => ?_⟩
  have hexact := ensures_iff_reach (O := libc) (a := a') (t := t) (v := d')
    (p := slogGetFullPath g' p n) (G := fun h _ => InBuffer p n h)
    (Q := fun r _ => r = g'.logFile.sFilePath.text.length)
  rw [← slogGetFullPath_inBuffer hp hn d', hexact]
  refine forall_congr' fun c => imp_congr_right fun _ => and_congr_left fun _ => ?_
  refine ⟨fun hin _ => hin, fun hin => ?_⟩
  by_cases hdone : c.prog.head = .done
  · rw [hdone]
    trivial
  · exact hin hdone

/-- After a line has been written to `./slog-2024-05-06.log`, a buffer of 21 bytes is overrun. -/
theorem log_full_path_overrun :
    ∃ g' a' d' t, libc.machine.Reach
        ⟨logSession .zero [.init none 255#16 false,
          .configSet { SlogConfig.initial none 255#16 with nToFile := true },
          .display slogInfo true "one".toList], (Answers.on 2024 5 6 7, .clear), []⟩
        ⟨.ret g', (a', d'), t⟩ ∧
      ¬ ∀ c, libc.machine.Reach ⟨slogGetFullPath g' 4096 21, (a', d'), t⟩ c →
          InBuffer 4096 21 c.prog.head ∧
          ∀ r, c.prog = .ret r → r = g'.logFile.sFilePath.text.length := by
  obtain ⟨g', ⟨a', d'⟩, t, hreach, hlength⟩ : ∃ g' s t, libc.machine.Reach
      ⟨logSession .zero [.init none 255#16 false,
        .configSet { SlogConfig.initial none 255#16 with nToFile := true },
        .display slogInfo true "one".toList], (Answers.on 2024 5 6 7, .clear), []⟩
        ⟨.ret g', s, t⟩ ∧ decide (21 ≤ g'.logFile.sFilePath.text.length) = true :=
    exists_return_of_run (timed [] 4) (by decide +kernel)
  refine ⟨g', a', d', t, hreach, fun hin => ?_⟩
  have hfits := ((log_full_path _ hreach).2 4096 21 (by decide) (by decide)).mp hin
  exact absurd (of_decide_eq_true hlength) (by omega)

end QspiTool
