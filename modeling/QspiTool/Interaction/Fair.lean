import QspiTool.Interaction.Logic

/-!
# Fair runs end

An infinite run of a program on a machine, one tick after another; a program that has ended may
stay where it is.  A run is fair when the program keeps getting its turns and no wait fails for
ever.  A program tree is inductive, so a fair run comes to an end of the program.
-/

namespace Interaction

variable {S : Signature} {σ A α : Type}

/-- The program has returned, or an assertion of it has failed. -/
def Prog.Ended (p : Prog S α) : Prop := p.head = .done ∨ p.head = .abort

lemma not_ended_call (o : S.Op) (k : S.Res o → Prog S α) : ¬ (Prog.call o k).Ended := by
  rintro (h | h) <;> cases h

lemma not_ended_poll (w : S.Wait) (k : Prog S α) : ¬ (Prog.poll w k).Ended := by
  rintro (h | h) <;> cases h

namespace Machine

variable (M : Machine S σ A)

/-- An infinite run from `c₀`. -/
structure Run (c₀ : Config S σ A α) where
  cfg : Nat → Config S σ A α
  start : cfg 0 = c₀
  tick : Nat → Tick A
  next : ∀ n, M.step (tick n) (cfg n) = some (cfg (n + 1)) ∨
    (cfg n).prog.Ended ∧ cfg (n + 1) = cfg n

variable {M} {c₀ : Config S σ A α}

/-- From each point on the program, unless it has ended, gets a turn in which it does not probe in
vain. -/
def Run.Fair (r : M.Run c₀) : Prop :=
  ∀ n, ¬ (r.cfg n).prog.Ended → ∃ m, n ≤ m ∧ r.tick m = .prog ∧
    ∀ w, (r.cfg m).prog.head = .poll w →
      S.ready w (M.exec (S.probe w) (r.cfg m).state).1 = true

/-- Every point of a run is reachable. -/
lemma Run.reach (r : M.Run c₀) (n : Nat) : M.Reach c₀ (r.cfg n) := by
  induction n with
  | zero => rw [r.start]; exact Reach.refl _
  | succ n ih =>
    rcases r.next n with hstep | ⟨-, hsame⟩
    · exact ih.trans (Reach.head hstep (Reach.refl _))
    · rwa [hsame]

/-- Only a program that has ended cannot take its turn. -/
lemma ended_of_step {c : Config S σ A α} (h : M.step .prog c = none) : c.prog.Ended := by
  obtain ⟨p, s, t⟩ := c
  cases p with
  | ret a => exact .inl rfl
  | abort => exact .inr rfl
  | call o k => cases h
  | poll w k => cases h

variable (M) in
/-- The configurations along an infinite schedule. -/
def follow (tick : Nat → Tick A) (c₀ : Config S σ A α) : Nat → Config S σ A α
  | 0 => c₀
  | n + 1 => (M.step (tick n) (follow tick c₀ n)).getD (follow tick c₀ n)

/-- Every infinite schedule of actions that are always possible has a run. -/
def Run.ofSchedule (tick : Nat → Tick A) (c₀ : Config S σ A α)
    (hact : ∀ n a, tick n = .env a → ∀ s, M.act a s ≠ none) : M.Run c₀ where
  cfg := M.follow tick c₀
  start := rfl
  tick := tick
  next n := by
    cases hstep : M.step (tick n) (M.follow tick c₀ n) with
    | some c => exact .inl (by rw [follow, hstep, Option.getD_some])
    | none =>
      refine .inr ⟨?_, by rw [follow, hstep, Option.getD_none]⟩
      cases htick : tick n with
      | prog =>
        rw [htick] at hstep
        exact ended_of_step hstep
      | env a =>
        rw [htick] at hstep
        exact absurd (Option.map_eq_none_iff.mp hstep) (hact n a htick _)

/-- A tick that is not the program's leaves the program alone. -/
lemma prog_of_step_env {a : A} {c c' : Config S σ A α} (h : M.step (.env a) c = some c') :
    c'.prog = c.prog := by
  obtain ⟨s, -, rfl⟩ := Option.map_eq_some_iff.mp h
  rfl

/-- The program stays where it is up to the turn in which it moves on. -/
lemma Run.waits {r : M.Run c₀} {p : Prog S α} {N : Prog S α → Prop} (hp : ¬ p.Ended)
    (hmove : ∀ c c', c.prog = p → M.step .prog c = some c' → c'.prog = p ∨ N c'.prog)
    {n : Nat} (hn : (r.cfg n).prog = p) {m : Nat} (hm : n ≤ m) :
    (r.cfg m).prog = p ∨ ∃ j, N (r.cfg j).prog := by
  induction hm with
  | refl => exact .inl hn
  | @step m _ ih =>
    rcases ih with ih | ih
    · rcases r.next m with hstep | ⟨hended, -⟩
      · cases htick : r.tick m with
        | env a =>
          rw [htick] at hstep
          exact .inl ((prog_of_step_env hstep).trans ih)
        | prog =>
          rw [htick] at hstep
          exact (hmove _ _ ih hstep).imp_right fun h => ⟨m + 1, h⟩
      · rw [ih] at hended
        exact absurd hended hp
    · exact .inr ih

/-- In a fair run the program moves on. -/
lemma Run.Fair.moves_on {r : M.Run c₀} (h : r.Fair) {p : Prog S α} {N : Prog S α → Prop}
    (hp : ¬ p.Ended)
    (hstay : ∀ c c', c.prog = p → M.step .prog c = some c' → c'.prog = p ∨ N c'.prog)
    (hmove : ∀ c c', c.prog = p → (∀ w, c.prog.head = .poll w →
      S.ready w (M.exec (S.probe w) c.state).1 = true) → M.step .prog c = some c' → N c'.prog)
    {n : Nat} (hn : (r.cfg n).prog = p) : ∃ j, N (r.cfg j).prog := by
  obtain ⟨m, hm, htick, hready⟩ := h n (by rwa [hn])
  rcases r.waits hp hstay hn hm with hsame | hnext
  · rcases r.next m with hstep | ⟨hended, -⟩
    · rw [htick] at hstep
      exact ⟨m + 1, hmove _ _ hsame hready hstep⟩
    · rw [hsame] at hended
      exact absurd hended hp
  · exact hnext

/-- **A fair run ends**, by induction on the program. -/
theorem Run.Fair.ends {r : M.Run c₀} (h : r.Fair) : ∃ n, (r.cfg n).prog.Ended := by
  suffices hsub : ∀ (p : Prog S α) (n : Nat), (r.cfg n).prog = p → ∃ m, (r.cfg m).prog.Ended by
    exact hsub _ 0 rfl
  intro p
  induction p with
  | ret a => exact fun n hn => ⟨n, by rw [hn]; exact .inl rfl⟩
  | abort => exact fun n hn => ⟨n, by rw [hn]; exact .inr rfl⟩
  | call o k ih =>
    intro n hn
    have hmove : ∀ c c' : Config S σ A α, c.prog = .call o k → M.step .prog c = some c' →
        ∃ v, c'.prog = k v := by
      rintro ⟨_, s, t⟩ c' rfl hstep
      obtain rfl := Option.some.inj hstep
      exact ⟨_, rfl⟩
    obtain ⟨j, v, hj⟩ := h.moves_on (N := fun q => ∃ v, q = k v) (not_ended_call o k)
      (fun c c' hc hstep => .inr (hmove c c' hc hstep)) (fun c c' hc _ => hmove c c' hc) hn
    exact ih v j hj
  | poll w k ih =>
    intro n hn
    obtain ⟨j, hj⟩ := h.moves_on (N := fun q => q = k) (not_ended_poll w k)
      (by
        rintro ⟨_, s, t⟩ c' rfl hstep
        obtain rfl := Option.some.inj hstep
        dsimp only
        split
        · exact .inr rfl
        · exact .inl rfl)
      (by
        rintro ⟨_, s, t⟩ c' rfl hready hstep
        obtain rfl := Option.some.inj hstep
        exact if_pos (hready w rfl)) hn
    exact ih j hj

/-- What the environment keeps until the program's turn, the program finds in its turn. -/
lemma Run.exists_turn {r : M.Run c₀} {I : σ → Prop}
    (hkeep : ∀ a s s', M.act a s = some s' → I s → I s') {m d : Nat} (hI : I (r.cfg m).state)
    (hturn : r.tick (m + d) = .prog) : ∃ k, m ≤ k ∧ r.tick k = .prog ∧ I (r.cfg k).state := by
  induction d generalizing m with
  | zero => exact ⟨m, Nat.le_refl m, hturn, hI⟩
  | succ d ih =>
    cases htick : r.tick m with
    | prog => exact ⟨m, Nat.le_refl m, htick, hI⟩
    | env a =>
      have hnext : I (r.cfg (m + 1)).state := by
        rcases r.next m with hstep | ⟨-, hsame⟩
        · rw [htick] at hstep
          obtain ⟨s, hact, hcfg⟩ := Option.map_eq_some_iff.mp hstep
          rw [← hcfg]
          exact hkeep a _ s hact hI
        · rwa [hsame]
      rw [← Nat.succ_add_eq_add_succ] at hturn
      obtain ⟨k, hle, hk⟩ := ih hnext hturn
      exact ⟨k, Nat.le_of_succ_le hle, hk⟩

/-- A run is fair when the program gets its turns, and what it waits for comes again and again and
stays until then. -/
lemma Run.fair_of_recurring {r : M.Run c₀} {I : σ → Prop}
    (hkeep : ∀ a s s', M.act a s = some s' → I s → I s')
    (hready : ∀ n w, (r.cfg n).prog.head = .poll w → I (r.cfg n).state →
      S.ready w (M.exec (S.probe w) (r.cfg n).state).1 = true)
    (hturns : ∀ n, ∃ m, n ≤ m ∧ r.tick m = .prog)
    (hcomes : ∀ n, ∃ m, n ≤ m ∧ I (r.cfg m).state) : r.Fair := by
  intro n _
  obtain ⟨m, hm, hI⟩ := hcomes n
  obtain ⟨m', hm', hturn⟩ := hturns m
  obtain ⟨d, rfl⟩ := Nat.exists_eq_add_of_le hm'
  obtain ⟨k, hk, htick, hI⟩ := r.exists_turn hkeep hI hturn
  exact ⟨k, Nat.le_trans hm hk, htick, fun w hw => hready k w hw hI⟩

/-- A run that is not fair stays in front of one wait, probing it in vain. -/
lemma Run.stuck {r : M.Run c₀} {n : Nat} (hended : ¬ (r.cfg n).prog.Ended)
    (hvain : ∀ m, n ≤ m → r.tick m = .prog → ∃ w, (r.cfg m).prog.head = .poll w ∧
      S.ready w (M.exec (S.probe w) (r.cfg m).state).1 = false) {m : Nat} (hm : n ≤ m) :
    (r.cfg m).prog = (r.cfg n).prog := by
  induction hm with
  | refl => rfl
  | @step m hle ih =>
    rcases r.next m with hstep | ⟨hend, -⟩
    · cases htick : r.tick m with
      | env a =>
        rw [htick] at hstep
        exact (prog_of_step_env hstep).trans ih
      | prog =>
        obtain ⟨w, hhead, hfail⟩ := hvain m hle htick
        rw [htick] at hstep
        generalize r.cfg m = c at hstep hhead hfail ih
        obtain ⟨p, s, t⟩ := c
        cases p with
        | poll v k =>
          obtain rfl := Head.poll.inj hhead
          have hnext := congrArg Config.prog (Option.some.inj hstep)
          simp only [hfail, Bool.false_eq_true, if_false] at hnext
          exact hnext.symm.trans ih
        | ret a => cases hhead
        | abort => cases hhead
        | call o k => cases hhead
    · rw [ih] at hend
      exact absurd hend hended

/-- A run is fair when the program gets its turns, and each thing it may wait for comes again and
again and stays until then. -/
lemma Run.fair_of_answers {r : M.Run c₀} {I : S.Wait → σ → Prop}
    (hkeep : ∀ w a s s', M.act a s = some s' → I w s → I w s')
    (hready : ∀ w s, I w s → S.ready w (M.exec (S.probe w) s).1 = true)
    (hturns : ∀ n, ∃ m, n ≤ m ∧ r.tick m = .prog)
    (hcomes : ∀ n w, (r.cfg n).prog.head = .poll w → ∃ m, n ≤ m ∧ I w (r.cfg m).state) :
    r.Fair := by
  intro n hended
  apply Classical.byContradiction
  intro hnot
  have hvain : ∀ m, n ≤ m → r.tick m = .prog → ∃ w, (r.cfg m).prog.head = .poll w ∧
      S.ready w (M.exec (S.probe w) (r.cfg m).state).1 = false := by
    intro m hm htick
    apply Classical.byContradiction
    intro hnone
    refine hnot ⟨m, hm, htick, fun w hw => ?_⟩
    cases hprobe : S.ready w (M.exec (S.probe w) (r.cfg m).state).1 with
    | true => rfl
    | false => exact absurd ⟨w, hw, hprobe⟩ hnone
  obtain ⟨m, hm, htick⟩ := hturns n
  obtain ⟨w, hhead, -⟩ := hvain m hm htick
  -- what the wait is for comes, and is there at the program's next turn
  obtain ⟨m₁, hm₁, hI⟩ := hcomes m w hhead
  obtain ⟨m₂, hm₂, htick₂⟩ := hturns m₁
  obtain ⟨d, rfl⟩ := Nat.exists_eq_add_of_le hm₂
  obtain ⟨k, hk, htick₃, hI⟩ := r.exists_turn (hkeep w) hI htick₂
  have hle : n ≤ k := Nat.le_trans hm (Nat.le_trans hm₁ hk)
  obtain ⟨v, hv, hfail⟩ := hvain k hle htick₃
  have hsame := (r.stuck hended hvain hle).trans (r.stuck hended hvain hm).symm
  rw [hsame, hhead] at hv
  obtain rfl := Head.poll.inj hv
  rw [hready _ _ hI] at hfail
  cases hfail

/-- A program that has ended, has ended for good. -/
lemma Run.ended_mono {r : M.Run c₀} {n : Nat} (h : (r.cfg n).prog.Ended) {m : Nat} (hm : n ≤ m) :
    (r.cfg m).prog.Ended := by
  induction hm with
  | refl => exact h
  | @step m _ ih =>
    rcases r.next m with hstep | ⟨-, hsame⟩
    · cases htick : r.tick m with
      | env a =>
        rw [htick] at hstep
        rwa [prog_of_step_env hstep]
      | prog =>
        rw [htick] at hstep
        generalize r.cfg m = c at hstep ih
        obtain ⟨p, s, t⟩ := c
        cases p with
        | ret a => cases hstep
        | abort => cases hstep
        | call o k => exact absurd ih (not_ended_call o k)
        | poll w k => exact absurd ih (not_ended_poll w k)
    · rwa [hsame]

/-- A run that comes to an end is fair: no wait has failed for ever. -/
lemma Run.fair_of_ended {r : M.Run c₀} {n : Nat} (h : (r.cfg n).prog.Ended) : r.Fair := by
  intro m hm
  have hle : m ≤ n := by
    rcases Nat.le_total m n with hle | hle
    · exact hle
    · exact absurd (r.ended_mono h hle) hm
  obtain ⟨d, rfl⟩ := Nat.exists_eq_add_of_le hle
  clear hle
  induction d generalizing m with
  | zero => exact absurd h hm
  | succ d ih =>
    by_cases hnext : (r.cfg (m + 1)).prog.Ended
    · -- the tick that ends the program is a turn, and its probe has not failed
      rcases r.next m with hstep | ⟨hended, -⟩
      · cases htick : r.tick m with
        | env a =>
          rw [htick] at hstep
          rw [prog_of_step_env hstep] at hnext
          exact absurd hnext hm
        | prog =>
          refine ⟨m, Nat.le_refl m, htick, fun w hw => ?_⟩
          rw [htick] at hstep
          generalize r.cfg m = c at hstep hw
          obtain ⟨p, s, t⟩ := c
          cases p with
          | ret a => cases hw
          | abort => cases hw
          | call o k => cases hw
          | poll v k =>
            obtain rfl := Head.poll.inj hw
            rw [← Option.some.inj hstep] at hnext
            dsimp only at hnext ⊢
            split at hnext <;> rename_i hready
            · exact hready
            · exact absurd hnext (not_ended_poll v k)
      · exact absurd hended hm
    · rw [← Nat.succ_add_eq_add_succ] at h
      obtain ⟨k, hk, hturn⟩ := ih (m + 1) hnext h
      exact ⟨k, Nat.le_of_succ_le hk, hturn⟩

/-- **Total correctness.**  A program none of whose assertions can fail returns in every fair run,
and its postcondition holds there. -/
theorem Triple.returns_of_fair {G : Head S → Assertion S σ A} {P : Assertion S σ A} {p : Prog S α}
    {Q : α → Assertion S σ A} (h : M.Triple G P p Q) (hG : ∀ s t, ¬ G .abort s t) {s : σ}
    {t : Trace S A} (hs : P s t) {r : M.Run ⟨p, s, t⟩} (hfair : r.Fair) :
    ∃ n a, (r.cfg n).prog = .ret a ∧ Q a (r.cfg n).state (r.cfg n).trace := by
  obtain ⟨n, hdone | habort⟩ := hfair.ends
  · obtain ⟨a, ha⟩ := Prog.exists_ret_of_head hdone
    refine ⟨n, a, ha, h.returns hs ?_⟩
    rw [← ha]
    exact r.reach n
  · have hhead : (r.cfg n).prog.head ≠ .done := by
      rw [habort]
      rintro ⟨⟩
    have hguarantee := h.guarantee hs (r.reach n) hhead
    rw [habort] at hguarantee
    exact absurd hguarantee (hG _ _)

/-- The result is the one that the postcondition allows. -/
theorem Triple.returns_value_of_fair {G : Head S → Assertion S σ A} {P : Assertion S σ A}
    {p : Prog S α} {Q : α → Assertion S σ A} (h : M.Triple G P p Q) {v : α}
    (hv : ∀ a s t, Q a s t → a = v) (hG : ∀ s t, ¬ G .abort s t) {s : σ} {t : Trace S A}
    (hs : P s t) {r : M.Run ⟨p, s, t⟩} (hfair : r.Fair) : ∃ n, (r.cfg n).prog = .ret v := by
  obtain ⟨n, a, ha, hQ⟩ := h.returns_of_fair hG hs hfair
  obtain rfl := hv a _ _ hQ
  exact ⟨n, ha⟩

end Machine

end Interaction
