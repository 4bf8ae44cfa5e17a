import Mathlib.Logic.Function.Basic
import QspiTool.Log.Effects
import QspiTool.Log.Slog

/-!
# The command line, and the levels that are on

`parse_flags` of `main.c` makes the flags of the logger from the command line.  The arguments are
texts; the first of them is the name of the program.

What the flags are for is a set of levels.  The abstract logger keeps the set itself;
`slog_enable` puts a level in, `slog_disable` takes it out, and a message is heard when its level is
in it (`heard`).  `FlagsOf` says that the 16 bits of `nFlags` stand for the set, and the flags that
the calls and the command line make stand for the sets they should (`flagsOf_enabled`,
`flagsOf_disabled`, `flagsOf_cleared`).
-/

namespace QspiTool

open CText

/-! ## The command line -/

section

open Interaction Stdio

def argNoLog : Text := "-nl".toList
def argNoDebug : Text := "--no-debug".toList
def argNoInfo : Text := "--no-info".toList

/-- `--help` and `-h`. -/
abbrev IsHelp (arg : Text) : Prop := arg = "--help".toList ∨ arg = "-h".toList

def usageLines (program : Text) : List Text :=
  ["Usage: ".toList ++ program ++ " [options]\n".toList,
    "Options:\n".toList,
    "  --no-debug       Disable debug logging\n".toList,
    "  --no-info        Disable info logging\n".toList,
    "  -nl              Disable all logging\n".toList,
    "  -h, --help      Show this help message\n".toList]

/-- The usage, a `printf` for each line, and `exit(EXIT_SUCCESS)`. -/
def usage (program : Text) : Stdio (BitVec 16) := do
  (usageLines program).forM printf
  .abort

/-- `flags &= ~level` for a `uint16_t`. -/
def clearLevel (flags : BitVec 16) (level : BitVec 32) : BitVec 16 :=
  (flags.setWidth 32 &&& ~~~level).setWidth 16

/-- The loop of `parse_flags` over the rest of the arguments. -/
def parseArgs (program : Text) (flags : BitVec 16) : List Text → Stdio (BitVec 16)
  | [] => pure flags
  | arg :: args =>
      if arg = argNoLog then pure 0
      else if arg = argNoDebug then parseArgs program (clearLevel flags slogDebug) args
      else if arg = argNoInfo then parseArgs program (clearLevel flags slogInfo) args
      else if IsHelp arg then usage program
      else parseArgs program flags args

/-- `parse_flags`. -/
def parseFlags (argv : List Text) : Stdio (BitVec 16) :=
  let flags : BitVec 16 := slogFlagsAll.setWidth 16
  if argv.length = 1 then pure flags
  else parseArgs (argv.headD []) flags argv.tail

/-- The logging of `main`: the flags of the command line, `slog_init`, and what is logged then. -/
def toolLog (argv : List Text) (calls : List LogCall) : Stdio Slog := do
  let nFlags ← parseFlags argv
  logSession .zero (.init (some "qspi_tool".toList) nFlags false :: calls)

end

/-! ## Sets of levels -/

inductive Level
  | notag
  | note
  | info
  | warn
  | debug
  | trace
  | error
  | fatal
  deriving DecidableEq

/-- The number of the bit. -/
def Level.number : Level → Nat
  | notag => 0
  | note => 1
  | info => 2
  | warn => 3
  | debug => 4
  | trace => 5
  | error => 6
  | fatal => 7

/-- The flag of the level: `SLOG_NOTAG` to `SLOG_FATAL`. -/
def Level.flag (l : Level) : BitVec 32 := 1#32 <<< l.number

lemma Level.number_lt (l : Level) : l.number < 8 := by cases l <;> decide

lemma Level.number_inj {l l' : Level} : l.number = l'.number ↔ l = l' := by
  cases l <;> cases l' <;> decide

lemma Level.flag_ne_all (l : Level) : l.flag ≠ slogFlagsAll := by cases l <;> decide

/-- A call of one of the macros of `slog.h`, of `slog_enable` or of `slog_disable`. -/
inductive LevelCall
  | say (level : Level) (nNewLine : Bool) (pFormat : Text)
  | on (level : Level)
  | off (level : Level)
  | allOn
  | allOff
  deriving DecidableEq

def LevelCall.call : LevelCall → LogCall
  | say level nNewLine pFormat => .display level.flag nNewLine pFormat
  | on level => .enable level.flag
  | off level => .disable level.flag
  | allOn => .enable slogFlagsAll
  | allOff => .disable slogFlagsAll

/-- The levels that are on after a call. -/
def LevelCall.turn (s : Level → Bool) : LevelCall → Level → Bool
  | say _ _ _ => s
  | on level => Function.update s level true
  | off level => Function.update s level false
  | allOn => fun _ => true
  | allOff => fun _ => false

/-- The messages whose level is on when they are logged. -/
def heard (s : Level → Bool) : List LevelCall → List (Level × Bool × Text)
  | [] => []
  | .say level nNewLine pFormat :: calls =>
      if s level then (level, nNewLine, pFormat) :: heard s calls else heard s calls
  | call :: calls => heard (call.turn s) calls

/-! ## Flags -/

/-- The flags stand for the set. -/
def FlagsOf (flags : BitVec 16) (s : Level → Bool) : Prop :=
  ∀ l : Level, flags.getLsbD l.number = s l

variable {flags : BitVec 16} {s : Level → Bool}

/-- `SLOG_FLAGS_CHECK` looks at the one bit of a level. -/
lemma slogFlagsCheck_iff (flags : BitVec 16) (l : Level) :
    SlogFlagsCheck flags l.flag ↔ flags.getLsbD l.number = true := by
  have hlt := l.number_lt
  have hflag : l.flag = BitVec.twoPow 32 l.number := rfl
  rw [SlogFlagsCheck, hflag, BitVec.and_twoPow]
  constructor
  · intro h
    by_contra hbit
    have hzero : (flags.setWidth 32).getLsbD l.number = false := by
      rw [BitVec.getLsbD_setWidth, Bool.eq_false_iff.mpr hbit, Bool.and_false]
    rw [hzero, if_neg (by decide)] at h
    have htrue : (BitVec.twoPow 32 l.number).getLsbD l.number = true := by simp; omega
    rw [← h] at htrue
    simp at htrue
  · intro h
    rw [if_pos (by simp [h]; omega)]

lemma flagsOf_all : FlagsOf (slogFlagsAll.setWidth 16) fun _ => true := by
  intro l
  cases l <;> decide

lemma flagsOf_none : FlagsOf 0 fun _ => false := by
  intro l
  simp

lemma flagsOf_cleared (h : FlagsOf flags s) (level : Level) :
    FlagsOf (clearLevel flags level.flag) (Function.update s level false) := by
  intro l
  have hlt := l.number_lt
  have hflag : level.flag = BitVec.twoPow 32 level.number := rfl
  have hbit : (clearLevel flags level.flag).getLsbD l.number =
      (flags.getLsbD l.number && !decide (level.number = l.number)) := by
    simp only [clearLevel, hflag, BitVec.getLsbD_setWidth, BitVec.getLsbD_and,
      BitVec.getLsbD_not, BitVec.getLsbD_twoPow]
    grind
  rw [hbit, h l, Function.update_apply]
  by_cases heq : l = level
  · simp [heq]
  · have hne : level.number ≠ l.number := fun hn => heq (Level.number_inj.mp hn).symm
    simp [heq, hne]

lemma flagsOf_disabled (h : FlagsOf flags s) (level : Level) :
    FlagsOf (disabledFlags flags level.flag) (Function.update s level false) := by
  rw [disabledFlags, if_neg level.flag_ne_all]
  split_ifs with hcheck
  · exact flagsOf_cleared h level
  · have hoff : s level = false := by
      rw [slogFlagsCheck_iff, h level] at hcheck
      simpa using hcheck
    rwa [← hoff, Function.update_eq_self]

lemma flagsOf_enabled (h : FlagsOf flags s) (level : Level) :
    FlagsOf (enabledFlags flags level.flag) (Function.update s level true) := by
  rw [enabledFlags, if_neg level.flag_ne_all]
  by_cases hcheck : SlogFlagsCheck flags level.flag
  · have hon : s level = true := by
      rwa [slogFlagsCheck_iff, h level] at hcheck
    rwa [if_neg (not_not_intro hcheck), ← hon, Function.update_eq_self]
  · rw [if_pos hcheck]
    intro l
    have hlt := l.number_lt
    have hflag : level.flag = BitVec.twoPow 32 level.number := rfl
    have hbit : ((flags.setWidth 32 ||| level.flag).setWidth 16).getLsbD l.number =
        (flags.getLsbD l.number || decide (level.number = l.number)) := by
      simp only [hflag, BitVec.getLsbD_setWidth, BitVec.getLsbD_or, BitVec.getLsbD_twoPow]
      grind
    rw [hbit, h l, Function.update_apply]
    by_cases heq : l = level
    · simp [heq]
    · have hne : level.number ≠ l.number := fun hn => heq (Level.number_inj.mp hn).symm
      simp [heq, hne]

/-- The flags after a call stand for the set after it. -/
lemma flagsOf_turn {cfg : SlogConfig} (h : FlagsOf cfg.nFlags s) (call : LevelCall) (g : Slog)
    (hg : g.config = cfg) : ∃ flags, (call.call.configure g).config = { cfg with nFlags := flags } ∧
      FlagsOf flags (call.turn s) := by
  subst hg
  cases call with
  | say _ _ _ => exact ⟨_, rfl, h⟩
  | on level => exact ⟨_, rfl, flagsOf_enabled h level⟩
  | off level => exact ⟨_, rfl, flagsOf_disabled h level⟩
  | allOn => exact ⟨_, rfl, flagsOf_all⟩
  | allOff => exact ⟨_, rfl, flagsOf_none⟩

end QspiTool
