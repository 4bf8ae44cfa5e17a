import QspiTool.Log.History

/-!
# What becomes of every message

The journal of a run is the parts of its calls, one after the other, and only `slog_display` has a
part that is not empty.  A message whose level is on becomes one line: the callback gets it first,
the screen shows it unless the callback keeps it back, and the file gets it unless the callback
forbids that, all three the same text.  `LogCall.Delivers` says so of one call under the
configuration that is in force, which is a function of the calls before it (`inForce`).

The path of the file belongs to that configuration too: changing the directory or the name closes
the file and forgets the path, and `slog_init` does as well.  Only `slog_destroy` leaves a path
behind it, under a configuration that has no name (`Slog.Named`).
-/

namespace QspiTool

open Interaction Machine Oracle CText

variable {cfg : SlogConfig} {ctx : SlogContext} {f f' : SlogFile} {g g' : Slog}
  {es : List Entry} {leaked : List Nat} {calls : List LogCall}

/-! ## The configuration in force -/

/-- The configuration after a call. -/
def LogCall.configAfter (cfg : SlogConfig) (call : LogCall) : SlogConfig :=
  (call.configure ⟨cfg, ⟨CStr.empty _, 0, 0⟩, false⟩).config

lemma LogCall.Effect.config {call : LogCall} (h : call.Effect g g' es leaked) :
    g'.config = call.configAfter g.config := by
  cases h with
  | configured _ _ => cases call <;> rfl
  | logged _ _ _ => rfl

/-! ## The path belongs to the configuration -/

/-- The path is one of the configuration, with some date. -/
def PathOf (cfg : SlogConfig) (path : Text) : Prop :=
  cfg.sFileName.text ≠ [] → ∃ date, path = slogFileName cfg date

/-- The path, if there is one, is one of the configuration; there is one while a file is open. -/
structure Slog.Named (g : Slog) : Prop where
  path : g.logFile.sFilePath.text = [] ∨ PathOf g.config g.logFile.sFilePath.text
  opened : g.logFile.pHandle ≠ 0 → g.logFile.sFilePath.text ≠ []

/-- What the callback gets of a line, and its verdict: the line, unless there is no callback, or
nothing in the line, or no memory for it. -/
def Heard (cfg : SlogConfig) (eFlag : BitVec 32) (line : Text) (verdict : Int)
    (told : List Entry) : Prop :=
  (cfg.logCallback = 0 ∨ line = []) ∧ told = [] ∧ verdict = 1 ∨
    cfg.logCallback ≠ 0 ∧ told = [.noMemory line] ∧ verdict = 1 ∨
      cfg.logCallback ≠ 0 ∧ line ≠ [] ∧
        told = [.told cfg.logCallback cfg.pCallbackCtx line eFlag verdict]

lemma Told.heard {eFlag : BitVec 32} {line : Text} {verdict : Int}
    (h : Told cfg eFlag line verdict es leaked) : Heard cfg eFlag line verdict es := by
  cases h with
  | none hnone => exact .inl ⟨.inl hnone, rfl, rfl⟩
  | noMemory hcallback => exact .inr (.inl ⟨hcallback, rfl, rfl⟩)
  | empty _ hline _ => exact .inl ⟨.inr hline, rfl, rfl⟩
  | answered hcallback hline _ => exact .inr (.inr ⟨hcallback, hline, rfl⟩)

end QspiTool
