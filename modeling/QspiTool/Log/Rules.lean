import QspiTool.Log.Slog

/-!
# Rules for the calls of the C library

One rule for each call: what has to hold before it, and what holds after it for every answer the
library could give.  With them a function of the logger is run symbolically, one call after the
other.
-/

namespace QspiTool

open Interaction Oracle CText Stdio

variable {G : Head stdio → Desk → Prop} {d : Desk} {α : Type}

/-! ## Answers -/

/-- A call that any answer can follow. -/
lemma ensures_free_answer {o : Libc} (h : ∀ r, libc.May d o r) {Q : Libc.Res o → Desk → Prop} :
    libc.Ensures G (Prog.op (S := stdio) o) Q d ↔ G (.call o) d ∧ ∀ r, Q r (d.next o r) :=
  and_congr_right fun _ => forall_congr' fun r => imp_iff_right (h r)

lemma may_pthread (call : Pthread) (r : Int) : libc.May d (.pthread call) r :=
  ⟨{ Answers.on 0 1 1 0 with codes := fun _ => r }, rfl⟩

lemma may_errno (r : Int) : libc.May d .errno r := ⟨{ Answers.on 0 1 1 0 with errno := r }, rfl⟩

lemma may_strerror (r : Text) : libc.May d .strerror r :=
  ⟨{ Answers.on 0 1 1 0 with strerror := r }, rfl⟩

lemma may_localtime (r : LocalTime) : libc.May d .localtime r :=
  ⟨{ Answers.on 0 1 1 0 with time := r }, rfl⟩

lemma may_gettid (r : BitVec 64) : libc.May d .gettid r :=
  ⟨{ Answers.on 0 1 1 0 with tid := r }, rfl⟩

lemma may_callback (function context : Nat) (log : Text) (eFlag : BitVec 32) (r : Int) :
    libc.May d (.callback function context log eFlag) r :=
  ⟨{ Answers.on 0 1 1 0 with verdict := r }, rfl⟩

/-- `asprintf` fails or gives a block that is not in use. -/
lemma may_asprintf {text : Text} {r : Nat} :
    libc.May d (.asprintf text) r ↔ r = 0 ∨ r ∉ d.blocks := by
  constructor
  · rintro ⟨a, rfl⟩
    simp only [libc, Answers.reply]
    split <;> simp [*]
  · intro h
    refine ⟨Answers.on 0 1 1 r, ?_⟩
    simp only [libc, Answers.reply, Answers.on]
    split
    · exact (h.resolve_right (not_not_intro ‹_›)).symm
    · rfl

/-- `fopen` fails or gives a stream that is not in use. -/
lemma may_fopen {path : Text} {r : Nat} :
    libc.May d (.fopen path) r ↔ r = 0 ∨ r ∉ d.streams.map Prod.fst := by
  constructor
  · rintro ⟨a, rfl⟩
    simp only [libc, Answers.reply]
    split <;> simp [*]
  · intro h
    refine ⟨Answers.on 0 1 1 r, ?_⟩
    simp only [libc, Answers.reply, Answers.on]
    split
    · exact (h.resolve_right (not_not_intro ‹_›)).symm
    · rfl

/-! ## The calls -/

lemma Desk.enter_enter (e e' : Entry) :
    (d.enter e).enter e' = { d with journal := d.journal ++ [e, e'] } := by
  simp [Desk.enter]

@[simp] lemma ensures_pthread {call : Pthread} {Q : Int → Desk → Prop} :
    libc.Ensures G (pthread call) Q d ↔
      G (.call (.pthread call)) d ∧ ∀ r, Q r (d.next (.pthread call) r) :=
  ensures_free_answer (may_pthread call)

@[simp] lemma ensures_errno {Q : Int → Desk → Prop} :
    libc.Ensures G errno Q d ↔ G (.call .errno) d ∧ ∀ r, Q r d :=
  ensures_free_answer may_errno

@[simp] lemma ensures_strerror {Q : Text → Desk → Prop} :
    libc.Ensures G strerror Q d ↔ G (.call .strerror) d ∧ ∀ r, Q r (d.enter (.error r)) :=
  ensures_free_answer may_strerror

@[simp] lemma ensures_localtime {Q : LocalTime → Desk → Prop} :
    libc.Ensures G localtime Q d ↔ G (.call .localtime) d ∧ ∀ r, Q r (d.enter (.clock r)) :=
  ensures_free_answer may_localtime

@[simp] lemma ensures_gettid {Q : BitVec 64 → Desk → Prop} :
    libc.Ensures G gettid Q d ↔ G (.call .gettid) d ∧ ∀ r, Q r d :=
  ensures_free_answer may_gettid

@[simp] lemma ensures_callback {function context : Nat} {log : Text} {eFlag : BitVec 32}
    {Q : Int → Desk → Prop} :
    libc.Ensures G (callback function context log eFlag) Q d ↔
      G (.call (.callback function context log eFlag)) d ∧
        ∀ r, Q r (d.enter (.told function context log eFlag r)) :=
  ensures_free_answer (may_callback function context log eFlag)

@[simp] lemma ensures_asprintf {text : Text} {Q : Nat → Desk → Prop} :
    libc.Ensures G (asprintf text) Q d ↔
      G (.call (.asprintf text)) d ∧
        ∀ r, (r = 0 ∨ r ∉ d.blocks) → Q r (d.next (.asprintf text) r) :=
  and_congr_right fun _ => forall_congr' fun _ => imp_congr_left may_asprintf

@[simp] lemma ensures_fopen {path : Text} {Q : Nat → Desk → Prop} :
    libc.Ensures G (fopen path) Q d ↔
      G (.call (.fopen path)) d ∧
        ∀ r, (r = 0 ∨ r ∉ d.streams.map Prod.fst) → Q r (d.next (.fopen path) r) :=
  and_congr_right fun _ => forall_congr' fun _ => imp_congr_left may_fopen

/-- A call that answers nothing, at its one answer. -/
lemma forall_void {c : Prop} {Q : Unit → Prop} : (c ∧ ∀ r, Q r) ↔ c ∧ Q () :=
  and_congr_right fun _ => Unique.forall_iff

@[simp] lemma ensures_free {block : Nat} {Q : Unit → Desk → Prop} :
    libc.Ensures G (free block) Q d ↔
      G (.call (.free block)) d ∧ Q () (d.next (.free block) ()) :=
  (ensures_free_answer fun _ => ⟨Answers.on 0 1 1 0, rfl⟩).trans forall_void

@[simp] lemma ensures_printf {text : Text} {Q : Unit → Desk → Prop} :
    libc.Ensures G (printf text) Q d ↔
      G (.call (.printf text)) d ∧ Q () (d.enter (.screen text)) :=
  (ensures_free_answer fun _ => ⟨Answers.on 0 1 1 0, rfl⟩).trans forall_void

@[simp] lemma ensures_flushStdout {Q : Unit → Desk → Prop} :
    libc.Ensures G flushStdout Q d ↔
      G (.call .flushStdout) d ∧ Q () d :=
  (ensures_free_answer fun _ => ⟨Answers.on 0 1 1 0, rfl⟩).trans forall_void

@[simp] lemma ensures_fclose {stream : Nat} {Q : Unit → Desk → Prop} :
    libc.Ensures G (fclose stream) Q d ↔
      G (.call (.fclose stream)) d ∧ Q () (d.next (.fclose stream) ()) :=
  (ensures_free_answer fun _ => ⟨Answers.on 0 1 1 0, rfl⟩).trans forall_void

@[simp] lemma ensures_fprintf {stream : Nat} {text : Text} {Q : Unit → Desk → Prop} :
    libc.Ensures G (fprintf stream text) Q d ↔
      G (.call (.fprintf stream text)) d ∧ Q () (d.next (.fprintf stream text) ()) :=
  (ensures_free_answer fun _ => ⟨Answers.on 0 1 1 0, rfl⟩).trans forall_void

@[simp] lemma ensures_fflush {stream : Nat} {Q : Unit → Desk → Prop} :
    libc.Ensures G (fflush stream) Q d ↔
      G (.call (.fflush stream)) d ∧ Q () d :=
  (ensures_free_answer fun _ => ⟨Answers.on 0 1 1 0, rfl⟩).trans forall_void

@[simp] lemma ensures_write {a : Nat} {bytes : Text} {Q : Unit → Desk → Prop} :
    libc.Ensures G (write a bytes) Q d ↔
      G (.call (.write a bytes)) d ∧ Q () d :=
  (ensures_free_answer fun _ => ⟨Answers.on 0 1 1 0, rfl⟩).trans forall_void

@[simp] lemma ensures_whenever {c : Prop} [Decidable c] {p : Stdio Unit}
    {Q : Unit → Desk → Prop} :
    libc.Ensures G (whenever c p) Q d ↔ (c → libc.Ensures G p Q d) ∧ (¬ c → Q () d) :=
  ensures_ite

@[simp] lemma ensures_exitFailure {Q : Unit → Desk → Prop} :
    libc.Ensures G exitFailure Q d ↔ G .abort d := Iff.rfl

end QspiTool
