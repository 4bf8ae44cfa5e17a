import QspiTool.Interaction.Oracle
import QspiTool.Text.Format

/-!
# What the logger asks of the C library

The calls `slog.c` makes into the C library, and the desk they leave: which streams and which heap
blocks are in use, what has become of the mutex, and the journal of what has passed between the
logger and the outside.

The answers are an oracle's.  The clock shows what it likes, a `pthread` call may fail, `fopen` and
`asprintf` may fail or give any stream or block that is not in use, and the log callback answers
any verdict.  A callback does not call the logger back.  A stream is a natural number, and so is a
block; `0` is `NULL`.
-/

namespace QspiTool

open Interaction CText

/-! ## The calls -/

/-- What `localtime_r` makes of the seconds of `gettimeofday`, and its microseconds. -/
structure LocalTime where
  tmYear : Int
  tmMon : Nat
  tmMday : Nat
  tmHour : Nat
  tmMin : Nat
  tmSec : Nat
  tvUsec : Nat
  deriving DecidableEq

/-- The calls on the mutex and on its attributes. -/
inductive Pthread
  | mutexattrInit
  | mutexattrSettype
  | mutexInit
  | mutexattrDestroy
  | mutexDestroy
  | mutexLock
  | mutexUnlock
  deriving DecidableEq

/-- One call. -/
inductive Libc
  /-- Not zero on failure. -/
  | pthread (call : Pthread)
  | errno
  /-- `strerror(errno)`. -/
  | strerror
  /-- `gettimeofday` and `localtime_r`. -/
  | localtime
  /-- `syscall(__NR_gettid)`. -/
  | gettid
  /-- A heap block with this text. -/
  | asprintf (text : Text)
  | free (block : Nat)
  /-- The log callback, with its context. -/
  | callback (function context : Nat) (log : Text) (eFlag : BitVec 32)
  | printf (text : Text)
  /-- `fflush(stdout)`. -/
  | flushStdout
  /-- `fopen(path, "a")`. -/
  | fopen (path : Text)
  | fclose (stream : Nat)
  | fprintf (stream : Nat) (text : Text)
  | fflush (stream : Nat)
  /-- Characters stored to a buffer of the caller. -/
  | write (a : Nat) (bytes : Text)
  deriving DecidableEq

/-- What a call answers. -/
abbrev Libc.Res : Libc → Type
  | pthread _ => Int
  | errno => Int
  | strerror => Text
  | localtime => LocalTime
  | gettid => BitVec 64
  | asprintf _ => Nat
  | free _ => Unit
  | callback _ _ _ _ => Int
  | printf _ => Unit
  | flushStdout => Unit
  | fopen _ => Nat
  | fclose _ => Unit
  | fprintf _ _ => Unit
  | fflush _ => Unit
  | write _ _ => Unit

/-- The logger waits for nothing but the mutex. -/
abbrev stdio : Signature where
  Op := Libc
  Res := Libc.Res
  Wait := Empty
  probe w := w.elim
  ready w := w.elim

abbrev Stdio (α : Type) := Prog stdio α

/-! ## The desk -/

/-- What has become of the mutex. -/
inductive Mutex
  | none
  | free
  | held
  deriving DecidableEq

/-- What has passed between the logger and the outside. -/
inductive Entry
  /-- The clock has been read. -/
  | clock (time : LocalTime)
  /-- `strerror` has answered. -/
  | error (text : Text)
  /-- There was no memory for a text: `asprintf` has failed. -/
  | noMemory (text : Text)
  /-- The callback has been given a log and has answered. -/
  | told (function context : Nat) (log : Text) (eFlag : BitVec 32) (verdict : Int)
  | screen (text : Text)
  /-- A file could not be opened. -/
  | refused (path : Text)
  /-- A text appended to a file. -/
  | line (path text : Text)
  deriving DecidableEq

structure Desk where
  /-- The open streams, each with the path of its file. -/
  streams : List (Nat × Text)
  blocks : List Nat
  mutex : Mutex
  /-- The last call on the mutex has failed. -/
  failed : Bool
  journal : List Entry
  deriving DecidableEq

/-- The desk of a process that has just started. -/
def Desk.clear : Desk := ⟨[], [], .none, false, []⟩

namespace Desk

/-- One more entry. -/
def enter (d : Desk) (e : Entry) : Desk := { d with journal := d.journal ++ [e] }

/-- The mutex after a call on it that has not failed. -/
def afterPthread : Pthread → Mutex → Mutex
  | .mutexInit, _ => .free
  | .mutexDestroy, _ => .none
  | .mutexLock, _ => .held
  | .mutexUnlock, _ => .free
  | .mutexattrInit, m | .mutexattrSettype, m | .mutexattrDestroy, m => m

/-- What a call does, with its answer.  A mutex that is destroyed is given up, whatever
`pthread_mutex_destroy` answers. -/
def next (d : Desk) : (o : Libc) → Libc.Res o → Desk
  | .pthread call, (code : Int) =>
      if code = 0 ∨ call = .mutexDestroy then
        { d with mutex := afterPthread call d.mutex, failed := false }
      else { d with failed := true }
  | .localtime, (time : LocalTime) => d.enter (.clock time)
  | .strerror, (error : Text) => d.enter (.error error)
  | .asprintf text, (block : Nat) =>
      if block = 0 then d.enter (.noMemory text) else { d with blocks := block :: d.blocks }
  | .free block, _ => { d with blocks := d.blocks.erase block }
  | .callback function context log eFlag, (verdict : Int) =>
      d.enter (.told function context log eFlag verdict)
  | .printf text, _ => d.enter (.screen text)
  | .fopen path, (stream : Nat) =>
      if stream = 0 then d.enter (.refused path)
      else { d with streams := (stream, path) :: d.streams }
  | .fclose stream, _ => { d with streams := d.streams.eraseP (·.1 = stream) }
  | .fprintf stream text, _ =>
      match d.streams.lookup stream with
      | some path => d.enter (.line path text)
      | none => d
  | .errno, _ | .gettid, _ | .flushStdout, _ | .fflush _, _ | .write _ _, _ => d

end Desk

/-! ## The answers -/

/-- What the C library has in mind. -/
structure Answers where
  time : LocalTime
  tid : BitVec 64
  codes : Pthread → Int
  errno : Int
  strerror : Text
  verdict : Int
  /-- What `fopen` or `asprintf` gives, unless it is in use. -/
  pointer : Nat

/-- What the C library answers. -/
def Answers.reply (a : Answers) (d : Desk) : (o : Libc) → Libc.Res o
  | .pthread call => a.codes call
  | .errno => a.errno
  | .strerror => a.strerror
  | .localtime => a.time
  | .gettid => a.tid
  | .asprintf _ => if a.pointer ∈ d.blocks then (0 : Nat) else a.pointer
  | .callback _ _ _ _ => a.verdict
  | .fopen _ => if a.pointer ∈ d.streams.map Prod.fst then (0 : Nat) else a.pointer
  | .free _ | .printf _ | .flushStdout | .fclose _ | .fprintf _ _ | .fflush _ | .write _ _ => ()

/-- The C library. -/
def libc : Oracle stdio Answers Desk where
  reply := Answers.reply
  next := Desk.next

/-- A library of which every call succeeds, on a day with this date. -/
def Answers.on (year : Int) (mon mday : Nat) (pointer : Nat) : Answers where
  time := ⟨year - 1900, mon - 1, mday, 0, 0, 0, 0⟩
  tid := 1#64
  codes _ := 0
  errno := 0
  strerror := []
  verdict := 1
  pointer := pointer

end QspiTool
