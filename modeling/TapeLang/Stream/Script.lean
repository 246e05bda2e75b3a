import TapeLang.Stream.Terminal

/-!
# Scripted terminals

A script lays down how a terminal will answer: which bytes, ends of input and
failures the calls for input meet, and at which calls a write or a flush
fails. It also records every call with its answer, so a run against a script
leaves a full account of what passed between the program and its terminal.

One request of a program may take several calls. A call that was interrupted
is made again, except for a flush. A write that takes nothing is a failure.
An input that ends in the middle has ended.
-/

namespace TapeLang

/-! ## Answers and calls -/

/-- The answer to a call for input. -/
inductive ReadAnswer where
  /-- The next byte. -/
  | byte (value : UInt8)
  /-- No byte, since the input is at its end. -/
  | endOfInput
  /-- No byte, since the call failed. -/
  | fault (error : StreamError)
  deriving DecidableEq, Repr

/-- What a write call meets in place of success. -/
inductive WriteFault where
  /-- The call takes nothing. -/
  | nothing
  /-- The call fails. -/
  | failure (error : StreamError)
  deriving DecidableEq, Repr

/-- A call to a terminal, with its answer. -/
inductive Call where
  /-- A call for input. -/
  | read (answer : ReadAnswer)
  /-- A write call that took its byte. -/
  | accepted (byte : UInt8)
  /-- A write call that did not take its byte. -/
  | refused (fault : WriteFault)
  /-- A flush that succeeded. -/
  | flushed
  /-- A flush that failed. -/
  | flushFailed (error : StreamError)
  deriving DecidableEq, Repr

/-- The byte that a call delivered to the output, if it did. -/
def Call.output? : Call → Option UInt8
  | .accepted byte => some byte
  | _ => none

/-- The byte that a call took from the input, if it did. -/
def Call.input? : Call → Option UInt8
  | .read (.byte byte) => some byte
  | _ => none

/-! ## Schedules of faults -/

/--
Faults in the order in which they come up, each with the number of calls that
succeed before it, counted from the fault before. After the last one all
calls succeed.
-/
abbrev Schedule (ε : Type) := List (Nat × ε)

namespace Schedule

/-- The fault that the next call meets, if any, and the schedule after that call. -/
def next {ε : Type} : Schedule ε → Option ε × Schedule ε
  | [] => (none, [])
  | (0, fault) :: rest => (some fault, rest)
  | (count + 1, fault) :: rest => (none, (count, fault) :: rest)

/-- The schedule of faults at numbered calls, given in increasing order and counted from `start`. -/
def ofNumbered {ε : Type} (start : Nat) : List (Nat × ε) → Schedule ε
  | [] => []
  | (number, fault) :: rest => (number - start, fault) :: ofNumbered (number + 1) rest

end Schedule

/-! ## Scripts -/

/-- How a terminal will answer, and the calls made so far. -/
structure Script where
  /-- The answers to calls for input; after them the input is at its end. -/
  reads : List ReadAnswer := []
  /-- The write calls that do not succeed. -/
  writes : Schedule WriteFault := []
  /-- The flushes that do not succeed. -/
  flushes : Schedule StreamError := []
  /-- The calls made so far. -/
  log : Array Call := #[]
  deriving DecidableEq, Repr

namespace Script

/-- The bytes delivered to the output so far. -/
def output (script : Script) : List UInt8 := script.log.toList.filterMap Call.output?

/-- The bytes taken from the input so far. -/
def consumed (script : Script) : List UInt8 := script.log.toList.filterMap Call.input?

/-- Calls for input until one settles the request: the outcome, the answers left and the log. -/
def readCalls : List ReadAnswer → Array Call →
    Except StreamError (Option UInt8) × List ReadAnswer × Array Call
  | [], log => (.ok none, [], log.push (.read .endOfInput))
  | .byte value :: rest, log => (.ok (some value), rest, log.push (.read (.byte value)))
  | .endOfInput :: rest, log => (.ok none, rest, log.push (.read .endOfInput))
  | .fault error :: rest, log =>
    if error.kind = .interrupted then readCalls rest (log.push (.read (.fault error)))
    else if error.kind = .unexpectedEof then (.ok none, rest, log.push (.read (.fault error)))
    else (.error error, rest, log.push (.read (.fault error)))

/-- Write calls until one settles the request: the outcome, the faults left and the log. -/
def writeCalls (byte : UInt8) : Schedule WriteFault → Array Call →
    Except StreamError Unit × Schedule WriteFault × Array Call
  | [], log => (.ok (), [], log.push (.accepted byte))
  | (count + 1, fault) :: rest, log => (.ok (), (count, fault) :: rest, log.push (.accepted byte))
  | (0, .nothing) :: rest, log => (.error .wroteNothing, rest, log.push (.refused .nothing))
  | (0, .failure error) :: rest, log =>
    if error.kind = .interrupted then
      writeCalls byte rest (log.push (.refused (.failure error)))
    else
      (.error error, rest, log.push (.refused (.failure error)))

/-- Reads one byte. -/
def read (script : Script) : Except StreamError (Option UInt8) × Script :=
  match script with
  | ⟨reads, writes, flushes, log⟩ =>
    match readCalls reads log with
    | (outcome, reads, log) => (outcome, ⟨reads, writes, flushes, log⟩)

/-- Writes one byte. -/
def write (byte : UInt8) (script : Script) : Except StreamError Unit × Script :=
  match script with
  | ⟨reads, writes, flushes, log⟩ =>
    match writeCalls byte writes log with
    | (outcome, writes, log) => (outcome, ⟨reads, writes, flushes, log⟩)

/-- Flushes the output by a single call. -/
def flush (script : Script) : Except StreamError Unit × Script :=
  match script with
  | ⟨reads, writes, flushes, log⟩ =>
    match flushes.next with
    | (none, flushes) => (.ok (), ⟨reads, writes, flushes, log.push .flushed⟩)
    | (some error, flushes) =>
      (.error error, ⟨reads, writes, flushes, log.push (.flushFailed error)⟩)

instance : Terminal Script where
  write := write
  flush := flush
  read := read

end Script

end TapeLang
