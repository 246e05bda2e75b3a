import TapeLang.Stream.Script
import TapeLang.Stream.Sink

/-!
# The console

The terminal of the command line: an input and an output device with a buffer
before it. Written bytes go to the buffer, which is emptied onto the device
when it is full, when it is flushed, and when the console is closed. A device
that takes nothing is noticed only when there are bytes for it.

The input answers calls as a script does: with bytes, with its end, or with
failures, in any order.
-/

namespace TapeLang

/-- Where input comes from. -/
structure ConsoleInput where
  /-- The answers to calls for input; after them the input is at its end. -/
  answers : List ReadAnswer
  deriving DecidableEq, Repr

namespace ConsoleInput

/-- The input that has these bytes left. -/
def bytes (left : List UInt8) : ConsoleInput := ⟨left.map .byte⟩

/-- The input that fails at the first call. -/
def unreadable (error : StreamError) : ConsoleInput := ⟨[.fault error]⟩

end ConsoleInput

/-- An input, a buffer and an output device. -/
structure Console where
  /-- The input. -/
  input : ConsoleInput
  /-- How the device refuses bytes, if it does. -/
  refusal : Option StreamError := none
  /-- The bytes that wait for the device. -/
  buffer : Array UInt8 := #[]
  /-- The bytes on the device. -/
  delivered : Array UInt8 := #[]
  deriving DecidableEq, Repr

namespace Console

/-- The number of bytes that can wait. -/
def capacity : Nat := 8192

/-- Empties the buffer onto the device. -/
def flush (console : Console) : Except StreamError Unit × Console :=
  match console with
  | ⟨input, refusal, buffer, delivered⟩ =>
    if buffer.isEmpty then (.ok (), ⟨input, refusal, buffer, delivered⟩)
    else
      match refusal with
      | none => (.ok (), ⟨input, none, #[], delivered ++ buffer⟩)
      | some error => (.error error, ⟨input, some error, buffer, delivered⟩)

/-- Puts a byte into the buffer. -/
def hold (byte : UInt8) (console : Console) : Console :=
  { console with buffer := console.buffer.push byte }

/-- Writes one byte; a full buffer is emptied before. -/
def write (byte : UInt8) (console : Console) : Except StreamError Unit × Console :=
  if console.buffer.size < capacity then (.ok (), console.hold byte)
  else
    match console.flush with
    | (.ok (), console) => (.ok (), console.hold byte)
    | (.error error, console) => (.error error, console)

/-- Writes bytes up to the first that cannot be written. -/
def writeBytes : List UInt8 → Console → Except StreamError Unit × Console
  | [], console => (.ok (), console)
  | byte :: rest, console =>
    match console.write byte with
    | (.ok (), console) => writeBytes rest console
    | (.error error, console) => (.error error, console)

/-- Reads one byte; calls that are interrupted are made again. -/
def read (console : Console) : Except StreamError (Option UInt8) × Console :=
  match console with
  | ⟨input, refusal, buffer, delivered⟩ =>
    match Script.readCalls input.answers #[] with
    | (outcome, answers, _) => (outcome, ⟨⟨answers⟩, refusal, buffer, delivered⟩)

/-- Closes the console: the bytes on the device after what waits has been tried. -/
def close (console : Console) : Array UInt8 := console.flush.2.delivered

instance : Terminal Console where
  write := write
  flush := flush
  read := read

instance : Sink Console where
  write piece console := console.writeBytes piece.toUTF8.data.toList

end Console

end TapeLang
