import TapeLang.CommandLine.Work

/-!
# The program

The command line on real files and streams. Everything that can be decided
without them is decided elsewhere; here requests are passed to the operating
system and its answers are passed back.

The variable `RUST_LOG` of the environment says how much of the log is
shown on the standard error output.
-/

namespace TapeLang.CommandLine

/-- The failure that a number of the operating system stands for, if its wording is fixed. -/
def knownError? : Nat → Option StreamError
  | 2 => some .noSuchFile
  | 20 => some .notDirectory
  | 21 => some .isDirectory
  | 28 => some .noSpace
  | 36 => some .nameTooLong
  | _ => none

/-- The failure of a number and a description. The number may be given as a negative one. -/
def codedError (kind : StreamError.Kind) (code : UInt32) (details : String) : StreamError :=
  let number := if code < 0x80000000 then code.toNat else (0 - code).toNat
  (knownError? number).getD (.system kind details number)

/-- A failure of the operating system. -/
def systemError : IO.Error → StreamError
  | .noFileOrDirectory _ code details => codedError .notFound code details
  | .noSuchThing _ code details => codedError .notFound code details
  | .permissionDenied _ code details => codedError .permissionDenied code details
  | .inappropriateType _ code details => codedError .isADirectory code details
  | .invalidArgument _ code details => codedError .invalidInput code details
  | .resourceExhausted _ code details => codedError .storageFull code details
  | .resourceVanished code details => codedError .brokenPipe code details
  | .interrupted _ code details => codedError .interrupted code details
  | .hardwareFault code details => codedError .other code details
  | .otherError code details => codedError .other code details
  | error => ⟨.other, error.toString⟩

/-- Asks the operating system and keeps its failure. -/
def attempt {α : Type} (action : IO α) : IO (Except StreamError α) := do
  try
    return .ok (← action)
  catch error =>
    return .error (systemError error)

/-- The standard streams. -/
structure Streams where
  /-- The standard input. -/
  input : IO.FS.Stream
  /-- The standard output. -/
  output : IO.FS.Stream

/-- Shows the entries of a log. -/
def showLog (verbosity : Verbosity) (log : List Entry) : IO Unit :=
  IO.eprint (shown verbosity log)

/-- Runs a machine to the end of its program, counting its steps. -/
partial def drive (streams : Streams) (program : Program) (steps : UInt64) (machine : Machine) :
    IO (Except Failure (List Entry)) := do
  let fail (error : StreamError) : IO (Except Failure (List Entry)) :=
    return .error (.execute (.stream error))
  if machine.pc < program.size then
    match machine.act program with
    | .proceed machine => drive streams program (steps + 1) machine
    | .stuck machine => return .error (.execute (.inconsistent machine.pc))
    | .write byte machine =>
      match ← attempt (streams.output.write ⟨#[byte]⟩) with
      | .error error => fail error
      | .ok () => drive streams program (steps + 1) (machine.next id)
    | .read machine =>
      match ← attempt streams.output.flush with
      | .error error => fail error
      | .ok () =>
        match ← attempt (streams.input.read 1) with
        | .error error => fail error
        | .ok bytes =>
          let cell := Machine.received bytes.data[0]?
          drive streams program (steps + 1) (machine.next (·.set cell))
  else
    match ← attempt streams.output.flush with
    | .error error => fail error
    | .ok () => return .ok [.finished steps machine.tape.pointer]

/-- Does a task on the standard streams. -/
def Task.performOn (streams : Streams) : Task → IO (Except Failure (List Entry))
  | .run program machine => drive streams program 0 machine.reset
  | .print layout => do
    match ← attempt (streams.output.putStr layout.text) with
    | .error error => return .error (.output error)
    | .ok () =>
      match ← attempt streams.output.flush with
      | .error error => return .error (.output error)
      | .ok () => return .ok []

/-- The memory of a process: what it can address is taken to be granted. -/
def processMemory : Memory := ⟨fun bytes => decide (bytes < 0x800000000000)⟩

/-- Reads the file at the path of the arguments, if they have one. -/
def readSource (arguments : Arguments) : IO (Except StreamError (List UInt8)) :=
  match arguments.path with
  | .error _ => return .ok []
  | .ok path => attempt do return (← IO.FS.readBinFile path).data.toList

/-- Does what arguments ask for and gives the exit status. -/
def work (verbosity : Verbosity) (arguments : Arguments) : IO UInt32 := do
  let streams : Streams := ⟨← IO.getStdin, ← IO.getStdout⟩
  let source ← readSource arguments
  let (prepared, log) := arguments.prepare (fun _ => source) processMemory
  showLog verbosity log
  let outcome ← match prepared with
    | .error failure => pure (.error failure)
    | .ok task => task.performOn streams
  match outcome with
  | .ok log =>
    showLog verbosity log
    return 0
  | .error failure =>
    showLog verbosity [.failed failure]
    return 1

/-- Reads the arguments, does what they ask for and gives the exit status. -/
def serve (arguments : List String) : IO UInt32 := do
  match Request.parse arguments with
  | .error error =>
    IO.eprint error.report
    return 1
  | .ok .help =>
    IO.print helpText
    return 0
  | .ok (.work arguments) =>
    let verbosity := ((← IO.getEnv "RUST_LOG").map Verbosity.ofName).getD .default
    work verbosity arguments

end TapeLang.CommandLine

/-- Does what the arguments of the command line ask for. -/
def main (arguments : List String) : IO UInt32 := TapeLang.CommandLine.serve arguments
