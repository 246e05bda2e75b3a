import TapeLang.CommandLine.Arguments
import TapeLang.CommandLine.Log
import TapeLang.Listing
import TapeLang.Source
import TapeLang.Stream.Console
import TapeLang.Text.Decode

/-!
# The work of the command line

From the arguments to the exit status. The work goes through stages, and the
first that fails is the end of it: there must be exactly one path, the file
must be readable, its text must compile, and, for a program that is to be
run, there must be memory for its tape. Up to there nothing has been written
or read on the console. Then the program is listed, written in another
alphabet, or run.

What comes from outside is given: reading a file as a function from paths, and
the memory as what it grants. So all of this is a function of what the files
hold, of the memory and of the console.
-/

namespace TapeLang.CommandLine

/-- What is left to do once a program is compiled. -/
inductive Task where
  /-- Show the program. -/
  | print (layout : Layout)
  /-- Run the program on a machine. -/
  | run (program : Program) (machine : Machine)

namespace Arguments

/-- The path of the source file, if there is exactly one. -/
def path (arguments : Arguments) : Except Failure String :=
  match arguments.paths with
  | [path] => .ok path
  | paths => .error (.usage paths.length)

/-- The program in the contents of a file, with what is to be logged of it. -/
def program (arguments : Arguments) (contents : List UInt8) :
    Except Failure Program × List Entry :=
  match Assembler.empty.compile arguments.encoding (Text.decode contents) with
  | (.ok program, _) =>
    (.ok program, program.links.map .linked ++ [.compiled program.size])
  | (.error error, assembler) => (.error (.compile error), assembler.links.map .linked)

/-- What to do with a program. A listing goes before another alphabet, and both before a run. -/
def task (arguments : Arguments) (memory : Memory) (program : Program) : Except Failure Task :=
  if arguments.listing then .ok (.print program.listing)
  else
    match arguments.target with
    | some alphabet => .ok (.print (program.source alphabet))
    | none =>
      match Machine.allocate memory arguments.tapeLength with
      | .ok machine => .ok (.run program machine)
      | .error error => .error (.tapeTooLong arguments.tapeLength error)

/-- All that comes before the console is used. -/
def prepare (arguments : Arguments) (files : String → Except StreamError (List UInt8))
    (memory : Memory) : Except Failure Task × List Entry :=
  match arguments.path with
  | .error failure => (.error failure, [])
  | .ok path =>
    match files path with
    | .error error => (.error (.sourceUnavailable path error), [])
    | .ok contents =>
      match arguments.program contents with
      | (.error failure, log) => (.error failure, .loaded path :: log)
      | (.ok program, log) => (arguments.task memory program, .loaded path :: log)

end Arguments

/-- What work leaves: whether it was done, its log and the console. -/
structure Result where
  /-- Whether the work was done. -/
  outcome : Except Failure Unit
  /-- The log in order. -/
  log : List Entry
  /-- The console after the work. -/
  console : Console

/-- Shows a layout on the console. -/
def showLayout (layout : Layout) (console : Console) : Result :=
  match Sink.writeAll layout.pieces console with
  | (.error error, console) => ⟨.error (.output error), [], console⟩
  | (.ok (), console) =>
    match console.flush with
    | (.error error, console) => ⟨.error (.output error), [], console⟩
    | (.ok (), console) => ⟨.ok (), [], console⟩

/-- Does a task on the console, unless the turns do not suffice for a run. -/
def Task.perform (turns : Nat) (task : Task) (console : Console) : Option Result :=
  match task with
  | .print layout => some (showLayout layout console)
  | .run program machine =>
    match machine.run turns program console with
    | ⟨.finished steps, machine, console⟩ =>
      some ⟨.ok (), [.finished steps machine.tape.pointer], console⟩
    | ⟨.failed error, _, console⟩ => some ⟨.error (.execute error), [], console⟩
    | ⟨.unfinished, _, _⟩ => none

/-- Does what arguments ask for, unless the turns do not suffice for a run. -/
def Arguments.perform (turns : Nat) (arguments : Arguments)
    (files : String → Except StreamError (List UInt8)) (memory : Memory) (console : Console) :
    Option Result :=
  match arguments.prepare files memory with
  | (.error failure, log) => some ⟨.error failure, log, console⟩
  | (.ok task, log) =>
    (task.perform turns console).map fun result => { result with log := log ++ result.log }

/-! ## What is seen from outside -/

/-- What the program leaves when it ends. -/
structure Report where
  /-- The exit status. -/
  status : Nat
  /-- The bytes on the standard output. -/
  output : List UInt8
  /-- The text on the standard error output. -/
  errors : String

/-- The report of work that is done or has failed. -/
def Result.report (verbosity : Verbosity) (result : Result) : Report :=
  let output := result.console.close.toList
  match result.outcome with
  | .ok () => ⟨0, output, shown verbosity result.log⟩
  | .error failure => ⟨1, output, shown verbosity (result.log ++ [.failed failure])⟩

/-- All that the program does, unless the turns do not suffice for a run. -/
def report (turns : Nat) (verbosity : Verbosity) (arguments : List String)
    (files : String → Except StreamError (List UInt8)) (memory : Memory) (console : Console) :
    Option Report :=
  match Request.parse arguments with
  | .error error => some ⟨1, [], error.report⟩
  | .ok .help => some ⟨0, (Sink.write helpText console).2.close.toList, ""⟩
  | .ok (.work arguments) =>
    (arguments.perform turns files memory console).map (Result.report verbosity)

end TapeLang.CommandLine
