import TapeLang.Proofs.Buffering
import TapeLang.Proofs.Stages

/-!
# All or nothing

The command line shows nothing of work that it does not get to.  Before the console
is used there are four things that can go wrong, one after the other, and the first
that does is the failure that is reported.  Then nothing has been written and the
input has not been asked.  Past them the console gets exactly what one of three
kinds of work puts out, and only a run asks for input or needs a tape.

Every statement about failures is a case of what the stages can come to
(`CommandLine.Arguments.Course`), and every statement about output is one about the
bytes that a console holds in all, be they still in its buffer or not.

## Main results

* `CommandLine.Task.perform_run` — a run on a console, seen from outside.
* `CommandLine.Arguments.failsWith_iff` — the early failures are those of the stages.
* `CommandLine.Arguments.Course.endsUnread_print` — what is shown is shown in full.
* `work_is_all_or_nothing` — what is reported, written and read, for all arguments,
  files, memories and inputs.
-/

namespace TapeLang

/-! ## A run as work -/

/-- What a run comes to as work, if it ends. -/
def Outcome.verdict? : Outcome → Option (Except Failure Unit)
  | .finished _ => some (.ok ())
  | .failed error => some (.error (.execute error))
  | .unfinished => none

/-- The exit status of work that ended. -/
def CommandLine.exitStatus : Except Failure Unit → Nat
  | .ok () => 0
  | .error _ => 1

/-- What is on the device once the console is closed. -/
def CommandLine.Result.stdout (result : Result) : List UInt8 := result.console.close.toList

/-- A task to run a program puts out what the run does, and reads what the run does. -/
theorem CommandLine.Task.perform_run (turns : Nat) (program : Program) (machine : Machine)
    (input : ConsoleInput) :
    let run := machine.run turns program ({ reads := input.answers } : Script)
    ((Task.run program machine).perform turns { input := input }).map
        (fun result => (result.outcome, result.stdout, result.console.input.answers)) =
      run.outcome.verdict?.map (·, run.terminal.output, run.terminal.reads) := by
  intro run
  have hMirrors := Console.run_mirrors input turns program machine
  rw [Task.perform]
  generalize machine.run turns program ({ input := input } : Console) = performed at hMirrors
  obtain ⟨outcome, last, console⟩ := performed
  have hOutcome : outcome = run.outcome := hMirrors.outcome
  have hConsole : console.Mirrors run.terminal := hMirrors.terminal
  have hStdout : console.close.toList = run.terminal.output := by
    rw [Console.close_of_accepts hConsole.refusal, hConsole.written]
  rw [← hOutcome, ← hStdout, ← hConsole.reads]
  cases outcome with
  | finished steps => rfl
  | failed error => rfl
  | unfinished => rfl

/-! ## Failures -/

namespace CommandLine

namespace Arguments

variable {arguments : Arguments} {files : String → Except StreamError (List UInt8)}
  {memory : Memory}

/-- The work fails with a failure, on a console whose device takes all bytes. -/
def FailsWith (arguments : Arguments) (files : String → Except StreamError (List UInt8))
    (memory : Memory) (input : ConsoleInput) (turns : Nat) (failure : Failure) : Prop :=
  (arguments.perform turns files memory { input := input }).map Result.outcome =
    some (.error failure)

/-- An early failure is a failure of the stages, and no task is begun. -/
theorem failsWith_iff {input : ConsoleInput} {turns : Nat} {failure : Failure}
    (hEarly : failure.isEarly = true) :
    arguments.FailsWith files memory input turns failure ↔
      arguments.Course files memory (.error failure) := by
  constructor
  · intro h
    obtain ⟨result, hResult, hOutcome⟩ := Option.map_eq_some_iff.1 h
    exact course_of_perform hResult hEarly hOutcome
  · intro h
    rw [FailsWith, perform_of_error h.prepare]
    rfl

/-! Each early failure is one case of the stages. -/

section Failures

variable {input : ConsoleInput} {turns : Nat}

theorem failsWith_usage_iff {count : Nat} :
    arguments.FailsWith files memory input turns (.usage count) ↔
      arguments.paths.length = count ∧ count ≠ 1 := by
  rw [failsWith_iff rfl]
  constructor
  · intro hCourse
    cases hCourse with
    | usage hPaths => exact ⟨rfl, hPaths⟩
  · intro ⟨hCount, hPaths⟩
    subst hCount
    exact .usage hPaths

theorem failsWith_sourceUnavailable_iff {path : String} {error : StreamError} :
    arguments.FailsWith files memory input turns (.sourceUnavailable path error) ↔
      arguments.paths = [path] ∧ files path = .error error := by
  rw [failsWith_iff rfl]
  constructor
  · intro hCourse
    cases hCourse with
    | unavailable hPaths hFile => exact ⟨hPaths, hFile⟩
  · intro ⟨hPaths, hFile⟩
    exact .unavailable hPaths hFile

theorem failsWith_compile_iff {error : CompileError} :
    arguments.FailsWith files memory input turns (.compile error) ↔
      ∃ contents : List UInt8, arguments.Loads files contents ∧
        compile arguments.encoding (Text.decode contents) = .error error := by
  rw [failsWith_iff rfl]
  constructor
  · intro hCourse
    cases hCourse with
    | refused hLoads hCompile => exact ⟨_, hLoads, hCompile⟩
  · intro ⟨contents, hLoads, hCompile⟩
    exact .refused hLoads hCompile

theorem failsWith_tapeTooLong_iff {length : TapeLength} {error : AllocationError} :
    arguments.FailsWith files memory input turns (.tapeTooLong length error) ↔
      (∃ program : Program, arguments.Runs files program) ∧ arguments.tapeLength = length ∧
        Tape.allocate memory length = .error error := by
  rw [failsWith_iff rfl]
  constructor
  · intro hCourse
    cases hCourse with
    | tapeTooLong hRuns hTape => exact ⟨⟨_, hRuns⟩, rfl, hTape⟩
  · intro ⟨⟨program, hRuns⟩, hLength, hTape⟩
    subst hLength
    exact .tapeTooLong hRuns hTape

end Failures

/--
The work ends in this way and with this output, whatever the input is, and leaves
the input as it was.
-/
def EndsUnread (arguments : Arguments) (files : String → Except StreamError (List UInt8))
    (memory : Memory) (turns : Nat) (outcome : Except Failure Unit) (output : List UInt8) : Prop :=
  ∀ input : ConsoleInput, ∃ result : Result,
    arguments.perform turns files memory { input := input } = some result ∧
    result.outcome = outcome ∧ result.stdout = output ∧ result.console.input = input

theorem Course.endsUnread_error {failure : Failure}
    (h : arguments.Course files memory (.error failure)) (turns : Nat) :
    arguments.EndsUnread files memory turns (.error failure) [] := by
  intro input
  exact ⟨_, perform_of_error h.prepare turns { input := input }, rfl, rfl, rfl⟩

/-- A layout is written in full, and the input is not asked. -/
theorem Course.endsUnread_print {layout : Layout}
    (h : arguments.Course files memory (.ok (.print layout))) (turns : Nat) :
    arguments.EndsUnread files memory turns (.ok ()) layout.text.toUTF8.data.toList := by
  intro input
  obtain ⟨after, hShow, hTakes⟩ :=
    showLayout_of_accepts layout (show ({ input := input } : Console).refusal = none from rfl)
  have hPerform := perform_of_ok h.prepare turns { input := input }
  rw [Task.perform, hShow, Option.map_some] at hPerform
  refine ⟨_, hPerform, rfl, ?_, hTakes.input⟩
  show after.close.toList = layout.text.toUTF8.data.toList
  rw [Console.close_of_accepts hTakes.refusal, hTakes.written]
  rfl

/-- A run is all that is seen of the work. -/
theorem Runs.perform {program : Program} {tape : Tape} (hRuns : arguments.Runs files program)
    (hTape : Tape.allocate memory arguments.tapeLength = .ok tape) (input : ConsoleInput)
    (turns : Nat) :
    let run := (Machine.fresh arguments.tapeLength).run turns program
      ({ reads := input.answers } : Script)
    (arguments.perform turns files memory { input := input }).map
        (fun result => (result.outcome, result.stdout, result.console.input.answers)) =
      run.outcome.verdict?.map (·, run.terminal.output, run.terminal.reads) := by
  have hCourse : arguments.Course files memory _ := .run hRuns hTape
  rw [perform_of_ok hCourse.prepare, Option.map_map]
  exact Task.perform_run turns program (.fresh arguments.tapeLength) input

/-! ## What does not matter -/

theorem perform_others (hPaths : arguments.paths.length ≠ 1)
    (others : String → Except StreamError (List UInt8)) (turns : Nat) (console : Console) :
    arguments.perform turns others memory console =
      arguments.perform turns files memory console := by
  rw [perform, perform, prepare_of_usage hPaths, prepare_of_usage hPaths]

/-- Arguments that come to the same task with every program come to the same. -/
theorem perform_congr {other : Arguments} {spare : Memory}
    (hTask : ∀ program : Program, other.task spare program = arguments.task memory program)
    (hPaths : other.paths = arguments.paths) (hEncoding : other.encoding = arguments.encoding)
    (turns : Nat) (console : Console) :
    other.perform turns files spare console = arguments.perform turns files memory console := by
  have hPath : other.path = arguments.path := by rw [Arguments.path, Arguments.path, hPaths]
  have hProgram (contents : List UInt8) :
      other.program contents = arguments.program contents := by
    rw [Arguments.program, Arguments.program, hEncoding]
  simp only [perform, prepare, hPath, hProgram, hTask]

/-- A listing is made without a look at the other alphabet, the length of the tape or the memory. -/
theorem perform_listing (hListing : arguments.listing = true) (target : Option Alphabet)
    (length : TapeLength) (spare : Memory) (turns : Nat) (console : Console) :
    { arguments with target := target, tapeLength := length }.perform turns files spare console =
      arguments.perform turns files memory console := by
  have hTask (program : Program) :
      { arguments with target := target, tapeLength := length }.task spare program =
        arguments.task memory program := by
    rw [Arguments.task, Arguments.task, if_pos hListing, if_pos hListing]
  exact perform_congr hTask rfl rfl turns console

/-- The source in another alphabet is made without a look at the tape's length or the memory. -/
theorem perform_target (hTarget : arguments.target ≠ none) (length : TapeLength) (spare : Memory)
    (turns : Nat) (console : Console) :
    { arguments with tapeLength := length }.perform turns files spare console =
      arguments.perform turns files memory console := by
  obtain ⟨alphabet, hAlphabet⟩ := Option.ne_none_iff_exists'.1 hTarget
  have hTask (program : Program) :
      { arguments with tapeLength := length }.task spare program =
        arguments.task memory program := by
    simp only [Arguments.task, hAlphabet]
  exact perform_congr hTask rfl rfl turns console

/-! ## Exit status -/

theorem report_of_parse {line : List String} (hLine : Request.parse line = .ok (.work arguments))
    (turns : Nat) (verbosity : Verbosity) (console : Console) :
    (report turns verbosity line files memory console).map
        (fun given => (given.status, given.output)) =
      (arguments.perform turns files memory console).map
        (fun result => (exitStatus result.outcome, result.stdout)) := by
  simp only [report, hLine, Option.map_map]
  congr 1
  funext result
  obtain ⟨outcome, log, console⟩ := result
  cases outcome with
  | ok => rfl
  | error failure => rfl

/-! ## The work as a whole -/

/--
What arguments come to with given files, a given memory and a given input, when the
device takes all bytes.
-/
structure AllOrNothing (arguments : Arguments)
    (files : String → Except StreamError (List UInt8)) (memory : Memory) (input : ConsoleInput)
    (turns : Nat) : Prop where
  /-- The number of paths is the failure exactly if it is not one. -/
  usage : ∀ count : Nat, arguments.FailsWith files memory input turns (.usage count) ↔
    arguments.paths.length = count ∧ count ≠ 1
  /-- Then no file is read: it does not matter what the files are. -/
  usage_fileless : arguments.paths.length ≠ 1 →
    ∀ others : String → Except StreamError (List UInt8),
      arguments.perform turns others memory { input := input } =
        arguments.perform turns files memory { input := input }
  /-- For a single path, the file is the failure exactly if it cannot be read. -/
  unavailable : ∀ (path : String) (error : StreamError),
    arguments.FailsWith files memory input turns (.sourceUnavailable path error) ↔
      arguments.paths = [path] ∧ files path = .error error
  /-- For a file that can be read, its text is the failure exactly if it does not compile. -/
  refused : ∀ error : CompileError, arguments.FailsWith files memory input turns (.compile error) ↔
    ∃ contents : List UInt8, arguments.Loads files contents ∧
      compile arguments.encoding (Text.decode contents) = .error error
  /-- For a program that is to be run, the tape is the failure exactly if it cannot be had. -/
  tapeTooLong : ∀ (length : TapeLength) (error : AllocationError),
    arguments.FailsWith files memory input turns (.tapeTooLong length error) ↔
      (∃ program : Program, arguments.Runs files program) ∧ arguments.tapeLength = length ∧
        Tape.allocate memory length = .error error
  /-- With each of these four failures nothing is written and the input is not read. -/
  early : ∀ failure : Failure, failure.isEarly = true →
    arguments.FailsWith files memory input turns failure →
      arguments.EndsUnread files memory turns (.error failure) []
  /-- A listing that is asked for is written, and the input is not read. -/
  listing : ∀ program : Program, arguments.Compiles files program → arguments.listing = true →
    arguments.EndsUnread files memory turns (.ok ()) program.listing.text.toUTF8.data.toList
  /-- For a listing neither another alphabet nor the length of the tape nor the memory matters. -/
  listing_alone : arguments.listing = true →
    ∀ (target : Option Alphabet) (length : TapeLength) (spare : Memory),
      { arguments with target := target, tapeLength := length }.perform turns files spare
          { input := input } =
        arguments.perform turns files memory { input := input }
  /-- Without a listing, the source in another alphabet is written if one is asked for. -/
  translation : ∀ (program : Program) (alphabet : Alphabet), arguments.Compiles files program →
    arguments.listing = false → arguments.target = some alphabet →
    arguments.EndsUnread files memory turns (.ok ())
      (program.source alphabet).text.toUTF8.data.toList
  /-- For the source in another alphabet neither the length of the tape nor the memory matters. -/
  translation_alone : arguments.target ≠ none → ∀ (length : TapeLength) (spare : Memory),
    { arguments with tapeLength := length }.perform turns files spare { input := input } =
      arguments.perform turns files memory { input := input }
  /--
  Otherwise the program is run.  The work ends when the run does, also when that fails;
  what was written and what is left of the input are as after the run on a fresh tape.
  -/
  run : ∀ (program : Program) (tape : Tape), arguments.Runs files program →
    Tape.allocate memory arguments.tapeLength = .ok tape →
    let run := (Machine.fresh arguments.tapeLength).run turns program
      ({ reads := input.answers } : Script)
    (arguments.perform turns files memory { input := input }).map
        (fun result => (result.outcome, result.stdout, result.console.input.answers)) =
      run.outcome.verdict?.map (·, run.terminal.output, run.terminal.reads)
  /-- While a run goes on, what is on the device or waits for it is what the run has emitted. -/
  underway : ∀ program : Program,
    ((Machine.fresh arguments.tapeLength).run turns program
        ({ input := input } : Console)).terminal.written =
      ((Machine.fresh arguments.tapeLength).run turns program
        ({ reads := input.answers } : Script)).terminal.output
  /-- The status is zero if the work is done and one if it failed. -/
  exit : ∀ (line : List String) (verbosity : Verbosity),
    Request.parse line = .ok (.work arguments) →
    (report turns verbosity line files memory { input := input }).map
        (fun given => (given.status, given.output)) =
      (arguments.perform turns files memory { input := input }).map
        (fun result => (exitStatus result.outcome, result.stdout))

end Arguments

end CommandLine

open CommandLine in
/--
**The command line shows no part of work that it does not get to.**  For all
arguments, files, memories and inputs, and however many turns there are: the failure
that is reported is that of the first stage that fails, and then nothing has been
written and the input has not been read.  Past the stages the output is exactly the listing,
or the source in another alphabet, or what the run of the program emits on the input
from a fresh tape, also if the run fails midway.
-/
theorem work_is_all_or_nothing (arguments : Arguments)
    (files : String → Except StreamError (List UInt8)) (memory : Memory) (input : ConsoleInput)
    (turns : Nat) : arguments.AllOrNothing files memory input turns where
  usage _ := Arguments.failsWith_usage_iff
  usage_fileless hPaths others := Arguments.perform_others hPaths others turns { input := input }
  unavailable _ _ := Arguments.failsWith_sourceUnavailable_iff
  refused _ := Arguments.failsWith_compile_iff
  tapeTooLong _ _ := Arguments.failsWith_tapeTooLong_iff
  early failure hEarly hFails := by
    have hCourse := (Arguments.failsWith_iff hEarly).1 hFails
    exact hCourse.endsUnread_error turns
  listing program hCompiles hListing := by
    have hCourse : arguments.Course files memory _ := .listing hCompiles hListing
    exact hCourse.endsUnread_print turns
  listing_alone hListing target length spare :=
    Arguments.perform_listing hListing target length spare turns { input := input }
  translation program alphabet hCompiles hListing hTarget := by
    have hCourse : arguments.Course files memory _ := .translation hCompiles hListing hTarget
    exact hCourse.endsUnread_print turns
  translation_alone hTarget length spare :=
    Arguments.perform_target hTarget length spare turns { input := input }
  run program tape hRuns hTape := hRuns.perform hTape input turns
  underway program := (Console.run_mirrors input turns program _).terminal.written
  exit line verbosity hLine := Arguments.report_of_parse hLine turns verbosity { input := input }

open CommandLine in
/-- A program writes a byte and then cannot read: the byte is shown, later input is left. -/
theorem work_is_all_or_nothing_midway :
    let arguments : Arguments :=
      { paths := ["s.b"], encoding := .ascii, tapeLength := ⟨2, by decide⟩ }
    let program : Program := ⟨#[⟨.increment, 0⟩, ⟨.write, 0⟩, ⟨.read, 0⟩, ⟨.write, 0⟩]⟩
    let files (_ : String) : Except StreamError (List UInt8) := .ok [0x2b, 0x2e, 0x2c, 0x2e]
    let memory : Memory := ⟨fun bytes => decide (bytes ≤ 4)⟩
    let input : ConsoleInput := ⟨[.fault .isDirectory, .byte 7]⟩
    arguments.Runs files program ∧
    (arguments.perform 9 files memory { input := input }).map
        (fun result => (result.outcome, result.stdout, result.console.input.answers)) =
      some (.error (.execute (.stream .isDirectory)), [1], [.byte 7]) := by
  have hText : Text.decode [0x2b, 0x2e, 0x2c, 0x2e] = "+.,." := by decide +kernel
  have hCompile : compile .ascii (Text.decode [0x2b, 0x2e, 0x2c, 0x2e]) =
      .ok ⟨#[⟨.increment, 0⟩, ⟨.write, 0⟩, ⟨.read, 0⟩, ⟨.write, 0⟩]⟩ := by
    rw [hText]
    rfl
  intro arguments program files memory input
  have hCompiles : arguments.Compiles files program := ⟨_, ⟨"s.b", rfl, rfl⟩, hCompile⟩
  have hRuns : arguments.Runs files program := ⟨hCompiles, rfl, rfl⟩
  have hRun := (work_is_all_or_nothing arguments files memory input 9).run program _ hRuns rfl
  exact ⟨hRuns, hRun.trans rfl⟩

end TapeLang
