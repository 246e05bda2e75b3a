import TapeLang.CommandLine.Work

/-!
# Stages of the work

The work of the command line goes through stages, and each stage fails in its own
way.  `CommandLine.Arguments.Course` says what the stages before the console can come
to, each with what has been found by then.  The conditions in it exclude each other
and leave nothing out, so that it holds of what was prepared and of nothing else.
What is done on the console after them does not fail as they do, so a failure that
is theirs can be traced back to its condition.

A compile error, for one, can only come from the text of the one file that was
named, in the alphabet that was asked for, and that alphabet is one that has a name.

## Main results

* `CommandLine.Arguments.course_iff` — what the stages come to.
* `CommandLine.Arguments.course_of_perform` — an early failure is a failure of the
  stages.
* `CommandLine.Arguments.perform_compile_error` — where a compile error comes from.
* `CommandLine.named_of_parse` — the alphabet of the source has a name.
-/

namespace TapeLang

/-- Whether a failure belongs to the stages before the console is used. -/
def Failure.isEarly : Failure → Bool
  | .usage _ | .sourceUnavailable _ _ | .tapeTooLong _ _ | .compile _ => true
  | .execute _ | .output _ => false

theorem Tape.eq_blank_of_allocate {memory : Memory} {length : TapeLength} {tape : Tape}
    (h : Tape.allocate memory length = .ok tape) : tape = .blank length := by
  unfold allocate at h
  split at h
  · cases h
  · exact (Except.ok.inj h).symm

namespace CommandLine

/-- Once there is a task, no failure comes that belongs to the stages before it. -/
theorem Task.isEarly_eq_false_of_perform {turns : Nat} {task : Task} {console : Console}
    {result : Result} {failure : Failure} (h : task.perform turns console = some result)
    (hOutcome : result.outcome = .error failure) : failure.isEarly = false := by
  cases task with
  | print layout =>
      have hResult : showLayout layout console = result := Option.some.inj h
      rw [← hResult] at hOutcome
      unfold showLayout at hOutcome
      split at hOutcome
      · cases hOutcome
        rfl
      · split at hOutcome
        · cases hOutcome
          rfl
        · cases hOutcome
  | run program machine =>
      simp only [perform] at h
      split at h
      · rw [← Option.some.inj h] at hOutcome
        cases hOutcome
      · rw [← Option.some.inj h] at hOutcome
        cases hOutcome
        rfl
      · cases h

/-! ## What the stages come to -/

namespace Arguments

section Course

variable (arguments : Arguments) (files : String → Except StreamError (List UInt8))

/-- The arguments name one file, and it holds these bytes. -/
def Loads (contents : List UInt8) : Prop :=
  ∃ path : String, arguments.paths = [path] ∧ files path = .ok contents

/-- The text of the one file is a program. -/
def Compiles (program : Program) : Prop :=
  ∃ contents : List UInt8, arguments.Loads files contents ∧
    compile arguments.encoding (Text.decode contents) = .ok program

/-- The program of the one file is to be run, not to be shown. -/
structure Runs (program : Program) : Prop where
  compiles : arguments.Compiles files program
  listing : arguments.listing = false
  target : arguments.target = none

/-- What the stages before the console come to, with what has been found on the way. -/
inductive Course (memory : Memory) : Except Failure Task → Prop where
  | usage (hPaths : arguments.paths.length ≠ 1) :
      Course memory (.error (.usage arguments.paths.length))
  | unavailable {path : String} {error : StreamError} (hPaths : arguments.paths = [path])
      (hFile : files path = .error error) : Course memory (.error (.sourceUnavailable path error))
  | refused {contents : List UInt8} {error : CompileError}
      (hLoads : arguments.Loads files contents)
      (hCompile : compile arguments.encoding (Text.decode contents) = .error error) :
      Course memory (.error (.compile error))
  | listing {program : Program} (hCompiles : arguments.Compiles files program)
      (hListing : arguments.listing = true) : Course memory (.ok (.print program.listing))
  | translation {program : Program} {alphabet : Alphabet}
      (hCompiles : arguments.Compiles files program) (hListing : arguments.listing = false)
      (hTarget : arguments.target = some alphabet) :
      Course memory (.ok (.print (program.source alphabet)))
  | tapeTooLong {program : Program} {error : AllocationError}
      (hRuns : arguments.Runs files program)
      (hTape : Tape.allocate memory arguments.tapeLength = .error error) :
      Course memory (.error (.tapeTooLong arguments.tapeLength error))
  | run {program : Program} {tape : Tape} (hRuns : arguments.Runs files program)
      (hTape : Tape.allocate memory arguments.tapeLength = .ok tape) :
      Course memory (.ok (.run program (.fresh arguments.tapeLength)))

end Course

variable {arguments : Arguments} {files : String → Except StreamError (List UInt8)}
  {memory : Memory}

theorem path_eq_of_paths {path : String} (h : arguments.paths = [path]) :
    arguments.path = .ok path := by
  rw [Arguments.path, h]

/-- The program of a file, without what is logged of it. -/
theorem fst_program (arguments : Arguments) (contents : List UInt8) :
    (arguments.program contents).1 =
      (compile arguments.encoding (Text.decode contents)).mapError .compile := by
  rw [program, compile]
  rcases Assembler.empty.compile arguments.encoding (Text.decode contents) with ⟨_ | _, _⟩ <;> rfl

theorem Loads.prepare {contents : List UInt8} (h : arguments.Loads files contents) :
    (arguments.prepare files memory).1 =
      (arguments.program contents).1.bind (arguments.task memory) := by
  obtain ⟨path, hPaths, hFile⟩ := h
  rw [Arguments.prepare, path_eq_of_paths hPaths]
  dsimp only
  rw [hFile]
  dsimp only
  rcases arguments.program contents with ⟨_ | _, _⟩ <;> rfl

theorem Compiles.prepare {program : Program} (h : arguments.Compiles files program) :
    (arguments.prepare files memory).1 = arguments.task memory program := by
  obtain ⟨contents, hLoads, hCompile⟩ := h
  rw [hLoads.prepare, fst_program, hCompile]
  rfl

theorem Runs.prepare {program : Program} (h : arguments.Runs files program) :
    (arguments.prepare files memory).1 =
      match Machine.allocate memory arguments.tapeLength with
      | .ok machine => .ok (.run program machine)
      | .error error => .error (.tapeTooLong arguments.tapeLength error) := by
  rw [h.compiles.prepare, task, h.listing, h.target]
  rfl

/-- With any other number of paths than one, neither the files nor the memory are asked. -/
theorem prepare_of_usage (hPaths : arguments.paths.length ≠ 1)
    (files : String → Except StreamError (List UInt8)) (memory : Memory) :
    arguments.prepare files memory = (.error (.usage arguments.paths.length), []) := by
  have hPath : arguments.path = .error (.usage arguments.paths.length) := by
    unfold Arguments.path
    split
    · next path hOne =>
        rw [hOne] at hPaths
        exact absurd rfl hPaths
    · rfl
  rw [Arguments.prepare, hPath]

/-- The stages come to nothing else. -/
theorem Course.prepare {prepared : Except Failure Task}
    (h : arguments.Course files memory prepared) :
    (arguments.prepare files memory).1 = prepared := by
  cases h with
  | usage hPaths => rw [prepare_of_usage hPaths]
  | unavailable hPaths hFile =>
      rw [Arguments.prepare, path_eq_of_paths hPaths]
      dsimp only
      rw [hFile]
  | refused hLoads hCompile =>
      rw [hLoads.prepare, fst_program, hCompile]
      rfl
  | listing hCompiles hListing =>
      rw [hCompiles.prepare, task, hListing]
      rfl
  | translation hCompiles hListing hTarget =>
      rw [hCompiles.prepare, task, hListing, hTarget]
      rfl
  | tapeTooLong hRuns hTape => rw [hRuns.prepare, Machine.allocate, hTape]
  | run hRuns hTape =>
      rw [hRuns.prepare, Machine.allocate, hTape, Tape.eq_blank_of_allocate hTape]
      rfl

/-- The stages come to something: the conditions leave nothing out. -/
theorem exists_course (arguments : Arguments)
    (files : String → Except StreamError (List UInt8)) (memory : Memory) :
    ∃ prepared : Except Failure Task, arguments.Course files memory prepared := by
  by_cases hPaths : arguments.paths.length = 1
  · obtain ⟨path, hPath⟩ := List.length_eq_one_iff.1 hPaths
    cases hFile : files path with
    | error error => exact ⟨_, .unavailable hPath hFile⟩
    | ok contents =>
        have hLoads : arguments.Loads files contents := ⟨path, hPath, hFile⟩
        cases hCompile : compile arguments.encoding (Text.decode contents) with
        | error error => exact ⟨_, .refused hLoads hCompile⟩
        | ok program =>
            have hCompiles : arguments.Compiles files program := ⟨contents, hLoads, hCompile⟩
            cases hListing : arguments.listing with
            | true => exact ⟨_, .listing hCompiles hListing⟩
            | false =>
                cases hTarget : arguments.target with
                | some alphabet => exact ⟨_, .translation hCompiles hListing hTarget⟩
                | none =>
                    have hRuns : arguments.Runs files program := ⟨hCompiles, hListing, hTarget⟩
                    cases hTape : Tape.allocate memory arguments.tapeLength with
                    | error error => exact ⟨_, .tapeTooLong hRuns hTape⟩
                    | ok tape => exact ⟨_, .run hRuns hTape⟩
  · exact ⟨_, .usage hPaths⟩

theorem course_iff {prepared : Except Failure Task} :
    arguments.Course files memory prepared ↔ (arguments.prepare files memory).1 = prepared := by
  constructor
  · intro h
    exact h.prepare
  · intro h
    obtain ⟨other, hOther⟩ := exists_course arguments files memory
    rw [← h, hOther.prepare]
    exact hOther

/-! ## From the stages to the work -/

theorem perform_of_error {failure : Failure}
    (h : (arguments.prepare files memory).1 = .error failure) (turns : Nat) (console : Console) :
    arguments.perform turns files memory console =
      some ⟨.error failure, (arguments.prepare files memory).2, console⟩ := by
  unfold perform
  generalize arguments.prepare files memory = prepared at h
  obtain ⟨outcome, log⟩ := prepared
  obtain rfl : outcome = .error failure := h
  rfl

theorem perform_of_ok {task : Task} (h : (arguments.prepare files memory).1 = .ok task)
    (turns : Nat) (console : Console) :
    arguments.perform turns files memory console =
      (task.perform turns console).map fun result =>
        { result with log := (arguments.prepare files memory).2 ++ result.log } := by
  unfold perform
  generalize arguments.prepare files memory = prepared at h
  obtain ⟨outcome, log⟩ := prepared
  obtain rfl : outcome = .ok task := h
  rfl

/-- An early failure comes from the stages, whatever the console is. -/
theorem course_of_perform {turns : Nat} {console : Console} {result : Result} {failure : Failure}
    (h : arguments.perform turns files memory console = some result)
    (hEarly : failure.isEarly = true) (hOutcome : result.outcome = .error failure) :
    arguments.Course files memory (.error failure) := by
  rw [course_iff]
  cases hPrepare : (arguments.prepare files memory).1 with
  | error other =>
      rw [perform_of_error hPrepare] at h
      cases h
      rw [Except.error.inj hOutcome]
  | ok task =>
      rw [perform_of_ok hPrepare] at h
      obtain ⟨performed, hPerformed, hResult⟩ := Option.map_eq_some_iff.1 h
      subst hResult
      rw [Task.isEarly_eq_false_of_perform hPerformed hOutcome] at hEarly
      cases hEarly

/-- A compile error comes from the text of the one file. -/
theorem perform_compile_error {turns : Nat} {console : Console} {result : Result}
    {error : CompileError} (h : arguments.perform turns files memory console = some result)
    (hOutcome : result.outcome = .error (.compile error)) :
    ∃ (path : String) (contents : List UInt8), arguments.paths = [path] ∧
      files path = .ok contents ∧
      compile arguments.encoding (Text.decode contents) = .error error := by
  have hCourse := course_of_perform h rfl hOutcome
  cases hCourse with
  | refused hLoads hCompile =>
      obtain ⟨path, hPaths, hFile⟩ := hLoads
      exact ⟨path, _, hPaths, hFile, hCompile⟩

end Arguments

/-! ## The alphabet that is asked for -/

theorem exists_of_map_eq_ok {ε α β : Type} {value : Except ε α} {f : α → β} {b : β}
    (h : value.map f = .ok b) : ∃ a, value = .ok a ∧ f a = b := by
  cases value with
  | ok a => exact ⟨a, rfl, Except.ok.inj h⟩
  | error error => cases h

theorem eq_ok_of_mapError {ε ε' α : Type} {value : Except ε α} {f : ε → ε'} {a : α}
    (h : value.mapError f = .ok a) : value = .ok a := by
  cases value with
  | ok other => exact congrArg Except.ok (Except.ok.inj h)
  | error error => cases h

namespace Draft

/-- The encoding, if it has been given, is an alphabet with a name. -/
def EncodingNamed (draft : Draft) : Prop :=
  ∀ alphabet : Alphabet, draft.encoding = some alphabet → alphabet.Named

theorem alphabetValue_named {given : Option Alphabet} {value : String} {alphabet : Alphabet}
    (h : alphabetValue given value = .ok alphabet) : alphabet.Named := by
  unfold alphabetValue at h
  split at h
  · cases h
  · exact ⟨value, eq_ok_of_mapError h⟩

theorem EncodingNamed.assign {draft next : Draft} {setting : Setting} {value : String}
    (h : draft.EncodingNamed) (hAssign : draft.assign setting value = .ok next) :
    next.EncodingNamed := by
  unfold Draft.assign at hAssign
  cases setting with
  | encoding =>
      obtain ⟨alphabet, hValue, rfl⟩ := exists_of_map_eq_ok hAssign
      intro other hOther
      rw [← Option.some.inj hOther]
      exact alphabetValue_named hValue
  | tapeLength =>
      obtain ⟨length, _, rfl⟩ := exists_of_map_eq_ok hAssign
      exact h
  | target =>
      obtain ⟨alphabet, _, rfl⟩ := exists_of_map_eq_ok hAssign
      exact h

/-- Only names of alphabets are accepted as the encoding, wherever they stand. -/
theorem EncodingNamed.read {draft next : Draft} {arguments : List String}
    (h : draft.EncodingNamed) (hRead : draft.read arguments = .ok next) : next.EncodingNamed := by
  fun_induction Draft.read draft arguments with
  | case1 draft =>
      cases hRead
      exact h
  | case2 draft argument rest _ ih => exact ih h hRead
  | case3 draft rest _ =>
      cases hRead
      exact h
  | case4 draft argument rest _ _ _ ih => exact ih h hRead
  | case6 draft argument rest _ _ _ _ _ ih => exact ih h hRead
  | case10 draft argument _ _ _ _ _ setting value rest _ assigned hAssign ih =>
      exact ih (h.assign hAssign) hRead
  -- what is left is refused: an option after help, an unknown one, or one without a good value
  | case5 | case7 | case8 | case9 => cases hRead

end Draft

/-- The alphabet of the source is one that has a name, also when none is asked for. -/
theorem named_of_parse {line : List String} {arguments : Arguments}
    (h : Request.parse line = .ok (.work arguments)) : arguments.encoding.Named := by
  unfold Request.parse at h
  split at h
  · cases h
  · next draft hRead =>
      have hEmpty : Draft.EncodingNamed {} := by
        intro alphabet hNone
        cases hNone
      have hNamed := hEmpty.read hRead
      by_cases hHelp : draft.help
      · rw [if_pos hHelp] at h
        cases h
      · rw [if_neg hHelp] at h
        cases h
        show (draft.encoding.getD .zeroWidth).Named
        cases hEncoding : draft.encoding with
        | none => exact Alphabet.named_iff.2 (.inl rfl)
        | some alphabet => exact hNamed alphabet hEncoding

end CommandLine

end TapeLang
