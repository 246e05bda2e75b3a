import TapeLang.Assembler
import TapeLang.Machine

/-!
# Failures

All that can keep the program from doing what its arguments ask, with the
wording of the report and the chain of causes behind it.
-/

namespace TapeLang

/-- Why the work was not done. -/
inductive Failure where
  /-- There is not exactly one source file, but this many. -/
  | usage (count : Nat)
  /-- The source file cannot be read. -/
  | sourceUnavailable (path : String) (error : StreamError)
  /-- There is no memory for the tape. -/
  | tapeTooLong (length : TapeLength) (error : AllocationError)
  /-- The source is not a program. -/
  | compile (error : CompileError)
  /-- The program failed while it ran. -/
  | execute (error : ExecuteError)
  /-- The listing or the source cannot be written. -/
  | output (error : StreamError)
  deriving DecidableEq, Repr

namespace Failure

/-- The wording of a failure. -/
def message : Failure → String
  | .usage count => "expected exactly one source file, got " ++ count.repr
  | .sourceUnavailable path error =>
    "cannot read source file `" ++ path ++ "`: " ++ error.text
  | .tapeTooLong length _ => "cannot allocate a tape of " ++ length.cells.repr ++ " cells"
  | .compile error => "compilation failed: " ++ error.message
  | .execute error => "execution failed: " ++ error.message
  | .output error => "cannot write output: " ++ error.text

/-- The wordings of the causes, from the nearest to the first. -/
def causes : Failure → List String
  | .usage _ => []
  | .sourceUnavailable _ error => [error.text]
  | .tapeTooLong _ error => [error.message]
  | .compile error => [error.message]
  | .execute (.stream error) => [(ExecuteError.stream error).message, error.text]
  | .execute error => [error.message]
  | .output error => [error.text]

end Failure

end TapeLang
