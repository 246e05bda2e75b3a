import TapeLang.Failure
import TapeLang.Text.Inert

/-!
# The log

The command line keeps a log of its work. Each entry has a level, and an
entry is shown if its level is not beyond the one that was asked for. An entry
is shown as its level, a message and named values. The message is made inert,
since it may quote what came from outside; the values stand as they are.
-/

namespace TapeLang.CommandLine

/-- How much an entry matters, from the most to the least. -/
inductive Level where
  | error
  | warn
  | info
  | debug
  | trace
  deriving DecidableEq, Repr

namespace Level

/-- The place of a level, from zero for the one that matters most. -/
def rank : Level → Nat
  | .error => 0
  | .warn => 1
  | .info => 2
  | .debug => 3
  | .trace => 4

/-- The name that an entry begins with. -/
def name : Level → String
  | .error => "ERROR"
  | .warn => "WARN"
  | .info => "INFO"
  | .debug => "DEBUG"
  | .trace => "TRACE"

end Level

/-- Which entries are shown: those up to a level, or none. -/
abbrev Verbosity := Option Level

namespace Verbosity

/-- What is shown when nothing is asked for. -/
def default : Verbosity := some .warn

/-- Reads what is to be shown. Any other name counts as if nothing were asked for. -/
def ofName : String → Verbosity
  | "off" => none
  | "error" => some .error
  | "warn" => some .warn
  | "info" => some .info
  | "debug" => some .debug
  | "trace" => some .trace
  | _ => default

/-- Whether entries of a level are shown. -/
def shows (verbosity : Verbosity) (level : Level) : Bool :=
  verbosity.any fun limit => decide (level.rank ≤ limit.rank)

end Verbosity

/-- What the log tells of. -/
inductive Entry where
  /-- A source file was read. -/
  | loaded (path : String)
  /-- Two jumps were linked. -/
  | linked (link : Program.Link)
  /-- A program was compiled. -/
  | compiled (instructions : Nat)
  /-- A program came to its end. -/
  | finished (steps : UInt64) (pointer : Nat)
  /-- The work was not done. -/
  | failed (failure : Failure)
  deriving DecidableEq, Repr

namespace Entry

/-- The level of an entry. -/
def level : Entry → Level
  | .loaded _ => .info
  | .linked _ => .trace
  | .compiled _ => .debug
  | .finished _ _ => .debug
  | .failed _ => .error

/-- The wording of an entry. -/
def message : Entry → String
  | .loaded _ => "loaded source"
  | .linked _ => "linked jump pair"
  | .compiled _ => "compiled program"
  | .finished _ _ => "program finished"
  | .failed failure => failure.message

/-- The values that go with the wording, by name. -/
def values : Entry → List (String × String)
  | .loaded path => [("path", path)]
  | .linked link => [("open", link.opening.repr), ("close", link.closing.repr)]
  | .compiled instructions => [("instructions", instructions.repr)]
  | .finished steps pointer => [("steps", steps.toNat.repr), ("pointer", pointer.repr)]
  | .failed _ => []

/-- An entry as it is shown. -/
def line (entry : Entry) : String :=
  let values := entry.values.map fun (name, value) => " " ++ name ++ "=" ++ value
  entry.level.name ++ " " ++ Text.inert entry.message ++ String.join values ++ "\n"

end Entry

/-- The entries that are shown. -/
def shown (verbosity : Verbosity) (log : List Entry) : String :=
  String.join ((log.filter fun entry => verbosity.shows entry.level).map Entry.line)

end TapeLang.CommandLine
