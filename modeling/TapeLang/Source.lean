import TapeLang.Alphabet
import TapeLang.Layout
import TapeLang.Program

/-!
# Sources

A program is written as source text in an alphabet with each bracket on a
line of its own and each stretch of other operations on one line. The lines
are indented by the jumps as they stand: an opening bracket indents what
comes after it, and a closing one goes back one level before it is written,
unless there is none to go back.

Targets are not written: an assembler finds them again from the brackets.
-/

namespace TapeLang

namespace Source

/-- The lines so far, the symbols that wait for the end of their line, and the level. -/
structure State where
  /-- The lines so far. -/
  layout : Layout := {}
  /-- The symbols of the line begun. -/
  pending : String := ""
  /-- The number of loops open. -/
  level : Nat := 0

/-- Ends the line begun, if one is. -/
def State.endLine (state : State) : State :=
  match state with
  | ⟨layout, pending, level⟩ =>
    if pending.isEmpty then ⟨layout, pending, level⟩
    else ⟨layout.push { level := level, body := [pending] }, "", level⟩

/-- Puts a bracket on a line of its own, after the line begun. -/
def State.bracket (state : State) (symbol : Char) : State :=
  match state.endLine with
  | ⟨layout, pending, level⟩ =>
    ⟨layout.push { level := level, body := [symbol.toString] }, pending, level⟩

/-- Goes one level in. -/
def State.indent (state : State) : State := { state with level := state.level + 1 }

/-- Goes one level out, unless there is none to go out of. -/
def State.outdent (state : State) : State := { state with level := state.level - 1 }

/-- Adds the symbol of the next instruction. -/
def State.feed (alphabet : Alphabet) (state : State) (instruction : Instruction) : State :=
  match instruction.operation with
  | .jumpIfZero => (state.bracket (alphabet.symbol .jumpIfZero)).indent
  | .jumpIfNonZero => state.endLine.outdent.bracket (alphabet.symbol .jumpIfNonZero)
  | simple => { state with pending := state.pending.push (alphabet.symbol simple) }

end Source

/-- The source of a program in an alphabet. -/
def Program.source (alphabet : Alphabet) (program : Program) : Layout :=
  (program.instructions.toList.foldl (Source.State.feed alphabet) {}).endLine.layout

end TapeLang
