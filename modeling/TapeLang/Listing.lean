import TapeLang.Layout
import TapeLang.Program

/-!
# Listings

A listing shows a program with one instruction on a line: the address, the
indentation, the operation's short name and, for a jump, its target. The
address is padded to six columns and takes more if it needs them.

The indentation follows the jumps as they stand, linked or not: each opening
jump indents what comes after it, and each closing jump goes back one level,
unless there is none to go back.
-/

namespace TapeLang

namespace Listing

/-- The columns that an address has at least. -/
def addressWidth : Nat := 6

/-- An address with spaces before it up to the width of the column. -/
def address (n : Nat) : String :=
  String.ofList (List.replicate (addressWidth - n.repr.length) ' ') ++ n.repr

/-- The operation's name and, for a jump, the target. -/
def body (instruction : Instruction) : List String :=
  if instruction.operation.isJump then
    [instruction.operation.mnemonic, " -> ", instruction.target.repr]
  else
    [instruction.operation.mnemonic]

/-- The lines so far, the next address and the level there. -/
structure State where
  /-- The lines so far. -/
  layout : Layout := {}
  /-- The address of the next instruction. -/
  address : Nat := 0
  /-- The number of loops open before it. -/
  level : Nat := 0

/-- The line of an instruction. -/
def line (n level : Nat) (instruction : Instruction) : Line where
  margin := [address n, "  "]
  level := level
  body := body instruction

/-- Adds the line of the next instruction. -/
def State.feed (state : State) (instruction : Instruction) : State :=
  match state with
  | ⟨layout, n, level⟩ =>
    match instruction.operation with
    | .jumpIfZero => ⟨layout.push (line n level instruction), n + 1, level + 1⟩
    | .jumpIfNonZero => ⟨layout.push (line n (level - 1) instruction), n + 1, level - 1⟩
    | _ => ⟨layout.push (line n level instruction), n + 1, level⟩

end Listing

/-- The listing of a program. -/
def Program.listing (program : Program) : Layout :=
  (program.instructions.toList.foldl Listing.State.feed {}).layout

end TapeLang
