import TapeLang.Operation

/-!
# Programs

A program is a flat sequence of instructions. Each instruction names an
operation and a target; only the targets of jumps are ever followed. A
program may be assembled by hand with any targets whatever, so nothing is
assumed of them here: a machine checks a jump when it takes it, and
`Program.linked` is that check.
-/

namespace TapeLang

/-- One instruction of a program. -/
structure Instruction where
  /-- What the instruction does. -/
  operation : Operation
  /-- Where a jump goes; idle in every other instruction. -/
  target : Nat := 0
  deriving DecidableEq, Repr

/-- A sequence of instructions, addressed from zero. -/
structure Program where
  /-- The instructions in order. -/
  instructions : Array Instruction
  deriving DecidableEq, Repr

namespace Program

/-- The program without instructions. -/
def empty : Program := ⟨#[]⟩

/-- The number of instructions. -/
def size (program : Program) : Nat := program.instructions.size

/-- Whether there are no instructions. -/
def isEmpty (program : Program) : Bool := program.instructions.isEmpty

/-- The instruction at an address, if the address is in range. -/
def get? (program : Program) (address : Nat) : Option Instruction :=
  program.instructions[address]?

/-- The operations in order, without their targets. -/
def operations (program : Program) : List Operation :=
  program.instructions.toList.map Instruction.operation

/--
Whether a jump standing at an address may be taken: its target is in range,
holds the partner operation, and points back at the jump.
-/
def linked (program : Program) (address : Nat) (jump : Instruction) : Bool :=
  match program.get? jump.target with
  | some other => jump.operation.partner? == some other.operation && other.target == address
  | none => false

/-- A loop's two ends, by address. -/
structure Link where
  /-- The address of the opening jump. -/
  opening : Nat
  /-- The address of the closing jump. -/
  closing : Nat
  deriving DecidableEq, Repr

/-- The loops as their closing jumps give them, in the order of the closing jumps. -/
def links (program : Program) : List Link :=
  program.instructions.toList.zipIdx.filterMap fun (instruction, address) =>
    if instruction.operation = .jumpIfNonZero then some ⟨instruction.target, address⟩ else none

/-- A jump may be taken exactly if some instruction at its target is its partner and names it. -/
theorem linked_iff {program : Program} {address : Nat} {jump : Instruction} :
    program.linked address jump = true ↔
      ∃ other, program.get? jump.target = some other ∧
        jump.operation.partner? = some other.operation ∧ other.target = address := by
  unfold linked
  cases program.get? jump.target <;> simp

end Program

end TapeLang
