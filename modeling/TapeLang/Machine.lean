import TapeLang.Program
import TapeLang.Stream.Terminal
import TapeLang.Tape

/-!
# Running a program

A machine is a tape and the address of the next instruction. Its work comes
in two layers. `Machine.act` is the part that needs no terminal: it carries
out an instruction on the tape, or says what the instruction wants from the
terminal. `Machine.step` puts the request to a terminal and takes in the
answer.

A step that fails changes nothing in the machine, so it can be tried again.

A program need not end, so `Machine.run` is given a number of turns: one for
each instruction and one more to find the end of the program. If they do not
suffice the run is unfinished. The instructions themselves are counted in 64
bits, whatever the number of turns is.
-/

namespace TapeLang

/-- Why a step fails. -/
inductive ExecuteError where
  /-- The terminal failed. -/
  | stream (error : StreamError)
  /-- There is no instruction at the address, or it is a jump that may not be taken. -/
  | inconsistent (address : Nat)
  deriving DecidableEq, Repr

/-- The wording of an error. -/
def ExecuteError.message : ExecuteError → String
  | .stream error => "i/o failure while running: " ++ error.text
  | .inconsistent address => "program is inconsistent at instruction " ++ address.repr

/-- A tape and the address of the next instruction. -/
@[ext]
structure Machine where
  /-- The memory. -/
  tape : Tape
  /-- The address of the next instruction. -/
  pc : Nat

/-- What an instruction comes to before the terminal is asked. -/
inductive Action where
  /-- The instruction is done; this is the machine after it. -/
  | proceed (machine : Machine)
  /-- The instruction wants to write a byte; the machine waits before it. -/
  | write (byte : UInt8) (machine : Machine)
  /-- The instruction wants to read a byte; the machine waits before it. -/
  | read (machine : Machine)
  /-- The machine cannot go on. -/
  | stuck (machine : Machine)

/-- What is left of a step: whether it succeeded, the machine and the terminal. -/
structure Step (σ : Type) where
  /-- Whether the step succeeded. -/
  outcome : Except ExecuteError Unit
  /-- The machine after the step. -/
  machine : Machine
  /-- The terminal after the step. -/
  terminal : σ

/-- How a run ends. -/
inductive Outcome where
  /-- The program came to its end after a number of steps, counted in 64 bits. -/
  | finished (steps : UInt64)
  /-- A step failed, or the last flush did. -/
  | failed (error : ExecuteError)
  /-- The run was cut off. -/
  | unfinished
  deriving DecidableEq, Repr

/-- What is left of a run: how it ended, the machine and the terminal. -/
structure Run (σ : Type) where
  /-- How the run ended. -/
  outcome : Outcome
  /-- The machine at the end. -/
  machine : Machine
  /-- The terminal at the end. -/
  terminal : σ

namespace Machine

/-- The machine with a blank tape, at the start of a program. -/
def fresh (length : TapeLength) : Machine := ⟨.blank length, 0⟩

/-- The fresh machine, if there is memory for its tape. -/
def allocate (memory : Memory) (length : TapeLength) : Except AllocationError Machine :=
  match Tape.allocate memory length with
  | .ok tape => .ok ⟨tape, 0⟩
  | .error error => .error error

/-- Clears the tape and goes back to the start of a program. -/
def reset (machine : Machine) : Machine := ⟨machine.tape.clear, 0⟩

/-- Goes on to the next instruction with another tape. -/
def next (machine : Machine) (change : Tape → Tape) : Machine :=
  match machine with
  | ⟨tape, pc⟩ => ⟨change tape, pc + 1⟩

/-- Takes a jump, if it may be taken. -/
def jump (program : Program) (machine : Machine) (instruction : Instruction) : Action :=
  if program.linked machine.pc instruction then
    .proceed { machine with pc := instruction.target }
  else
    .stuck machine

/-- Carries out the next instruction as far as that needs no terminal. -/
def act (program : Program) (machine : Machine) : Action :=
  match program.get? machine.pc with
  | none => .stuck machine
  | some instruction =>
    match instruction.operation with
    | .forward => .proceed (machine.next .forward)
    | .backward => .proceed (machine.next .backward)
    | .increment => .proceed (machine.next .increment)
    | .decrement => .proceed (machine.next .decrement)
    | .write => .write machine.tape.get.toUInt8 machine
    | .read => .read machine
    | .jumpIfZero =>
      if machine.tape.get = 0 then machine.jump program instruction
      else .proceed (machine.next id)
    | .jumpIfNonZero =>
      if machine.tape.get = 0 then .proceed (machine.next id)
      else machine.jump program instruction

/-- The value that a cell takes from the input; it is zero at the end of the input. -/
def received : Option UInt8 → Cell
  | some byte => byte.toUInt16
  | none => 0

section Terminal

variable {σ : Type} [Terminal σ]

/-- Reads one byte into the current cell. All that was written is passed on first. -/
def readStep (machine : Machine) (terminal : σ) : Step σ :=
  match Terminal.flush terminal with
  | (.error error, terminal) => ⟨.error (.stream error), machine, terminal⟩
  | (.ok (), terminal) =>
    match Terminal.read terminal with
    | (.error error, terminal) => ⟨.error (.stream error), machine, terminal⟩
    | (.ok input, terminal) => ⟨.ok (), machine.next (·.set (received input)), terminal⟩

/-- Writes one byte. -/
def writeStep (byte : UInt8) (machine : Machine) (terminal : σ) : Step σ :=
  match Terminal.write byte terminal with
  | (.error error, terminal) => ⟨.error (.stream error), machine, terminal⟩
  | (.ok (), terminal) => ⟨.ok (), machine.next id, terminal⟩

/-- Carries out the next instruction. -/
def step (program : Program) (machine : Machine) (terminal : σ) : Step σ :=
  match machine.act program with
  | .proceed machine => ⟨.ok (), machine, terminal⟩
  | .write byte machine => machine.writeStep byte terminal
  | .read machine => machine.readStep terminal
  | .stuck machine => ⟨.error (.inconsistent machine.pc), machine, terminal⟩

/-- Ends a run of a number of steps: all that was written is passed on. -/
def finish (steps : UInt64) (machine : Machine) (terminal : σ) : Run σ :=
  match Terminal.flush terminal with
  | (.ok (), terminal) => ⟨.finished steps, machine, terminal⟩
  | (.error error, terminal) => ⟨.failed (.stream error), machine, terminal⟩

/--
Carries out instructions until the address leaves the program or one fails,
in a limited number of turns, and counts them onto `steps`. After the highest
count comes zero.
-/
def runFrom (program : Program) : (turns : Nat) → (steps : UInt64) → Machine → σ → Run σ
  | 0, _, machine, terminal => ⟨.unfinished, machine, terminal⟩
  | turns + 1, steps, machine, terminal =>
    if machine.pc < program.size then
      match machine.step program terminal with
      | ⟨.ok (), machine, terminal⟩ => runFrom program turns (steps + 1) machine terminal
      | ⟨.error error, machine, terminal⟩ => ⟨.failed error, machine, terminal⟩
    else
      machine.finish steps terminal

/-- Runs a program from its start on a cleared tape. -/
def run (turns : Nat) (program : Program) (machine : Machine) (terminal : σ) : Run σ :=
  runFrom program turns 0 machine.reset terminal

end Terminal

end Machine

/-- Runs a program on a fresh machine of the default size. -/
def execute {σ : Type} [Terminal σ] (turns : Nat) (program : Program) (terminal : σ) : Run σ :=
  (Machine.fresh .default).run turns program terminal

end TapeLang
