import TapeLang.Alphabet
import TapeLang.Program

/-!
# Assembling a program from its source

The assembler reads a source once from left to right. Every symbol of the
alphabet becomes one instruction; any other character is passed over. An
opening jump is emitted without a target and kept on a stack until its
closing jump arrives, and then the two are made to point at each other.

A closing jump without a pending opening one fails at once. An opening jump
without a closing one shows only at the end of the source; of several the
innermost is reported. Both errors give the bracket's place as a byte offset
in the UTF-8 encoding of the source.

An assembler can be used for one source after another. What a failed source
left behind is dropped when the next one begins.
-/

namespace TapeLang

/-- Why a source is not a program. -/
inductive CompileError where
  /-- The opening bracket at this byte is never closed. -/
  | unmatchedOpen (start : Nat)
  /-- The closing bracket at this byte closes nothing. -/
  | unmatchedClose (start : Nat)
  deriving DecidableEq, Repr

namespace CompileError

/-- The byte offset of the offending bracket. -/
def start : CompileError → Nat
  | .unmatchedOpen start => start
  | .unmatchedClose start => start

/-- The wording of an error. -/
def message : CompileError → String
  | .unmatchedOpen start => "unmatched open bracket at byte " ++ start.repr
  | .unmatchedClose start => "unmatched close bracket at byte " ++ start.repr

end CompileError

/-- An opening jump that waits for its closing one. -/
structure OpenBracket where
  /-- The address of the instruction. -/
  address : Nat
  /-- The byte offset of its symbol in the source. -/
  start : Nat
  deriving DecidableEq, Repr

/-- The instructions emitted so far and the opening jumps still pending, innermost first. -/
structure Assembler where
  /-- The instructions in order. -/
  instructions : Array Instruction := #[]
  /-- The pending opening jumps. -/
  pending : List OpenBracket := []
  deriving DecidableEq, Repr

namespace Assembler

/-- The assembler that has read nothing. -/
def empty : Assembler := {}

/-- Drops all that an earlier source may have left behind. -/
def reset (assembler : Assembler) : Assembler :=
  { assembler with instructions := #[], pending := [] }

/-- Emits an instruction that is no jump. -/
def emit (assembler : Assembler) (operation : Operation) : Assembler :=
  { assembler with instructions := assembler.instructions.push ⟨operation, 0⟩ }

/-- Emits an opening jump and leaves it pending. -/
def openLoop (assembler : Assembler) (start : Nat) : Assembler :=
  match assembler with
  | ⟨instructions, pending⟩ =>
    let bracket : OpenBracket := ⟨instructions.size, start⟩
    ⟨instructions.push ⟨.jumpIfZero, 0⟩, bracket :: pending⟩

/-- Emits the closing jump of a pending opening one and links the two. -/
def closeLoop (instructions : Array Instruction) (bracket : OpenBracket)
    (pending : List OpenBracket) : Assembler :=
  let closing := instructions.size
  let emitted := instructions.push ⟨.jumpIfNonZero, bracket.address⟩
  ⟨emitted.modify bracket.address fun jump => { jump with target := closing }, pending⟩

/--
Takes in the operation whose symbol stands at a byte offset. If that is an
error the assembler stays as it was.
-/
def feed (assembler : Assembler) (operation : Operation) (start : Nat) :
    Except CompileError Unit × Assembler :=
  match operation with
  | .jumpIfZero => (.ok (), assembler.openLoop start)
  | .jumpIfNonZero =>
    match assembler with
    | ⟨instructions, []⟩ => (.error (.unmatchedClose start), ⟨instructions, []⟩)
    | ⟨instructions, bracket :: pending⟩ => (.ok (), closeLoop instructions bracket pending)
  | simple => (.ok (), assembler.emit simple)

/-- Takes in the characters of a source from a byte offset on, up to the first error. -/
def absorb (alphabet : Alphabet) (assembler : Assembler) (start : Nat) :
    List Char → Except CompileError Unit × Assembler
  | [] => (.ok (), assembler)
  | c :: rest =>
    match alphabet.lookup c with
    | none => absorb alphabet assembler (start + c.utf8Size) rest
    | some operation =>
      match assembler.feed operation start with
      | (.ok (), assembler) => absorb alphabet assembler (start + c.utf8Size) rest
      | (.error error, assembler) => (.error error, assembler)

/-- Ends a source: the program, unless an opening jump is still pending. -/
def finish : Assembler → Except CompileError Program × Assembler
  | ⟨instructions, []⟩ => (.ok ⟨instructions⟩, empty)
  | ⟨instructions, bracket :: pending⟩ =>
    (.error (.unmatchedOpen bracket.start), ⟨instructions, bracket :: pending⟩)

/--
Assembles a source. The assembler starts over, whatever an earlier source
left in it; the one returned holds what this source leaves.
-/
def compile (assembler : Assembler) (alphabet : Alphabet) (source : String) :
    Except CompileError Program × Assembler :=
  match absorb alphabet assembler.reset 0 source.toList with
  | (.ok (), assembler) => assembler.finish
  | (.error error, assembler) => (.error error, assembler)

/-- Starting over leaves nothing of what was there. -/
@[simp] theorem reset_eq_empty (assembler : Assembler) : assembler.reset = empty := rfl

/-- The loops linked so far, in the order of their closing jumps. -/
def links (assembler : Assembler) : List Program.Link :=
  Program.links ⟨assembler.instructions⟩

end Assembler

/-- The program of a source written in an alphabet. -/
def compile (alphabet : Alphabet) (source : String) : Except CompileError Program :=
  (Assembler.empty.compile alphabet source).1

end TapeLang
