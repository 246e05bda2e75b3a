/-!
# Operations

The eight operations of the language, in their listing order. The order is
part of the language: an alphabet assigns its symbols by it, and the source
generators pick operations by their position in it.

## Main results

* `Operation.ofIndex_index`, `Operation.index_ofIndex` — an operation and its
  position determine each other.
* `Operation.mem_all` — the listing is complete.
-/

namespace TapeLang

/-- An operation of the language. -/
inductive Operation where
  /-- Move the data pointer one cell forward. -/
  | forward
  /-- Move the data pointer one cell backward. -/
  | backward
  /-- Add one to the current cell. -/
  | increment
  /-- Take one from the current cell. -/
  | decrement
  /-- Write the low byte of the current cell. -/
  | write
  /-- Read one byte into the current cell. -/
  | read
  /-- Open a loop: jump to the partner if the current cell is zero. -/
  | jumpIfZero
  /-- Close a loop: jump to the partner unless the current cell is zero. -/
  | jumpIfNonZero
  deriving DecidableEq, Repr

namespace Operation

/-- Every operation, in listing order. -/
def all : List Operation :=
  [.forward, .backward, .increment, .decrement, .write, .read, .jumpIfZero, .jumpIfNonZero]

/-- The position of an operation in the listing order. -/
def index : Operation → Fin 8
  | .forward => 0
  | .backward => 1
  | .increment => 2
  | .decrement => 3
  | .write => 4
  | .read => 5
  | .jumpIfZero => 6
  | .jumpIfNonZero => 7

/-- The operation at a position of the listing order. -/
def ofIndex (i : Fin 8) : Operation := all.get i

/-- Whether the operation uses its instruction's target. -/
def isJump : Operation → Bool
  | .jumpIfZero | .jumpIfNonZero => true
  | _ => false

/-- The jump that a jump must be linked with. -/
def partner? : Operation → Option Operation
  | .jumpIfZero => some .jumpIfNonZero
  | .jumpIfNonZero => some .jumpIfZero
  | _ => none

/-- The short name, used in listings and messages. -/
def mnemonic : Operation → String
  | .forward => "forward"
  | .backward => "backward"
  | .increment => "increment"
  | .decrement => "decrement"
  | .write => "write"
  | .read => "read"
  | .jumpIfZero => "jump_if_zero"
  | .jumpIfNonZero => "jump_if_non_zero"

/-- The descriptive name. -/
def fullName : Operation → String
  | .forward => "MovePointerForward"
  | .backward => "MovePointerBackward"
  | .increment => "IncrementCell"
  | .decrement => "DecrementCell"
  | .write => "WriteOut"
  | .read => "ReadIn"
  | .jumpIfZero => "JumpIfZero"
  | .jumpIfNonZero => "JumpIfNonZero"

/-- The operation of a short name. -/
def ofMnemonic? (name : String) : Option Operation :=
  all.find? fun operation => operation.mnemonic == name

@[simp] theorem ofIndex_index (operation : Operation) : ofIndex operation.index = operation := by
  cases operation <;> rfl

@[simp] theorem index_ofIndex (i : Fin 8) : (ofIndex i).index = i := by
  revert i; decide

theorem exists_index_eq (i : Fin 8) : ∃ operation : Operation, operation.index = i :=
  ⟨ofIndex i, index_ofIndex i⟩

theorem index_injective {o p : Operation} (h : o.index = p.index) : o = p := by
  rw [← ofIndex_index o, ← ofIndex_index p, h]

@[simp] theorem mem_all (operation : Operation) : operation ∈ all := by
  cases operation <;> decide

@[simp] theorem isSome_partner? (operation : Operation) :
    operation.partner?.isSome = operation.isJump := by
  cases operation <;> rfl

end Operation

end TapeLang
