/-!
# The tape

The memory of a machine is a ring of 16-bit cells with a pointer to the
current one. Moving past either end comes out at the other, and counting past
either end of a cell's range does too, so no operation on a tape can fail.
Only making one can: a tape needs memory. What memory there is comes from
outside, so `Tape.allocate` is given it; what would exceed any memory is
refused without asking for it.

## Main results

* `Tape.size_forward`, `Tape.size_backward`, `Tape.size_set` — no operation
  changes the number of cells.
* `Tape.pointer_forward`, `Tape.pointer_backward` — both moves, modulo the
  number of cells.
-/

namespace TapeLang

/-! ## Lengths -/

/-- A number of cells that a tape can have: at least one. -/
structure TapeLength where
  /-- The number of cells. -/
  cells : Nat
  /-- There is at least one. -/
  pos : 0 < cells
  deriving DecidableEq, Repr

namespace TapeLength

/-- The length of a tape when none is asked for. -/
def default : TapeLength := ⟨65535, by decide⟩

/-- The length of that many cells, unless there are none. -/
def ofNat? (cells : Nat) : Option TapeLength :=
  if h : 0 < cells then some ⟨cells, h⟩ else none

/-- Lengths are counted in 64 bits. -/
def bound : Nat := 0x10000000000000000

/-- Why a text is not a length. -/
inductive ParseError where
  /-- There is no text. -/
  | empty
  /-- A character is not a decimal digit. -/
  | invalidDigit
  /-- The number is out of the range of lengths. -/
  | tooLarge
  /-- The number is zero. -/
  | zero
  deriving DecidableEq, Repr

/-- The wording of an error. -/
def ParseError.message : ParseError → String
  | .empty => "cannot parse integer from empty string"
  | .invalidDigit => "invalid digit found in string"
  | .tooLarge => "number too large to fit in target type"
  | .zero => "number would be zero for non-zero type"

/-- The value of a decimal digit. -/
def digit? (c : Char) : Option Nat :=
  if '0' ≤ c ∧ c ≤ '9' then some (c.toNat - '0'.toNat) else none

/--
Reads the digits of a number from the left, onto the value read so far. The
first character that is no digit, or that takes the number out of range,
decides the error.
-/
def readDigits (value : Nat) : List Char → Except ParseError Nat
  | [] => .ok value
  | c :: rest =>
    match digit? c with
    | none => .error .invalidDigit
    | some digit =>
      if value * 10 + digit < bound then readDigits (value * 10 + digit) rest
      else .error .tooLarge

/-- Reads a decimal number, which may have a plus sign before its digits. -/
def readNumber : List Char → Except ParseError Nat
  | [] => .error .empty
  | ['+'] => .error .invalidDigit
  | '+' :: digits => readDigits 0 digits
  | digits => readDigits 0 digits

/-- Reads a length in decimal. -/
def parse (text : String) : Except ParseError TapeLength :=
  match readNumber text.toList with
  | .error error => .error error
  | .ok number =>
    match ofNat? number with
    | some length => .ok length
    | none => .error .zero

end TapeLength

/-! ## Memory -/

/-- Why there is no memory for a tape. -/
inductive AllocationError where
  /-- The tape would be larger than any memory can be. -/
  | capacityOverflow
  /-- The memory that the tape needs is not granted. -/
  | outOfMemory
  deriving DecidableEq, Repr

/-- The wording of an error. -/
def AllocationError.message : AllocationError → String
  | .capacityOverflow =>
    "memory allocation failed because the computed capacity exceeded the collection's maximum"
  | .outOfMemory =>
    "memory allocation failed because the memory allocator returned an error"

/-- The memory that tapes are made in. -/
structure Memory where
  /-- Whether a number of bytes is granted when it is asked for. -/
  grants : Nat → Bool

namespace TapeLength

/-- The number of bytes that the cells of a tape take. -/
def bytes (length : TapeLength) : Nat := 2 * length.cells

/-- More bytes than this are never asked for. -/
def requestLimit : Nat := 0x7fffffffffffffff

/-- The reason why a tape of a length cannot be had in a memory, if there is one. -/
def allocationError? (memory : Memory) (length : TapeLength) : Option AllocationError :=
  if requestLimit < length.bytes then some .capacityOverflow
  else if memory.grants length.bytes then none
  else some .outOfMemory

end TapeLength

/-! ## Tapes -/

/-- The value of a cell, counted modulo 65536. -/
abbrev Cell := UInt16

/-- A ring of cells and the position of the current one. -/
@[ext]
structure Tape where
  /-- The cells in order. -/
  cells : Array Cell
  /-- The position of the current cell. -/
  pointer : Nat
  /-- The pointer is at a cell. -/
  pointer_lt : pointer < cells.size

namespace Tape

/-- The tape of a length with all cells zero and the pointer at the first. -/
def blank (length : TapeLength) : Tape where
  cells := Array.replicate length.cells 0
  pointer := 0
  pointer_lt := by simpa using length.pos

/-- The blank tape of a length, if there is memory for it. -/
def allocate (memory : Memory) (length : TapeLength) : Except AllocationError Tape :=
  match length.allocationError? memory with
  | some error => .error error
  | none => .ok (blank length)

/-- The number of cells. -/
def size (tape : Tape) : Nat := tape.cells.size

/-- Whether there are no cells, which is never so. -/
def isEmpty (tape : Tape) : Bool := tape.cells.isEmpty

theorem size_pos (tape : Tape) : 0 < tape.size :=
  Nat.lt_of_le_of_lt (Nat.zero_le _) tape.pointer_lt

/-- The value of the current cell. -/
def get (tape : Tape) : Cell :=
  have := tape.pointer_lt
  tape.cells[tape.pointer]

/-- Gives the current cell a value. -/
def set (tape : Tape) (value : Cell) : Tape :=
  match tape with
  | ⟨cells, pointer, pointer_lt⟩ =>
    ⟨cells.set pointer value pointer_lt, pointer, by simpa using pointer_lt⟩

/-- Gives the current cell the value that a function makes of its value. -/
def update (tape : Tape) (change : Cell → Cell) : Tape :=
  tape.set (change tape.get)

/-- Adds one to the current cell; the highest value is followed by zero. -/
def increment (tape : Tape) : Tape := tape.update (· + 1)

/-- Takes one from the current cell; zero is followed by the highest value. -/
def decrement (tape : Tape) : Tape := tape.update (· - 1)

/-- Moves the pointer to the next cell; the last cell is followed by the first. -/
def forward (tape : Tape) : Tape :=
  if h : tape.pointer + 1 < tape.cells.size then
    { tape with pointer := tape.pointer + 1, pointer_lt := h }
  else
    { tape with pointer := 0, pointer_lt := tape.size_pos }

/-- Moves the pointer to the cell before; the first cell comes after the last. -/
def backward (tape : Tape) : Tape :=
  if tape.pointer = 0 then
    { tape with
      pointer := tape.cells.size - 1
      pointer_lt := Nat.sub_lt tape.size_pos Nat.one_pos }
  else
    { tape with
      pointer := tape.pointer - 1
      pointer_lt := Nat.lt_of_le_of_lt (Nat.sub_le ..) tape.pointer_lt }

/-- Makes all cells zero and moves the pointer to the first. -/
def clear (tape : Tape) : Tape where
  cells := Array.replicate tape.size 0
  pointer := 0
  pointer_lt := by simpa using tape.size_pos

/-- The cells that are not zero, with their positions, in order. -/
def nonZero (tape : Tape) : List (Nat × Cell) :=
  tape.cells.toList.zipIdx.filterMap fun (cell, position) =>
    if cell = 0 then none else some (position, cell)

/-! ## Sizes -/

@[simp] theorem size_blank (length : TapeLength) : (blank length).size = length.cells := by
  simp [blank, size]

@[simp] theorem size_set (tape : Tape) (value : Cell) : (tape.set value).size = tape.size := by
  simp [set, size]

@[simp] theorem size_increment (tape : Tape) : tape.increment.size = tape.size := by
  simp [increment, update]

@[simp] theorem size_decrement (tape : Tape) : tape.decrement.size = tape.size := by
  simp [decrement, update]

@[simp] theorem size_forward (tape : Tape) : tape.forward.size = tape.size := by
  unfold forward; split <;> rfl

@[simp] theorem size_backward (tape : Tape) : tape.backward.size = tape.size := by
  unfold backward; split <;> rfl

@[simp] theorem size_clear (tape : Tape) : tape.clear.size = tape.size := by
  simp [clear, size]

/-! ## Cells and pointer -/

@[simp] theorem cells_set (tape : Tape) (value : Cell) :
    (tape.set value).cells = tape.cells.set tape.pointer value tape.pointer_lt := rfl

@[simp] theorem pointer_set (tape : Tape) (value : Cell) :
    (tape.set value).pointer = tape.pointer := rfl

@[simp] theorem cells_forward (tape : Tape) : tape.forward.cells = tape.cells := by
  unfold forward; split <;> rfl

@[simp] theorem cells_backward (tape : Tape) : tape.backward.cells = tape.cells := by
  unfold backward; split <;> rfl

theorem getElem?_pointer (tape : Tape) : tape.cells[tape.pointer]? = some tape.get :=
  Array.getElem?_eq_getElem tape.pointer_lt

theorem pointer_forward_of_lt {tape : Tape} (h : tape.pointer + 1 < tape.size) :
    tape.forward.pointer = tape.pointer + 1 := by
  unfold forward
  split
  · rfl
  · next hLast => exact absurd h hLast

theorem pointer_forward_of_last {tape : Tape} (h : tape.pointer + 1 = tape.size) :
    tape.forward.pointer = 0 := by
  unfold forward
  split
  · next hLess => exact absurd h (Nat.ne_of_lt hLess)
  · rfl

theorem pointer_backward_of_pos {tape : Tape} (h : 0 < tape.pointer) :
    tape.backward.pointer = tape.pointer - 1 := by
  unfold backward
  split
  · next hFirst => exact absurd hFirst (Nat.ne_of_gt h)
  · rfl

theorem pointer_backward_of_zero {tape : Tape} (h : tape.pointer = 0) :
    tape.backward.pointer = tape.size - 1 := by
  unfold backward
  split
  · rfl
  · next hPos => exact absurd h hPos

/-- The two ways of moving forward are one, counted modulo the number of cells. -/
theorem pointer_forward (tape : Tape) :
    tape.forward.pointer = (tape.pointer + 1) % tape.size := by
  have hPointer : tape.pointer < tape.size := tape.pointer_lt
  by_cases hNext : tape.pointer + 1 < tape.size
  · rw [pointer_forward_of_lt hNext, Nat.mod_eq_of_lt hNext]
  · have hLast : tape.pointer + 1 = tape.size := by omega
    rw [pointer_forward_of_last hLast, hLast, Nat.mod_self]

/-- Moving backward is moving forward by one cell less than there are. -/
theorem pointer_backward (tape : Tape) :
    tape.backward.pointer = (tape.pointer + (tape.size - 1)) % tape.size := by
  have hPointer : tape.pointer < tape.size := tape.pointer_lt
  by_cases hFirst : tape.pointer = 0
  · rw [pointer_backward_of_zero hFirst, hFirst, Nat.zero_add, Nat.mod_eq_of_lt (by omega)]
  · have hSum : tape.pointer + (tape.size - 1) = tape.pointer - 1 + tape.size := by omega
    rw [pointer_backward_of_pos (by omega), hSum, Nat.add_mod_right, Nat.mod_eq_of_lt (by omega)]

end Tape

end TapeLang
