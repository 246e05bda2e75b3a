import Mathlib.Data.Int.ModEq
import Mathlib.Data.List.Basic
import TapeLang.Tape

/-!
# The tape as a memory on a ring

Forward and backward wrap in different ways, and which cell an increment meets
depends on all the moves before it.  Still a tape has a simple law.  The pointer
is where the moves lead, counted modulo the number of cells.  A cell depends on
nothing but what was done while the pointer was there (`Tape.doneAt`): it holds
what it was last set to, plus the increments and minus the decrements since,
modulo 65536.

The law is proved in two steps.  A cell is what the edits done at it make of its
old value (`Tape.cell_edited`), by induction along the edits; and what a list of
edits makes of one value is a matter of counting (`Tape.alterAll_quiet`,
`Tape.alterAll_set`).

Two sequences without sets are then told apart by two numbers alone, the net
movement and the net increment at each distance from the start.

## Main results

* `Tape.pointer_edited`, `Tape.cell_edited` — the pointer and the cells after edits.
* `Tape.perform_eq_iff` — when two sequences do the same to every tape of a length.
* `Tape.perform_undo` — what undoes a sequence.
* `tape_is_ring_memory` — the law as a whole.
-/

namespace TapeLang

/-! ## Operations on a tape alone -/

/-- An operation that needs nothing but the tape. -/
inductive QuietOperation where
  | forward
  | backward
  | increment
  | decrement
  deriving DecidableEq, Repr

/-- The operation that takes back what an operation does. -/
def QuietOperation.opposite : QuietOperation → QuietOperation
  | .forward => .backward
  | .backward => .forward
  | .increment => .decrement
  | .decrement => .increment

/-- Carries out an operation. -/
def QuietOperation.apply (tape : Tape) : QuietOperation → Tape
  | .forward => tape.forward
  | .backward => tape.backward
  | .increment => tape.increment
  | .decrement => tape.decrement

namespace Tape

/-- What can be done to a tape without making all of it anew. -/
inductive Edit where
  | quiet (operation : QuietOperation)
  | set (value : Cell)
  deriving DecidableEq, Repr

/-- The tape after an edit. -/
def edit (tape : Tape) : Edit → Tape
  | .quiet operation => operation.apply tape
  | .set value => tape.set value

/-- The tape after edits, one after the other. -/
def edited (tape : Tape) (edits : List Edit) : Tape := edits.foldl edit tape

@[simp] theorem edited_cons (tape : Tape) (edit : Edit) (rest : List Edit) :
    tape.edited (edit :: rest) = (tape.edit edit).edited rest := rfl

theorem edited_append (tape : Tape) (first second : List Edit) :
    tape.edited (first ++ second) = (tape.edited first).edited second :=
  List.foldl_append

/-! ## Counting edits -/

/-- How far edits move the pointer: the moves forward less the moves backward. -/
def movement (edits : List Edit) : Int :=
  edits.count (.quiet .forward) - edits.count (.quiet .backward)

/-- What edits add to a cell: the increments less the decrements. -/
def increase (edits : List Edit) : Int :=
  edits.count (.quiet .increment) - edits.count (.quiet .decrement)

/-- Where edits lead on a ring of `n` cells, from the cell `p`. -/
def position (n p : Nat) (edits : List Edit) : Nat := ((p + movement edits) % n).toNat

/-- The edits that are done at the cell `i` of `n`, in order, if the pointer starts at `p`. -/
def doneAt (n p i : Nat) (edits : List Edit) : List Edit :=
  edits.zipIdx.filterMap fun (edit, count) =>
    if position n p (edits.take count) = i then some edit else none

@[simp] theorem movement_nil : movement [] = 0 := rfl

theorem movement_append (first second : List Edit) :
    movement (first ++ second) = movement first + movement second := by
  simp only [movement, List.count_append]
  omega

theorem increase_append (first second : List Edit) :
    increase (first ++ second) = increase first + increase second := by
  simp only [increase, List.count_append]
  omega

theorem position_cast {n : Nat} (hn : 0 < n) (p : Nat) (edits : List Edit) :
    (position n p edits : Int) = (p + movement edits) % n :=
  Int.toNat_of_nonneg (Int.emod_nonneg _ (by omega))

/-- Edits that move as far forward as backward lead nowhere. -/
theorem position_of_movement_eq_zero {n p : Nat} (hp : p < n) {edits : List Edit}
    (h : movement edits = 0) : position n p edits = p := by
  have hCast := position_cast (by omega : 0 < n) p edits
  rw [h, Int.add_zero, Int.emod_eq_of_lt (by omega) (by omega)] at hCast
  exact_mod_cast hCast

/-- Edits lead on from where the edits before them led. -/
theorem position_append {n : Nat} (hn : 0 < n) (p : Nat) (first second : List Edit) :
    position n p (first ++ second) = position n (position n p first) second := by
  have hCast : (position n p (first ++ second) : Int) =
      position n (position n p first) second := by
    rw [position_cast hn, position_cast hn, position_cast hn, movement_append, Int.emod_add_emod,
      Int.add_assoc]
  exact_mod_cast hCast

/-- The first edit is done where the pointer starts, and the others from where it leads. -/
theorem doneAt_cons {n p : Nat} (hp : p < n) (i : Nat) (edit : Edit) (rest : List Edit) :
    doneAt n p i (edit :: rest) =
      (if p = i then [edit] else []) ++ doneAt n (position n p [edit]) i rest := by
  have hRest : (rest.zipIdx 1).filterMap (fun (later, count) =>
      if position n p ((edit :: rest).take count) = i then some later else none) =
        doneAt n (position n p [edit]) i rest := by
    rw [List.zipIdx_succ, List.filterMap_map]
    apply List.filterMap_congr
    rintro ⟨later, count⟩ _
    show (if position n p ([edit] ++ rest.take count) = i then some later else none) = _
    rw [position_append (by omega)]
  rw [doneAt, List.zipIdx_cons, List.filterMap_cons, hRest]
  simp only [List.take_zero, position_of_movement_eq_zero hp movement_nil]
  by_cases hHere : p = i
  · rw [if_pos hHere, if_pos hHere]
    rfl
  · rw [if_neg hHere, if_neg hHere]
    rfl

/-- Whether the pointer starts further on does not matter at the cells further on. -/
theorem doneAt_turn {n o : Nat} (ho : o < n) (p : Nat) (edits : List Edit) :
    doneAt n p ((p + o) % n) edits = doneAt n 0 o edits := by
  have hn : 0 < n := by omega
  apply List.filterMap_congr
  rintro ⟨edit, count⟩ _
  have hSame : position n p (edits.take count) = (p + o) % n ↔
      position n 0 (edits.take count) = o := by
    have hHere := position_cast hn p (edits.take count)
    have hThere := position_cast hn 0 (edits.take count)
    have hLess : (o : Int) % n = o := Int.emod_eq_of_lt (by omega) (by omega)
    rw [Int.natCast_zero, Int.zero_add] at hThere
    rw [← Int.ofNat_inj, ← Int.ofNat_inj, hHere, hThere, Int.natCast_emod, Int.natCast_add]
    constructor
    · intro h
      rw [← hLess]
      exact Int.ModEq.add_left_cancel' p h
    · intro h
      rw [← hLess] at h
      exact Int.ModEq.add_left p h
  simp only [hSame]

/-! ## One edit -/

/-- The value of the cell at a position. -/
def cell (tape : Tape) (i : Nat) : Cell := tape.cells.getD i 0

theorem cell_pointer (tape : Tape) : tape.cell tape.pointer = tape.get := by
  simp [cell, Array.getD_eq_getD_getElem?, tape.getElem?_pointer]

theorem cell_set (tape : Tape) (value : Cell) (i : Nat) :
    (tape.set value).cell i = if tape.pointer = i then value else tape.cell i := by
  simp only [cell, Array.getD_eq_getD_getElem?, cells_set, Array.getElem?_set]
  split <;> rfl

@[simp] theorem cell_blank (length : TapeLength) (i : Nat) : (blank length).cell i = 0 := by
  simp only [cell, blank, Array.getD_eq_getD_getElem?, Array.getElem?_replicate]
  split <;> rfl

/-- Tapes of the same size, with the pointer at the same cell and the same cells, are the same. -/
theorem eq_of_cell_eq {tape other : Tape} (hSize : tape.size = other.size)
    (hPointer : tape.pointer = other.pointer)
    (hCell : ∀ i : Nat, i < tape.size → tape.cell i = other.cell i) : tape = other := by
  refine Tape.ext (Array.ext hSize fun i hi hi' => ?_) hPointer
  have hAt := hCell i hi
  simpa [cell, hi, hi'] using hAt

/-- What an edit makes of the value of the current cell. -/
def Edit.alter : Edit → Cell → Cell
  | .quiet .increment, value => value + 1
  | .quiet .decrement, value => value - 1
  | .quiet _, value => value
  | .set value, _ => value

theorem size_edit (tape : Tape) (edit : Edit) : (tape.edit edit).size = tape.size := by
  cases edit with
  | quiet operation => cases operation <;> simp [Tape.edit, QuietOperation.apply]
  | set value => exact tape.size_set value

/-- An edit moves the pointer as far as it should, around the ring. -/
theorem pointer_edit (tape : Tape) (edit : Edit) :
    (tape.edit edit).pointer = position tape.size tape.pointer [edit] := by
  have hPointer : tape.pointer < tape.size := tape.pointer_lt
  have hCast := position_cast tape.size_pos tape.pointer [edit]
  cases edit with
  | quiet operation =>
      cases operation with
      | forward =>
          show tape.forward.pointer = _
          rw [pointer_forward]
          have hMove : movement [.quiet .forward] = 1 := rfl
          rw [hMove] at hCast
          exact_mod_cast hCast.symm
      | backward =>
          show tape.backward.pointer = _
          rw [pointer_backward]
          have hMove : movement [.quiet .backward] = -1 := rfl
          rw [hMove, ← Int.add_emod_right] at hCast
          have hSum : (tape.pointer : Int) + -1 + tape.size =
              ((tape.pointer + (tape.size - 1) : Nat) : Int) := by omega
          rw [hSum] at hCast
          exact_mod_cast hCast.symm
      | increment => exact (position_of_movement_eq_zero hPointer rfl).symm
      | decrement => exact (position_of_movement_eq_zero hPointer rfl).symm
  | set value => exact (position_of_movement_eq_zero hPointer rfl).symm

/-- An edit changes the current cell and no other. -/
theorem cell_edit (tape : Tape) (edit : Edit) (i : Nat) :
    (tape.edit edit).cell i = if tape.pointer = i then edit.alter (tape.cell i) else tape.cell i := by
  cases edit with
  | quiet operation =>
      cases operation with
      | forward =>
          show tape.forward.cell i = _
          rw [cell, cells_forward]
          exact (ite_self _).symm
      | backward =>
          show tape.backward.cell i = _
          rw [cell, cells_backward]
          exact (ite_self _).symm
      | increment =>
          show (tape.set (tape.get + 1)).cell i = _
          rw [cell_set]
          split
          · next hHere => rw [← hHere, cell_pointer]; rfl
          · rfl
      | decrement =>
          show (tape.set (tape.get - 1)).cell i = _
          rw [cell_set]
          split
          · next hHere => rw [← hHere, cell_pointer]; rfl
          · rfl
  | set value => exact cell_set tape value i

/-! ## Edits one after the other -/

@[simp] theorem size_edited (tape : Tape) (edits : List Edit) :
    (tape.edited edits).size = tape.size := by
  induction edits generalizing tape with
  | nil => rfl
  | cons edit rest ih => rw [edited_cons, ih, size_edit]

/-- The pointer is where the moves lead. -/
theorem pointer_edited (tape : Tape) (edits : List Edit) :
    (tape.edited edits).pointer = position tape.size tape.pointer edits := by
  induction edits generalizing tape with
  | nil => exact (position_of_movement_eq_zero tape.pointer_lt movement_nil).symm
  | cons edit rest ih =>
      rw [edited_cons, ih, size_edit, pointer_edit, ← position_append tape.size_pos]
      rfl

/-- What edits make of one value. -/
def alterAll (edits : List Edit) (value : Cell) : Cell :=
  edits.foldl (fun value edit => edit.alter value) value

/-- A cell is what the edits done at it make of its old value. -/
theorem cell_edited (tape : Tape) (edits : List Edit) (i : Nat) :
    (tape.edited edits).cell i =
      alterAll (doneAt tape.size tape.pointer i edits) (tape.cell i) := by
  induction edits generalizing tape with
  | nil => rfl
  | cons edit rest ih =>
      have hDone := doneAt_cons tape.pointer_lt i edit rest
      rw [edited_cons, ih, size_edit, pointer_edit, cell_edit, Tape.size, hDone]
      split <;> rfl

/-! ## One cell -/

/-- An edit that sets nothing counts the value up or down. -/
theorem alter_quiet (operation : QuietOperation) (value : Cell) :
    (((Edit.quiet operation).alter value).toNat : Int) =
      (value.toNat + increase [.quiet operation]) % 65536 := by
  have hValue : value.toNat < 65536 := value.toNat_lt
  cases operation with
  | forward =>
      show (value.toNat : Int) = (value.toNat + 0) % 65536
      omega
  | backward =>
      show (value.toNat : Int) = (value.toNat + 0) % 65536
      omega
  | increment =>
      show ((value + 1).toNat : Int) = (value.toNat + 1) % 65536
      rw [UInt16.toNat_add, UInt16.toNat_one]
      omega
  | decrement =>
      show ((value - 1).toNat : Int) = (value.toNat + -1) % 65536
      rw [UInt16.toNat_sub, UInt16.toNat_one]
      omega

/-- Without a set, a value grows by the increments less the decrements. -/
theorem alterAll_quiet {edits : List Edit} (h : ∀ value : Cell, .set value ∉ edits) (old : Cell) :
    ((alterAll edits old).toNat : Int) = (old.toNat + increase edits) % 65536 := by
  induction edits generalizing old with
  | nil =>
      have hOld : old.toNat < 65536 := old.toNat_lt
      show (old.toNat : Int) = (old.toNat + 0) % 65536
      omega
  | cons edit rest ih =>
      have hRest : ∀ value : Cell, .set value ∉ rest := fun value hValue =>
        h value (List.mem_cons_of_mem edit hValue)
      cases edit with
      | quiet operation =>
          show ((alterAll rest ((Edit.quiet operation).alter old)).toNat : Int) = _
          rw [ih hRest, alter_quiet, Int.emod_add_emod, Int.add_assoc, ← increase_append]
          rfl
      | set value => exact absurd List.mem_cons_self (h value)

/-- What was done before a set is lost. -/
theorem alterAll_set (earlier later : List Edit) (value old : Cell) :
    alterAll (earlier ++ .set value :: later) old = alterAll later value :=
  List.foldl_append

/-! ## Sequences without sets -/

/-- The tape after operations, one after the other. -/
def perform (tape : Tape) (operations : List QuietOperation) : Tape :=
  tape.edited (operations.map .quiet)

/-- How far operations move the pointer in the end. -/
def netMovement (operations : List QuietOperation) : Int := movement (operations.map .quiet)

/-- What operations add to the cell `i` of `n` in the end, if the pointer starts at `p`. -/
def netIncrement (n p i : Nat) (operations : List QuietOperation) : Int :=
  increase (doneAt n p i (operations.map .quiet))

/-- The opposite operations, from the last to the first. -/
def undo (operations : List QuietOperation) : List QuietOperation :=
  (operations.map QuietOperation.opposite).reverse

@[simp] theorem size_perform (tape : Tape) (operations : List QuietOperation) :
    (tape.perform operations).size = tape.size :=
  tape.size_edited _

theorem pointer_perform (tape : Tape) (operations : List QuietOperation) :
    ((tape.perform operations).pointer : Int) =
      (tape.pointer + netMovement operations) % tape.size := by
  rw [perform, pointer_edited, position_cast tape.size_pos]
  rfl

theorem cell_perform (tape : Tape) (operations : List QuietOperation) (i : Nat) :
    (((tape.perform operations).cell i).toNat : Int) =
      ((tape.cell i).toNat + netIncrement tape.size tape.pointer i operations) % 65536 := by
  have hQuiet : ∀ value : Cell,
      .set value ∉ doneAt tape.size tape.pointer i (operations.map .quiet) := by
    intro value hMem
    obtain ⟨⟨edit, count⟩, hEdit, hSome⟩ := List.mem_filterMap.1 hMem
    have hAll := List.fst_mem_of_mem_zipIdx hEdit
    obtain ⟨operation, _, rfl⟩ := List.mem_map.1 hAll
    rw [Option.ite_none_right_eq_some] at hSome
    cases hSome.2
  rw [perform, cell_edited]
  exact alterAll_quiet hQuiet (tape.cell i)

/-- Every cell lies at some distance from the pointer. -/
theorem exists_offset (tape : Tape) {i : Nat} (hi : i < tape.size) :
    ∃ o : Nat, o < tape.size ∧ i = (tape.pointer + o) % tape.size := by
  have hPointer : tape.pointer < tape.size := tape.pointer_lt
  by_cases hLess : tape.pointer ≤ i
  · refine ⟨i - tape.pointer, by omega, ?_⟩
    rw [Nat.add_sub_cancel' hLess, Nat.mod_eq_of_lt hi]
  · refine ⟨i + tape.size - tape.pointer, by omega, ?_⟩
    rw [Nat.add_sub_cancel' (by omega), Nat.add_mod_right, Nat.mod_eq_of_lt hi]

/--
Two sequences do the same to every tape of a length exactly if they move as far
around it and add the same at each distance from the start.
-/
theorem perform_eq_iff (length : TapeLength) (first second : List QuietOperation) :
    (∀ tape : Tape, tape.size = length.cells → tape.perform first = tape.perform second) ↔
      netMovement first ≡ netMovement second [ZMOD length.cells] ∧
        ∀ o : Nat, o < length.cells →
          netIncrement length.cells 0 o first ≡ netIncrement length.cells 0 o second
            [ZMOD 65536] := by
  constructor
  · intro h
    -- the blank tape shows the two numbers
    have hBlank := h (blank length) (size_blank length)
    constructor
    · have hFirst := (blank length).pointer_perform first
      have hSecond := (blank length).pointer_perform second
      rw [hBlank, hSecond, size_blank] at hFirst
      simpa [Int.ModEq, blank] using hFirst.symm
    · intro o _
      have hFirst := (blank length).cell_perform first o
      have hSecond := (blank length).cell_perform second o
      rw [hBlank, hSecond, size_blank, cell_blank] at hFirst
      simpa [Int.ModEq, blank] using hFirst.symm
  · rintro ⟨hMovement, hIncrement⟩ tape hSize
    rw [← hSize] at hMovement hIncrement
    refine eq_of_cell_eq (by rw [size_perform, size_perform]) ?_ fun i hi => ?_
    · have hPointers : ((tape.perform first).pointer : Int) = (tape.perform second).pointer := by
        rw [pointer_perform, pointer_perform]
        exact hMovement.add_left _
      exact_mod_cast hPointers
    · rw [size_perform] at hi
      obtain ⟨o, ho, rfl⟩ := tape.exists_offset hi
      have hCells : (((tape.perform first).cell ((tape.pointer + o) % tape.size)).toNat : Int) =
          ((tape.perform second).cell ((tape.pointer + o) % tape.size)).toNat := by
        rw [cell_perform, cell_perform, netIncrement, netIncrement, doneAt_turn ho, doneAt_turn ho]
        exact (hIncrement o ho).add_left _
      exact UInt16.toNat_inj.1 (by exact_mod_cast hCells)

/-- The opposite of an operation takes it back. -/
theorem apply_opposite (tape : Tape) (operation : QuietOperation) :
    operation.opposite.apply (operation.apply tape) = tape := by
  show (tape.edit (.quiet operation)).edit (.quiet operation.opposite) = tape
  have hMovement : movement ([.quiet operation] ++ [.quiet operation.opposite]) = 0 := by
    cases operation <;> rfl
  refine eq_of_cell_eq (by rw [size_edit, size_edit]) ?_ fun i _ => ?_
  · rw [pointer_edit, pointer_edit, size_edit, ← position_append tape.size_pos]
    exact position_of_movement_eq_zero tape.pointer_lt hMovement
  · rw [cell_edit, cell_edit]
    -- a move alters no value; counting up and down happens at one and the same cell
    cases operation with
    | forward => simp [Edit.alter, QuietOperation.opposite]
    | backward => simp [Edit.alter, QuietOperation.opposite]
    | increment =>
        show (if tape.pointer = i then _ else _) = _
        split <;> simp [Edit.alter, QuietOperation.opposite]
    | decrement =>
        show (if tape.pointer = i then _ else _) = _
        split <;> simp [Edit.alter, QuietOperation.opposite]

/-- A sequence is undone by the opposite operations in reverse. -/
theorem perform_undo (tape : Tape) (operations : List QuietOperation) :
    (tape.perform operations).perform (undo operations) = tape := by
  induction operations generalizing tape with
  | nil => rfl
  | cons operation rest ih =>
      have hUndo : undo (operation :: rest) = undo rest ++ [operation.opposite] := by
        simp [undo]
      rw [hUndo, perform, List.map_append, edited_append]
      show operation.opposite.apply
        (((operation.apply tape).perform rest).perform (undo rest)) = tape
      rw [ih, apply_opposite]

end Tape

/--
**A tape is an ideal memory on a ring.**  Take any tape of a length, whatever was done
to it before.  Edits keep its length.  They leave the pointer where the moves lead, counted
around the ring.  Each cell then holds what it was last set to while the pointer was at
it, or its old value if it was not set, plus the increments and less the decrements done
there since, modulo 65536.

Hence two sequences without sets do the same to every tape of the length if and only
if they have the same net movement around it and, at every distance from the start,
the same net increment modulo 65536.  And every such sequence is undone by its
reverse with forward and backward, increment and decrement exchanged.
-/
theorem tape_is_ring_memory (length : TapeLength) :
    (∀ (tape : Tape) (edits : List Tape.Edit), tape.size = length.cells →
      (tape.edited edits).size = length.cells ∧
      ((tape.edited edits).pointer : Int) =
        (tape.pointer + Tape.movement edits) % length.cells ∧
      ∀ i : Nat, i < length.cells →
        (∀ (earlier later : List Tape.Edit) (value : Cell),
          Tape.doneAt length.cells tape.pointer i edits = earlier ++ .set value :: later →
          (∀ other : Cell, .set other ∉ later) →
            (((tape.edited edits).cell i).toNat : Int) =
              (value.toNat + Tape.increase later) % 65536) ∧
        ((∀ value : Cell, .set value ∉ Tape.doneAt length.cells tape.pointer i edits) →
          (((tape.edited edits).cell i).toNat : Int) =
            ((tape.cell i).toNat +
              Tape.increase (Tape.doneAt length.cells tape.pointer i edits)) % 65536)) ∧
    (∀ first second : List QuietOperation,
      (∀ tape : Tape, tape.size = length.cells → tape.perform first = tape.perform second) ↔
        Tape.netMovement first ≡ Tape.netMovement second [ZMOD length.cells] ∧
          ∀ offset : Nat, offset < length.cells →
            Tape.netIncrement length.cells 0 offset first ≡
              Tape.netIncrement length.cells 0 offset second [ZMOD 65536]) ∧
    ∀ (tape : Tape) (operations : List QuietOperation), tape.size = length.cells →
      (tape.perform operations).perform (Tape.undo operations) = tape := by
  refine ⟨?_, Tape.perform_eq_iff length, fun tape operations _ => tape.perform_undo operations⟩
  intro tape edits hSize
  rw [← hSize]
  refine ⟨tape.size_edited edits, ?_, fun i _ => ⟨?_, ?_⟩⟩
  · rw [Tape.pointer_edited, Tape.position_cast tape.size_pos]
  · intro earlier later value hDone hLast
    rw [Tape.cell_edited, hDone, Tape.alterAll_set, Tape.alterAll_quiet hLast]
  · intro hQuiet
    rw [Tape.cell_edited, Tape.alterAll_quiet hQuiet]

/-- Backward from the first of three cells, a set to the highest value, and two increments. -/
theorem tape_is_ring_memory_three_cells :
    Tape.doneAt 3 0 2
        [.quiet .increment, .quiet .backward, .set 65535, .quiet .increment, .quiet .increment] =
      [] ++ .set 65535 :: [.quiet .increment, .quiet .increment] ∧
    ((((Tape.blank ⟨3, by decide⟩).edited
        [.quiet .increment, .quiet .backward, .set 65535, .quiet .increment,
          .quiet .increment]).cell 2).toNat : Int) = 1 := by
  have hDone : Tape.doneAt 3 0 2
        [.quiet .increment, .quiet .backward, .set 65535, .quiet .increment, .quiet .increment] =
      [] ++ .set 65535 :: [.quiet .increment, .quiet .increment] := by decide
  obtain ⟨hLaw, _⟩ := tape_is_ring_memory ⟨3, by decide⟩
  obtain ⟨_, _, hCells⟩ := hLaw (.blank ⟨3, by decide⟩) _ rfl
  exact ⟨hDone, (hCells 2 (by decide)).1 [] _ 65535 hDone (by simp)⟩

end TapeLang
