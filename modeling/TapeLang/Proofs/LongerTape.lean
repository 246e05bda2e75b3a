import TapeLang.Proofs.Lockstep
import TapeLang.Stream.Script

/-!
# A longer tape

The length of a tape shows only where a move wraps around its end.  A run in which
no move does so goes the same way on any longer tape: it never sees the cells that
the longer tape has in addition, and they stay zero.

The proof is an instance of the lockstep of two runs.  The two tapes are related by
`Tape.Extends`, which a move keeps unless it wraps on the shorter one.

## Main results

* `Tape.extends_congruence` — what operations keep of the relation.
* `longer_tape_is_invisible` — the two runs, at every point.
-/

namespace TapeLang

/-- Whether an operation would move the pointer around the end of the tape. -/
def Tape.wraps (tape : Tape) : Operation → Bool
  | .forward => tape.pointer == tape.size - 1
  | .backward => tape.pointer == 0
  | _ => false

/-- Whether the next instruction moves the pointer around the end of the tape. -/
def Machine.wraps (program : Program) (machine : Machine) : Bool :=
  (program.get? machine.pc).any fun instruction => machine.tape.wraps instruction.operation

namespace Tape

variable {short long : TapeLength} {tape longer : Tape}

/-- The longer tape has the same pointer and begins with the same cells; the others are zero. -/
structure Extends (short long : TapeLength) (tape longer : Tape) : Prop where
  size : tape.size = short.cells
  size_longer : longer.size = long.cells
  pointer : longer.pointer = tape.pointer
  same : ∀ i : Nat, i < short.cells → longer.cells[i]? = tape.cells[i]?
  zero : ∀ i : Nat, short.cells ≤ i → i < long.cells → longer.cells[i]? = some 0

theorem Extends.pointer_lt (h : Extends short long tape longer) : tape.pointer < short.cells := by
  rw [← h.size]
  exact tape.pointer_lt

theorem Extends.get (h : Extends short long tape longer) : longer.get = tape.get := by
  have hSame := h.same tape.pointer h.pointer_lt
  rw [← h.pointer, longer.getElem?_pointer, h.pointer, tape.getElem?_pointer] at hSame
  exact Option.some.inj hSame

theorem extends_blank (hLonger : short.cells ≤ long.cells) :
    Extends short long (blank short) (blank long) where
  size := size_blank short
  size_longer := size_blank long
  pointer := rfl
  same := by
    intro i hi
    have hi' : i < long.cells := by omega
    simp [blank, hi, hi']
  zero := by
    intro i _ hi
    simp [blank, hi]

/-- Another position of the pointer, as long as it is the same on both tapes. -/
theorem Extends.move {moved movedLonger : Tape} (h : Extends short long tape longer)
    (hCells : moved.cells = tape.cells) (hCellsLonger : movedLonger.cells = longer.cells)
    (hPointer : movedLonger.pointer = moved.pointer) : Extends short long moved movedLonger where
  size := by rw [Tape.size, hCells]; exact h.size
  size_longer := by rw [Tape.size, hCellsLonger]; exact h.size_longer
  pointer := hPointer
  same := by rw [hCells, hCellsLonger]; exact h.same
  zero := by rw [hCellsLonger]; exact h.zero

/-- Every operation keeps a longer tape in step, except a move that wraps on the shorter one. -/
theorem extends_congruence (hLonger : short.cells ≤ long.cells) :
    Congruence (Extends short long) fun operation tape => tape.wraps operation = false where
  get h := h.get
  set := by
    intro tape longer h value
    have hPointer := h.pointer_lt
    constructor
    case size => rw [size_set, h.size]
    case size_longer => rw [size_set, h.size_longer]
    case pointer => exact h.pointer
    case same =>
      intro i hi
      rw [cells_set, cells_set, Array.getElem?_set, Array.getElem?_set, h.pointer, h.same i hi]
    case zero =>
      intro i hBeyond hi
      have hNe : longer.pointer ≠ i := by rw [h.pointer]; omega
      rw [cells_set, Array.getElem?_set, if_neg hNe, h.zero i hBeyond hi]
  forward := by
    intro tape longer h hInside
    have hPointer := h.pointer_lt
    have hSize := h.size
    have hSizeLonger := h.size_longer
    have hSame := h.pointer
    have hNot : tape.pointer ≠ tape.size - 1 := by simpa [wraps] using hInside
    have hForward : tape.forward.pointer = tape.pointer + 1 := pointer_forward_of_lt (by omega)
    have hForwardLonger : longer.forward.pointer = longer.pointer + 1 :=
      pointer_forward_of_lt (by omega)
    exact h.move tape.cells_forward longer.cells_forward (by omega)
  backward := by
    intro tape longer h hInside
    have hSame := h.pointer
    have hNot : tape.pointer ≠ 0 := by simpa [wraps] using hInside
    have hBackward : tape.backward.pointer = tape.pointer - 1 :=
      pointer_backward_of_pos (by omega)
    have hBackwardLonger : longer.backward.pointer = longer.pointer - 1 :=
      pointer_backward_of_pos (by omega)
    exact h.move tape.cells_backward longer.cells_backward (by omega)

end Tape

/-- A machine whose next instruction does not wrap is free to carry it out. -/
theorem Machine.isFree_of_wraps {program : Program} {machine : Machine}
    (h : machine.wraps program = false) :
    machine.IsFree (fun operation tape => tape.wraps operation = false) program := by
  intro instruction hAt
  unfold wraps at h
  rwa [hAt, Option.any_some] at h

/--
**A longer tape is invisible to a run that does not wrap.**  As long as a run on a
tape makes no move from its last cell forward or from its first cell backward, the
run on a longer tape is at the same address, with the same pointer and the same
value under it, and has made the same calls; it has ended if and only if the first
one has, and in the same way after as many steps.  The longer tape begins with the
cells of the shorter one, and all its other cells are zero.
-/
theorem longer_tape_is_invisible {σ : Type} [Terminal σ] (program : Program)
    (short long : TapeLength) (hLonger : short.cells ≤ long.cells) (terminal : σ) (turns : Nat)
    (hInside : ∀ move ∈ Machine.transitions program turns (Machine.fresh short) terminal,
      move.before.wraps program = false) :
    ((Machine.fresh long).run turns program terminal).outcome =
      ((Machine.fresh short).run turns program terminal).outcome ∧
    ((Machine.fresh long).run turns program terminal).terminal =
      ((Machine.fresh short).run turns program terminal).terminal ∧
    ((Machine.fresh long).run turns program terminal).machine.pc =
      ((Machine.fresh short).run turns program terminal).machine.pc ∧
    ((Machine.fresh long).run turns program terminal).machine.tape.pointer =
      ((Machine.fresh short).run turns program terminal).machine.tape.pointer ∧
    ((Machine.fresh long).run turns program terminal).machine.tape.get =
      ((Machine.fresh short).run turns program terminal).machine.tape.get ∧
    (∀ i : Nat, i < short.cells →
      ((Machine.fresh long).run turns program terminal).machine.tape.cells[i]? =
        ((Machine.fresh short).run turns program terminal).machine.tape.cells[i]?) ∧
    ∀ i : Nat, short.cells ≤ i → i < long.cells →
      ((Machine.fresh long).run turns program terminal).machine.tape.cells[i]? = some 0 := by
  have hProgram : program.Matches 0 program := by
    intro address
    cases program.get? address with
    | none => exact .none
    | some instruction => exact .some ⟨rfl, fun _ => rfl⟩
  have hStart : Machine.Alike (Tape.Extends short long) 0 (Machine.fresh short)
      (Machine.fresh long) := ⟨Tape.extends_blank hLonger, rfl⟩
  have hRuns : ((Machine.fresh short).run turns program terminal).Alike
      (Machine.Alike (Tape.Extends short long) 0) 0
      ((Machine.fresh long).run turns program terminal) := by
    rw [Machine.run_fresh, Machine.run_fresh]
    exact Machine.runFrom_alike (Tape.extends_congruence hLonger) hProgram turns hStart
      fun move hMove => Machine.isFree_of_wraps (hInside move hMove)
  have hTapes := hRuns.machine.tape
  refine ⟨?_, hRuns.terminal, hRuns.machine.pc, hTapes.pointer, hTapes.get, hTapes.same,
    hTapes.zero⟩
  have hOutcome := hRuns.outcome
  rwa [Outcome.later_zero] at hOutcome

/-- The pointer comes to the last of two cells and back, and a third cell is never seen. -/
theorem longer_tape_is_invisible_two_cells :
    (∀ move ∈ Machine.transitions ⟨#[⟨.forward, 0⟩, ⟨.increment, 0⟩, ⟨.backward, 0⟩]⟩ 4
      (Machine.fresh ⟨2, by decide⟩) ({} : Script),
        move.before.wraps ⟨#[⟨.forward, 0⟩, ⟨.increment, 0⟩, ⟨.backward, 0⟩]⟩ = false) ∧
    ((Machine.fresh ⟨3, by decide⟩).run 4 ⟨#[⟨.forward, 0⟩, ⟨.increment, 0⟩, ⟨.backward, 0⟩]⟩
      ({} : Script)).machine.tape.cells[2]? = some 0 := by
  have hInside : ∀ move ∈ Machine.transitions
      ⟨#[⟨.forward, 0⟩, ⟨.increment, 0⟩, ⟨.backward, 0⟩]⟩ 4 (Machine.fresh ⟨2, by decide⟩)
        ({} : Script),
        move.before.wraps ⟨#[⟨.forward, 0⟩, ⟨.increment, 0⟩, ⟨.backward, 0⟩]⟩ = false := by
    decide
  obtain ⟨_, _, _, _, _, _, hZero⟩ := longer_tape_is_invisible
    ⟨#[⟨.forward, 0⟩, ⟨.increment, 0⟩, ⟨.backward, 0⟩]⟩ ⟨2, by decide⟩ ⟨3, by decide⟩ (by decide)
    ({} : Script) 4 hInside
  exact ⟨hInside, hZero 2 (by decide) (by decide)⟩

end TapeLang
