import Mathlib.Data.Nat.ModEq
import TapeLang.Proofs.ControlFlow
import TapeLang.Proofs.Evaluation
import TapeLang.Proofs.Lockstep
import TapeLang.Proofs.Sessions

/-!
# A turned tape

A tape is a ring, and on a ring no cell comes first.  A program that first moves
some cells forward, be it several times around, does the same afterwards as if it
had not moved, only that all its cells lie further on.  The moves in front also
shift every address of the program, so two things are compared at once: the tapes,
which differ by a turn (`Tape.Turned`), and the programs, whose jumps differ by as
many addresses (`Instruction.relocate`).

## Main results

* `Tape.turned_congruence` — every operation keeps a tape turned.
* `Code.instructions_relocate` — the layout of code further on.
* `compile_advanced` — the moves in front of a source, in its program.
* `run_on_turned_tape` — the two runs.
-/

namespace TapeLang

/-! ## Turned tapes -/

namespace Tape

variable {k : Nat} {tape turned : Tape}

/-- The same ring of cells, each of them and the pointer so many places further on. -/
structure Turned (k : Nat) (tape turned : Tape) : Prop where
  size : turned.size = tape.size
  pointer : turned.pointer = (tape.pointer + k) % tape.size
  cells : ∀ i : Nat, i < tape.size → turned.cells[(i + k) % tape.size]? = tape.cells[i]?

/-- Places that are different stay different when they are turned. -/
theorem turn_injective {n i j : Nat} (hi : i < n) (hj : j < n)
    (h : (i + k) % n = (j + k) % n) : i = j := by
  have hMod : i ≡ j [MOD n] := Nat.ModEq.add_right_cancel' k h
  exact Nat.ModEq.eq_of_lt_of_lt hMod hi hj

/-- A move that is counted modulo the number of cells can be made before a turn or after it. -/
theorem turn_move (n p move : Nat) : ((p + k) % n + move) % n = ((p + move) % n + k) % n := by
  rw [Nat.mod_add_mod, Nat.mod_add_mod, Nat.add_right_comm]

theorem Turned.get (h : Turned k tape turned) : turned.get = tape.get := by
  have hCell := h.cells tape.pointer tape.pointer_lt
  rw [← h.pointer, turned.getElem?_pointer, tape.getElem?_pointer] at hCell
  exact Option.some.inj hCell

/-- Another position of the pointer, turned with the tape. -/
theorem Turned.move {moved movedTurned : Tape} (h : Turned k tape turned)
    (hCells : moved.cells = tape.cells) (hCellsTurned : movedTurned.cells = turned.cells)
    (hPointer : movedTurned.pointer = (moved.pointer + k) % tape.size) :
    Turned k moved movedTurned := by
  have hSize : moved.size = tape.size := by rw [Tape.size, hCells, Tape.size]
  have hSizeTurned : movedTurned.size = turned.size := by rw [Tape.size, hCellsTurned, Tape.size]
  constructor
  case size => rw [hSize, hSizeTurned, h.size]
  case pointer => rw [hSize, hPointer]
  case cells => rw [hSize, hCells, hCellsTurned]; exact h.cells

/-- Every operation keeps a tape turned. -/
theorem turned_congruence (k : Nat) : Congruence (Turned k) fun _ _ => True where
  get h := h.get
  set := by
    intro tape turned h value
    constructor
    case size => rw [size_set, size_set, h.size]
    case pointer => rw [size_set]; exact h.pointer
    case cells =>
      intro i hi
      rw [size_set] at hi
      rw [size_set, cells_set, cells_set, Array.getElem?_set, Array.getElem?_set, h.cells i hi]
      by_cases hHere : tape.pointer = i
      · rw [if_pos hHere, if_pos (by rw [h.pointer, hHere])]
      · have hThere : turned.pointer ≠ (i + k) % tape.size := by
          intro hEq
          rw [h.pointer] at hEq
          exact hHere (turn_injective tape.pointer_lt hi hEq)
        rw [if_neg hHere, if_neg hThere]
  forward := by
    intro tape turned h _
    refine h.move tape.cells_forward turned.cells_forward ?_
    rw [pointer_forward, pointer_forward, h.size, h.pointer, turn_move]
  backward := by
    intro tape turned h _
    refine h.move tape.cells_backward turned.cells_backward ?_
    rw [pointer_backward, pointer_backward, h.size, h.pointer, turn_move]

theorem cells_iterate_forward (tape : Tape) (k : Nat) : (forward^[k] tape).cells = tape.cells := by
  induction k with
  | zero => rfl
  | succ k ih => rw [Function.iterate_succ_apply', cells_forward, ih]

theorem pointer_iterate_forward (tape : Tape) (k : Nat) :
    (forward^[k] tape).pointer = (tape.pointer + k) % tape.size := by
  induction k with
  | zero =>
      have hPointer : tape.pointer < tape.size := tape.pointer_lt
      exact (Nat.mod_eq_of_lt hPointer).symm
  | succ k ih =>
      have hSize : (forward^[k] tape).size = tape.size := by
        rw [Tape.size, cells_iterate_forward, Tape.size]
      rw [Function.iterate_succ_apply', pointer_forward, hSize, ih, Nat.mod_add_mod, Nat.add_assoc]

/-- A blank tape is turned by moving the pointer alone. -/
theorem turned_forward_blank (length : TapeLength) (k : Nat) :
    Turned k (blank length) (forward^[k] (blank length)) := by
  have hCells := (blank length).cells_iterate_forward k
  constructor
  case size => rw [Tape.size, hCells, Tape.size]
  case pointer => exact (blank length).pointer_iterate_forward k
  case cells =>
    intro i hi
    have hTurned : (i + k) % (blank length).size < (blank length).size :=
      Nat.mod_lt _ (blank length).size_pos
    rw [hCells]
    rw [size_blank] at hi hTurned ⊢
    simp [blank, hi, hTurned]

end Tape

/-! ## Relocated code -/

/-- The instruction in a program that stands further on: jumps go as much further. -/
def Instruction.relocate (shift : Nat) (instruction : Instruction) : Instruction :=
  if instruction.operation.isJump then
    { instruction with target := instruction.target + shift }
  else
    instruction

theorem Instruction.matches_relocate (shift : Nat) (instruction : Instruction) :
    instruction.Matches shift (instruction.relocate shift) := by
  unfold relocate
  by_cases hJump : instruction.operation.isJump = true
  · rw [if_pos hJump]
    exact ⟨rfl, fun _ => rfl⟩
  · rw [if_neg hJump]
    exact ⟨rfl, fun h => absurd h hJump⟩

namespace Code

/-- The layout of code further on has the same instructions, relocated. -/
theorem instructions_relocate (code : Code) (shift : Nat) :
    ∀ base : Nat, code.instructions (base + shift) =
      (code.instructions base).map (Instruction.relocate shift) := by
  induction code with
  | done => intro base; rfl
  | simple operation rest ih =>
      intro base
      have hSame : Instruction.relocate shift ⟨operation.operation, 0⟩ = ⟨operation.operation, 0⟩ := by
        simp [Instruction.relocate]
      rw [instructions, instructions, List.map_cons, hSame, Nat.add_right_comm, ih]
  | loop body rest ihBody ihRest =>
      intro base
      have hOpening : base + shift + body.size + 1 = base + body.size + 1 + shift := by omega
      have hRest : base + shift + body.size + 2 = base + body.size + 2 + shift := by omega
      rw [instructions, instructions, List.map_cons, List.map_append, List.map_cons,
        Nat.add_right_comm base shift 1, ihBody, hRest, ihRest, hOpening]
      rfl

/-- Code with a number of moves in front. -/
def advanced (code : Code) : Nat → Code
  | 0 => code
  | k + 1 => .simple .forward (code.advanced k)

theorem operations_advanced (code : Code) (k : Nat) :
    (code.advanced k).operations = List.replicate k .forward ++ code.operations := by
  induction k with
  | zero => rfl
  | succ k ih =>
      rw [advanced, operations, ih]
      rfl

theorem instructions_advanced (code : Code) (k : Nat) :
    ∀ base : Nat, (code.advanced k).instructions base =
      List.replicate k ⟨.forward, 0⟩ ++ code.instructions (base + k) := by
  induction k with
  | zero => intro base; rfl
  | succ k ih =>
      intro base
      rw [advanced, instructions, ih, Nat.add_assoc, Nat.add_comm 1 k]
      rfl

/-- Behind the moves the program is the same, relocated. -/
theorem matches_advanced (code : Code) (k : Nat) :
    code.program.Matches k (code.advanced k).program := by
  intro address
  have hBehind : (code.advanced k).program.get? (address + k) =
      (code.program.get? address).map (Instruction.relocate k) := by
    rw [get?_program, get?_program, instructions_advanced, instructions_relocate,
      List.getElem?_append_right (by rw [List.length_replicate]; omega), List.length_replicate,
      Nat.add_sub_cancel, List.getElem?_map]
  rw [hBehind]
  cases code.program.get? address with
  | none => exact .none
  | some instruction => exact .some (instruction.matches_relocate k)

/-- The moves in front are so many steps, and leave the terminal alone. -/
theorem steps_advanced {σ : Type} [Terminal σ] (code : Code) (k : Nat) (tape : Tape)
    (terminal : σ) :
    ∀ moves : Nat, moves ≤ k →
      Machine.Steps (code.advanced k).program moves ⟨tape, 0⟩ terminal
        ⟨Tape.forward^[moves] tape, moves⟩ terminal := by
  intro moves
  induction moves with
  | zero => intro _; exact .refl
  | succ moves ih =>
      intro hMoves
      have hAt : (code.advanced k).program.get? moves =
          some ⟨SimpleOperation.forward.operation, 0⟩ := by
        rw [get?_program, instructions_advanced,
          List.getElem?_append_left (by rw [List.length_replicate]; omega),
          List.getElem?_replicate, if_pos (by omega)]
        rfl
      rw [Function.iterate_succ_apply']
      exact (ih (by omega)).trans
        (.single (Machine.step_simple (Tape.forward^[moves] tape) terminal hAt))

end Code

/-- Symbols for moves in front of a source are moves in front of its code. -/
theorem compile_advanced {alphabet : Alphabet} {source : String} {code : Code}
    (h : alphabet.recognise source.toList = code.operations) (k : Nat) :
    compile alphabet (String.ofList (List.replicate k (alphabet.symbol .forward)) ++ source) =
      .ok (code.advanced k).program := by
  have hMoves : alphabet.recognise (List.replicate k (alphabet.symbol .forward)) =
      List.replicate k .forward := by
    simp [Alphabet.recognise]
  refine compile_eq_ok_iff.2 ⟨code.advanced k, ?_, rfl⟩
  rw [String.toList_append, String.toList_ofList, Alphabet.recognise_append, hMoves, h,
    Code.operations_advanced]

/-! ## The two runs -/

namespace Code

variable {σ : Type} [Terminal σ] (code : Code) (k : Nat) (length : TapeLength) (terminal : σ)

/-- After the moves the two machines are in lockstep. -/
theorem alike_advanced :
    Machine.Alike (Tape.Turned k) k (Machine.fresh length)
      ⟨Tape.forward^[k] (.blank length), k⟩ :=
  ⟨Tape.turned_forward_blank length k, (Nat.zero_add k).symm⟩

/-- The run with the moves in front ends as the run without them. -/
theorem run_advanced (turns : Nat) :
    ((Machine.fresh length).run turns code.program terminal).Alike
      (Machine.Alike (Tape.Turned k) k) k
      ((Machine.fresh length).run (turns + k) (code.advanced k).program terminal) := by
  have hMoves := code.steps_advanced k (.blank length) terminal k (Nat.le_refl k)
  rw [Machine.run_fresh, Machine.run_fresh, hMoves.runFrom turns 0]
  exact Machine.runFrom_alike (Tape.turned_congruence k) (code.matches_advanced k) turns
    (alike_advanced k length) fun _ _ _ _ => trivial

/-- It takes as many steps more as there are moves. -/
theorem length_transitions_advanced (turns : Nat) :
    (Machine.transitions (code.advanced k).program (turns + k) (Machine.fresh length)
      terminal).length =
        (Machine.transitions code.program turns (Machine.fresh length) terminal).length + k := by
  have hMoves := code.steps_advanced k (.blank length) terminal k (Nat.le_refl k)
  have hRest : List.Forall₂ _
      (Machine.transitions code.program turns (Machine.fresh length) terminal)
      (Machine.transitions (code.advanced k).program turns
        ⟨Tape.forward^[k] (.blank length), k⟩ terminal) :=
    Machine.transitions_alike (Tape.turned_congruence k) (code.matches_advanced k) turns
      (alike_advanced k length) fun _ _ _ _ => trivial
  rw [hRest.length_eq]
  exact hMoves.length_transitions turns

/-- The run with the moves in front has an end exactly if the run without them has. -/
theorem run_advanced_endless_iff :
    (∀ turns : Nat, ((Machine.fresh length).run turns code.program terminal).outcome =
      .unfinished) ↔
    ∀ turns : Nat, ((Machine.fresh length).run turns (code.advanced k).program terminal).outcome =
      .unfinished := by
  constructor
  · intro hEndless turns
    apply Classical.byContradiction
    intro hEnded
    -- a run that has ended is the same after some more turns
    rw [Machine.run_fresh] at hEnded
    have hMore := Machine.runFrom_add_of_ended turns hEnded k
    have hOutcome := (code.run_advanced k length terminal turns).outcome
    rw [hEndless turns, Machine.run_fresh, hMore] at hOutcome
    exact hEnded hOutcome
  · intro hEndless turns
    have hOutcome := (code.run_advanced k length terminal turns).outcome
    rw [hEndless (turns + k)] at hOutcome
    cases hShort : ((Machine.fresh length).run turns code.program terminal).outcome with
    | unfinished => rfl
    | finished steps =>
        rw [hShort] at hOutcome
        cases hOutcome
    | failed error =>
        rw [hShort] at hOutcome
        cases hOutcome

end Code

/--
**Moving forward first turns the tape and changes nothing else.**  If a source
compiles, so does the source with any number of moves forward in front of it.  The
two runs end alike, by coming to the end of the program, by the same failure of the
terminal, or not at all, and with the same calls to the terminal.  The second one
takes as many steps more as there are moves, its address is as much larger, and its
pointer and each of its cells lie as many places further on around the tape.
-/
theorem run_on_turned_tape {σ : Type} [Terminal σ] (alphabet : Alphabet) (source : String)
    (program : Program) (hCompile : compile alphabet source = .ok program) (k : Nat) :
    ∃ advanced : Program,
      compile alphabet (String.ofList (List.replicate k (alphabet.symbol .forward)) ++ source) =
        .ok advanced ∧
      ∀ (length : TapeLength) (terminal : σ),
        (∀ turns : Nat,
          ((Machine.fresh length).run (turns + k) advanced terminal).outcome =
            ((Machine.fresh length).run turns program terminal).outcome.later k ∧
          (∀ address : Nat, ((Machine.fresh length).run turns program terminal).outcome ≠
            .failed (.inconsistent address)) ∧
          ((Machine.fresh length).run (turns + k) advanced terminal).terminal =
            ((Machine.fresh length).run turns program terminal).terminal ∧
          (Machine.transitions advanced (turns + k) (Machine.fresh length) terminal).length =
            (Machine.transitions program turns (Machine.fresh length) terminal).length + k ∧
          ((Machine.fresh length).run (turns + k) advanced terminal).machine.pc =
            ((Machine.fresh length).run turns program terminal).machine.pc + k ∧
          ((Machine.fresh length).run (turns + k) advanced terminal).machine.tape.pointer =
            (((Machine.fresh length).run turns program terminal).machine.tape.pointer + k) %
              length.cells ∧
          ∀ i : Nat, i < length.cells →
            ((Machine.fresh length).run (turns + k) advanced terminal).machine.tape.cells[
                (i + k) % length.cells]? =
              ((Machine.fresh length).run turns program terminal).machine.tape.cells[i]?) ∧
        ((∀ turns : Nat, ((Machine.fresh length).run turns program terminal).outcome =
            .unfinished) ↔
          ∀ turns : Nat, ((Machine.fresh length).run turns advanced terminal).outcome =
            .unfinished) := by
  have hJoined := compile_allJoined hCompile
  obtain ⟨code, hCode, rfl⟩ := compile_eq_ok_iff.1 hCompile
  refine ⟨(code.advanced k).program, compile_advanced hCode k, fun length terminal =>
    ⟨fun turns => ?_, code.run_advanced_endless_iff k length terminal⟩⟩
  have hRuns := code.run_advanced k length terminal turns
  have hTapes := hRuns.machine.tape
  have hSize : ((Machine.fresh length).run turns code.program terminal).machine.tape.size =
      length.cells := by
    rw [Machine.size_run]
    exact Tape.size_blank length
  have hPointer := hTapes.pointer
  have hCells := hTapes.cells
  rw [hSize] at hPointer hCells
  exact ⟨hRuns.outcome, Machine.run_ne_inconsistent hJoined turns, hRuns.terminal,
    code.length_transitions_advanced k length terminal turns, hRuns.machine.pc, hPointer, hCells⟩

/-- On two cells five moves lead to the other cell, where the program then counts down. -/
theorem run_on_turned_tape_five_moves :
    compile .ascii "+[-]" = .ok ⟨#[⟨.increment, 0⟩, ⟨.jumpIfZero, 3⟩, ⟨.decrement, 0⟩,
      ⟨.jumpIfNonZero, 1⟩]⟩ ∧
    ∃ advanced : Program, compile .ascii ">>>>>+[-]" = .ok advanced ∧
      ((Machine.fresh ⟨2, by decide⟩).run 10 advanced ({} : Script)).outcome = .finished 9 ∧
      ((Machine.fresh ⟨2, by decide⟩).run 10 advanced ({} : Script)).machine.tape.pointer = 1 := by
  have hCompile : compile .ascii "+[-]" = .ok ⟨#[⟨.increment, 0⟩, ⟨.jumpIfZero, 3⟩,
      ⟨.decrement, 0⟩, ⟨.jumpIfNonZero, 1⟩]⟩ := by rfl
  obtain ⟨advanced, hAdvanced, hRuns⟩ :=
    run_on_turned_tape (σ := Script) .ascii "+[-]" _ hCompile 5
  obtain ⟨hTurns, _⟩ := hRuns ⟨2, by decide⟩ {}
  obtain ⟨hOutcome, _, _, _, _, hPointer, _⟩ := hTurns 5
  exact ⟨hCompile, advanced, hAdvanced, hOutcome, hPointer⟩

end TapeLang
