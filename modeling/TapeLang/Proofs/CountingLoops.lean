import Mathlib.Data.Int.GCD
import Mathlib.Logic.Function.Iterate
import Mathlib.Order.Bounds.Defs
import Mathlib.Tactic.Ring
import TapeLang.Proofs.Evaluation
import TapeLang.Proofs.RingMemory

/-!
# Loops that count

The body of a loop may be straight code that needs no terminal and comes back to
the cell where it began.  Then every round adds the same to every cell, and how many
rounds there are is a question of arithmetic.  The cell under the test is at `v` and
gains `d` in each round, so the loop is left after the first round that makes
`v + k * d` a multiple of 65536.  Such a round comes if and only if the greatest
common divisor of `d` and 65536 divides `v`.

The machine is followed along the addresses it passes (`Machine.Walks`), so that
what is counted are rounds through the loop and not only steps.

## Main results

* `Tape.pointer_rounds`, `Tape.cell_rounds` — the tape after a number of rounds.
* `Program.Holds.walks_staying`, `Program.Holds.walks_leaving` — the machine in the loop.
* `exists_runsOut_iff` — whether a count ever comes to zero.
* `counting_loop_rounds` — how a loop in a compiled program goes.
-/

namespace TapeLang

/-! ## Straight code -/

/-- A quiet operation among the simple ones. -/
def QuietOperation.simple : QuietOperation → SimpleOperation
  | .forward => .forward
  | .backward => .backward
  | .increment => .increment
  | .decrement => .decrement

/-- A quiet operation among all operations. -/
def QuietOperation.operation (quiet : QuietOperation) : Operation := quiet.simple.operation

theorem QuietOperation.perform_simple {σ : Type} [Terminal σ] (quiet : QuietOperation) (tape : Tape)
    (terminal : σ) : quiet.simple.perform tape terminal = (.ok (quiet.apply tape), terminal) := by
  cases quiet <;> rfl

namespace Code

/-- Quiet operations as code without loops. -/
def straight : List QuietOperation → Code
  | [] => .done
  | quiet :: rest => .simple quiet.simple (straight rest)

@[simp] theorem operations_straight (body : List QuietOperation) :
    (straight body).operations = body.map QuietOperation.operation := by
  induction body with
  | nil => rfl
  | cons quiet rest ih => rw [straight, operations, ih]; rfl

@[simp] theorem size_straight (body : List QuietOperation) : (straight body).size = body.length := by
  rw [← length_operations, operations_straight, List.length_map]

/-! ## Loops by their place among the operations -/

/-- Code goes no further than other code behind which a closing jump comes. -/
theorem eq_nil_of_closing {code other : Code} {more rest after : List Operation}
    (hOther : other.operations = code.operations ++ more)
    (hMore : .jumpIfNonZero :: after = more ++ rest) : more = [] := by
  cases more with
  | nil => rfl
  | cons closing more =>
      -- the jump would be one too many in the other code
      obtain rfl : Operation.jumpIfNonZero = closing := (List.cons.inj hMore).1
      have hLe := other.closings_le_openings (code.operations ++ [.jumpIfNonZero])
        ⟨more, by rw [hOther, List.append_assoc]; rfl⟩
      have hSettled := code.openings_operations
      simp only [openings_append, closings_append, openings_closing, closings_closing,
        openings_nil, closings_nil] at hLe
      omega

/-- The closing jump behind code settles what the code is. -/
theorem eq_of_closing {code other : Code} {after after' : List Operation}
    (h : code.operations ++ .jumpIfNonZero :: after =
      other.operations ++ .jumpIfNonZero :: after') : code = other := by
  apply operations_injective
  rcases List.append_eq_append_iff.1 h with ⟨more, hOther, hMore⟩ | ⟨more, hCode, hMore⟩
  · rw [hOther, eq_nil_of_closing hOther hMore, List.append_nil]
  · rw [hCode, eq_nil_of_closing hCode hMore, List.append_nil]

/-- A loop of code that stands in a program stands there too. -/
theorem LoopAt.holds {code body : Code} {i : Nat} (h : code.LoopAt i body) {program : Program} :
    ∀ {base : Nat}, program.Holds base code →
      ∃ rest : Code, program.Holds (base + i) (.loop body rest) := by
  induction h with
  | @here body rest => intro base hHolds; exact ⟨rest, hHolds⟩
  | @inside body rest inner i _ ih =>
      intro base hHolds
      rw [Nat.add_comm i 1, ← Nat.add_assoc]
      exact ih hHolds.loop_body
  | @after body rest inner i _ ih =>
      intro base hHolds
      rw [← Nat.add_assoc, ← Nat.add_assoc]
      exact ih hHolds.loop_rest
  | @later operation rest inner i _ ih =>
      intro base hHolds
      rw [Nat.add_comm i 1, ← Nat.add_assoc]
      exact ih hHolds.simple_rest

/-- Code between two jumps of a program is the body of a loop there. -/
theorem holds_loop {code body : Code} {before after : List Operation}
    (h : code.operations = before ++ .jumpIfZero :: (body.operations ++ .jumpIfNonZero :: after)) :
    ∃ rest : Code, code.program.Holds before.length (.loop body rest) := by
  have hAt : (code.instructions 0)[before.length]?.map Instruction.operation = some .jumpIfZero := by
    rw [← List.getElem?_map, map_operation_instructions, h,
      List.getElem?_append_right (Nat.le_refl _), Nat.sub_self]
    rfl
  obtain ⟨jump, hJump, hOperation⟩ := Option.map_eq_some_iff.1 hAt
  obtain ⟨inner, hInner⟩ := code.exists_loopAt_of_opening 0 before.length jump hJump hOperation
  obtain ⟨before', after', hLength, hSplit⟩ := hInner.split
  rw [h] at hSplit
  obtain ⟨_, hRest⟩ := List.append_inj hSplit hLength.symm
  obtain rfl : body = inner := eq_of_closing (List.cons.inj hRest).2
  obtain ⟨rest, hHolds⟩ := hInner.holds code.holds_program
  rw [Nat.zero_add] at hHolds
  exact ⟨rest, hHolds⟩

end Code

/-! ## Steps along addresses -/

namespace Machine

variable {σ : Type} [Terminal σ] {program : Program}

/-- Instructions that succeed one after the other, at these addresses. -/
inductive Walks (program : Program) : List Nat → Machine → σ → Machine → σ → Prop where
  | refl {machine : Machine} {terminal : σ} : Walks program [] machine terminal machine terminal
  | head {path : List Nat} {machine machine₁ machine₂ : Machine} {terminal terminal₁ terminal₂ : σ}
      (hStep : machine.step program terminal = ⟨.ok (), machine₁, terminal₁⟩)
      (hRest : Walks program path machine₁ terminal₁ machine₂ terminal₂) :
      Walks program (machine.pc :: path) machine terminal machine₂ terminal₂

namespace Walks

variable {path : List Nat} {machine machine₁ machine₂ : Machine} {terminal terminal₁ terminal₂ : σ}

theorem trans {path' : List Nat} (h : Walks program path machine terminal machine₁ terminal₁)
    (h' : Walks program path' machine₁ terminal₁ machine₂ terminal₂) :
    Walks program (path ++ path') machine terminal machine₂ terminal₂ := by
  induction h with
  | refl => exact h'
  | head hStep _ ih => exact .head hStep (ih h')

theorem steps (h : Walks program path machine terminal machine₁ terminal₁) :
    Steps program path.length machine terminal machine₁ terminal₁ := by
  induction h with
  | refl => exact .refl
  | head hStep _ ih => exact .head hStep ih

/-- At every moment on the way the machine is at the address that comes next. -/
theorem exists_steps (h : Walks program path machine terminal machine₁ terminal₁) :
    ∀ {n : Nat}, n < path.length → ∃ (reached : Machine) (terminal' : σ),
      Steps program n machine terminal reached terminal' ∧ reached.pc ∈ path := by
  induction h with
  | refl => intro n hn; cases hn
  | @head path machine _ _ terminal _ _ hStep _ ih =>
      intro n hn
      cases n with
      | zero => exact ⟨machine, terminal, .refl, List.mem_cons_self⟩
      | succ n =>
          obtain ⟨reached, terminal', hSteps, hMem⟩ := ih (Nat.lt_of_succ_lt_succ hn)
          exact ⟨reached, terminal', .head hStep hSteps, List.mem_cons_of_mem _ hMem⟩

end Walks

/-- A number of steps leads to one machine and one terminal only. -/
theorem Steps.unique {n : Nat} {machine machine₁ machine₂ : Machine}
    {terminal terminal₁ terminal₂ : σ} (h : Steps program n machine terminal machine₁ terminal₁)
    (h' : Steps program n machine terminal machine₂ terminal₂) :
    machine₁ = machine₂ ∧ terminal₁ = terminal₂ := by
  induction h with
  | refl =>
      cases h' with
      | refl => exact ⟨rfl, rfl⟩
  | head hStep _ ih =>
      cases h' with
      | head hStep' hRest' =>
          rw [hStep] at hStep'
          cases hStep'
          exact ih hRest'

end Machine

/-! ## The tape, round by round -/

namespace Tape

variable {tape : Tape} {body : List QuietOperation}

/-- The tape after a number of rounds. -/
def rounds (tape : Tape) (body : List QuietOperation) (k : Nat) : Tape :=
  (fun tape => tape.perform body)^[k] tape

@[simp] theorem rounds_zero : tape.rounds body 0 = tape := rfl

theorem rounds_succ (k : Nat) : tape.rounds body (k + 1) = (tape.rounds body k).perform body :=
  Function.iterate_succ_apply' _ k tape

@[simp] theorem size_rounds (k : Nat) : (tape.rounds body k).size = tape.size := by
  induction k with
  | zero => rfl
  | succ k ih => rw [rounds_succ, size_perform, ih]

/-- A round without net movement comes back to where it began. -/
theorem pointer_rounds (h : netMovement body % tape.size = 0) (k : Nat) :
    (tape.rounds body k).pointer = tape.pointer := by
  induction k with
  | zero => rfl
  | succ k ih =>
      have hPointer := (tape.rounds body k).pointer_perform body
      have hLess : tape.pointer < tape.size := tape.pointer_lt
      rw [← rounds_succ, size_rounds, ih, Int.add_emod, h, Int.add_zero, Int.emod_emod_of_dvd _
        (Int.dvd_refl _), Int.emod_eq_of_lt (by omega) (by omega)] at hPointer
      exact_mod_cast hPointer

/-- What a round adds to a cell. -/
def gain (tape : Tape) (body : List QuietOperation) (i : Nat) : Int :=
  netIncrement tape.size tape.pointer i body

/-- Every round adds the same to a cell. -/
theorem cell_rounds (h : netMovement body % tape.size = 0) (i k : Nat) :
    (((tape.rounds body k).cell i).toNat : Int) =
      ((tape.cell i).toNat + k * tape.gain body i) % 65536 := by
  induction k with
  | zero =>
      have hValue : (tape.cell i).toNat < 65536 := (tape.cell i).toNat_lt
      rw [rounds_zero]
      omega
  | succ k ih =>
      rw [rounds_succ, cell_perform, size_rounds, pointer_rounds h, ih, Int.emod_add_emod,
        Int.natCast_succ, Int.add_mul, Int.one_mul, Int.add_assoc]
      rfl

/-- The cell under the pointer, round by round. -/
theorem get_rounds (h : netMovement body % tape.size = 0) (k : Nat) :
    ((tape.rounds body k).get.toNat : Int) =
      (tape.get.toNat + k * tape.gain body tape.pointer) % 65536 := by
  rw [← cell_pointer, ← cell_pointer, pointer_rounds h, cell_rounds h]

end Tape

/-! ## The machine, round by round -/

/-- The addresses of a loop of `size` instructions, passed `k` times. -/
def laps (base size k : Nat) : List Nat := (List.replicate k (List.range' base size)).flatten

theorem laps_succ (base size k : Nat) :
    laps base size (k + 1) = laps base size k ++ List.range' base size := by
  rw [laps, List.replicate_succ', List.flatten_concat]
  rfl

@[simp] theorem length_laps (base size k : Nat) : (laps base size k).length = k * size := by
  induction k with
  | zero => simp [laps]
  | succ k ih => rw [laps_succ, List.length_append, ih, List.length_range', Nat.succ_mul]

theorem mem_laps {base size k address : Nat} (h : address ∈ laps base size k) :
    base ≤ address ∧ address < base + size := by
  obtain ⟨lap, hLap, hAddress⟩ := List.mem_flatten.1 h
  rw [List.eq_of_mem_replicate hLap] at hAddress
  simpa using hAddress

namespace Program.Holds

variable {σ : Type} [Terminal σ] {program : Program} {base : Nat} {body : List QuietOperation}
  {rest : Code}

/-- Straight code is walked through from its first address to its last. -/
theorem walks_straight (terminal : σ) (body : List QuietOperation) :
    ∀ {base : Nat} (tape : Tape), program.Holds base (.straight body) →
      Machine.Walks program (List.range' base body.length) ⟨tape, base⟩ terminal
        ⟨tape.perform body, base + body.length⟩ terminal := by
  induction body with
  | nil => intro base tape _; exact .refl
  | cons quiet more ih =>
      intro base tape hHolds
      have hStep := Machine.step_simple tape terminal hHolds.simple_head
      rw [quiet.perform_simple] at hStep
      have hMore := ih (quiet.apply tape) hHolds.simple_rest
      rw [Nat.add_assoc, Nat.add_comm 1] at hMore
      exact .head hStep hMore

/-- A round goes once through the loop, and then on or back to its start. -/
theorem walks_round (h : program.Holds base (.loop (.straight body) rest)) {tape : Tape}
    (terminal : σ) (hEnter : tape.get ≠ 0) :
    Machine.Walks program (List.range' base (body.length + 2)) ⟨tape, base⟩ terminal
      ⟨tape.perform body,
        if (tape.perform body).get = 0 then base + (body.length + 2) else base⟩ terminal := by
  have hPath : List.range' base (body.length + 2) =
      base :: (List.range' (base + 1) body.length ++ [base + 1 + body.length]) := by
    rw [List.range'_succ, List.range'_1_concat]
  have hOpening := Machine.step_opening_nonzero terminal h.opening hEnter
  have hBody := walks_straight terminal body tape h.loop_body
  have hClosing := h.closing
  have hLinked := h.linked_closing
  rw [Code.size_straight, Nat.add_right_comm] at hClosing hLinked
  have hLast : Machine.step program ⟨tape.perform body, base + 1 + body.length⟩ terminal =
      ⟨.ok (), ⟨tape.perform body,
        if (tape.perform body).get = 0 then base + (body.length + 2) else base⟩, terminal⟩ := by
    split
    · next hZero =>
        rw [Machine.step_closing_zero terminal hClosing hZero, Nat.add_right_comm base 1]
        rfl
    · next hNonZero => exact Machine.step_closing_nonzero terminal hClosing hLinked hNonZero
  rw [hPath]
  exact .head hOpening (hBody.trans (.head hLast .refl))

/-- As long as no round leaves a zero behind, the loop is gone through again. -/
theorem walks_staying (h : program.Holds base (.loop (.straight body) rest)) {tape : Tape} {k : Nat}
    (terminal : σ) (hStay : ∀ j : Nat, j ≤ k → (tape.rounds body j).get ≠ 0) :
    Machine.Walks program (laps base (body.length + 2) k) ⟨tape, base⟩ terminal
      ⟨tape.rounds body k, base⟩ terminal := by
  induction k with
  | zero => exact .refl
  | succ k ih =>
      have hRound := h.walks_round terminal (hStay k (Nat.le_succ k))
      rw [← Tape.rounds_succ, if_neg (hStay (k + 1) (Nat.le_refl _))] at hRound
      rw [laps_succ]
      exact (ih fun j hj => hStay j (Nat.le_succ_of_le hj)).trans hRound

/-- The first round that leaves a zero behind is the last. -/
theorem walks_leaving (h : program.Holds base (.loop (.straight body) rest)) {tape : Tape} {k : Nat}
    (terminal : σ) (hStay : ∀ j : Nat, j ≤ k → (tape.rounds body j).get ≠ 0)
    (hLeave : (tape.rounds body (k + 1)).get = 0) :
    Machine.Walks program (laps base (body.length + 2) (k + 1)) ⟨tape, base⟩ terminal
      ⟨tape.rounds body (k + 1), base + (body.length + 2)⟩ terminal := by
  have hRound := h.walks_round terminal (hStay k (Nat.le_refl k))
  rw [← Tape.rounds_succ, if_pos hLeave] at hRound
  rw [laps_succ]
  exact (h.walks_staying terminal hStay).trans hRound

end Program.Holds

/-! ## When a count comes to zero -/

/-- After `k` rounds, and not before the first, `v` has been counted by `d` down or up to zero. -/
def RunsOut (v : Nat) (d : Int) (k : Nat) : Prop := 1 ≤ k ∧ (v + k * d) % 65536 = 0

theorem exists_runsOut_iff (v : Nat) (d : Int) :
    (∃ k : Nat, RunsOut v d k) ↔ Int.gcd d 65536 ∣ v := by
  rw [Int.gcd_dvd_iff]
  constructor
  · rintro ⟨k, _, hZero⟩
    obtain ⟨y, hy⟩ := Int.dvd_of_emod_eq_zero hZero
    refine ⟨-k, y, ?_⟩
    rw [← hy, Int.mul_neg, Int.mul_comm d]
    omega
  · rintro ⟨x, y, hSum⟩
    -- the solution may be negative, and going around once more makes it positive
    refine ⟨((-x) % 65536).toNat + 65536, by omega, ?_⟩
    have hNonneg : 0 ≤ (-x) % 65536 := Int.emod_nonneg _ (by decide)
    have hSolution : (-x) % 65536 = -x - 65536 * (-x / 65536) := Int.emod_def _ _
    apply Int.emod_eq_zero_of_dvd
    refine ⟨y + d - d * (-x / 65536), ?_⟩
    push_cast [Int.toNat_of_nonneg hNonneg]
    rw [hSum, hSolution]
    ring

/-- A count that runs out does so for the first time at some round. -/
theorem exists_isLeast_runsOut {v : Nat} {d : Int} (h : ∃ k : Nat, RunsOut v d k) :
    ∃ k : Nat, IsLeast {k : Nat | RunsOut v d k} k := by
  classical
  exact ⟨Nat.find h, Nat.find_spec h, fun _ hk => Nat.find_min' h hk⟩

/-- Counted down by one, a value runs out after as many rounds. -/
theorem isLeast_runsOut_neg_one {v : Nat} (hPos : 0 < v) (hLess : v < 65536) :
    IsLeast {k : Nat | RunsOut v (-1) k} v := by
  constructor
  · exact ⟨hPos, by omega⟩
  · rintro k ⟨hk, hZero⟩
    omega

/-- The rounds that make the cell under the test zero are those at which its count runs out. -/
theorem Tape.get_rounds_eq_zero_iff {tape : Tape} {body : List QuietOperation}
    (h : netMovement body % tape.size = 0) {k : Nat} (hk : 1 ≤ k) :
    (tape.rounds body k).get = 0 ↔ RunsOut tape.get.toNat (tape.gain body tape.pointer) k := by
  have hGet := get_rounds h k
  rw [← UInt16.toNat_inj, UInt16.toNat_zero, RunsOut, ← hGet]
  omega

/-- Until the count runs out the cell under the test is not zero. -/
theorem Tape.get_rounds_ne_zero {tape : Tape} {body : List QuietOperation}
    (h : netMovement body % tape.size = 0) (hEnter : tape.get ≠ 0) {k : Nat}
    (hCount : ¬RunsOut tape.get.toNat (tape.gain body tape.pointer) k) :
    (tape.rounds body k).get ≠ 0 := by
  by_cases hFirst : k = 0
  · rw [hFirst]
    exact hEnter
  · intro hZero
    exact hCount ((get_rounds_eq_zero_iff h (by omega)).1 hZero)

/-! ## Loops that are left and loops that are not -/

/-- The machine is at one of the addresses of a loop of `size` instructions. -/
def Machine.Within (machine : Machine) (base size : Nat) : Prop :=
  base ≤ machine.pc ∧ machine.pc < base + size

namespace Program.Holds

variable {σ : Type} [Terminal σ] {program : Program} {base : Nat} {body : List QuietOperation}
  {rest : Code} {tape : Tape}

/-- A loop is gone through until the count runs out. -/
theorem walks_out (h : program.Holds base (.loop (.straight body) rest)) (terminal : σ)
    (hEnter : tape.get ≠ 0)
    (hMovement : Tape.netMovement body % tape.size = 0) {k : Nat}
    (hLeast : IsLeast {k : Nat | RunsOut tape.get.toNat (tape.gain body tape.pointer) k} k) :
    Machine.Walks program (laps base (body.length + 2) k) ⟨tape, base⟩ terminal
      ⟨tape.rounds body k, base + (body.length + 2)⟩ terminal := by
  obtain ⟨hOut, hBelow⟩ := hLeast
  obtain ⟨last, rfl⟩ : ∃ last : Nat, k = last + 1 := ⟨k - 1, by have := hOut.1; omega⟩
  refine h.walks_leaving terminal ?_ ((Tape.get_rounds_eq_zero_iff hMovement (by omega)).2 hOut)
  intro j hj
  apply Tape.get_rounds_ne_zero hMovement hEnter
  intro hSooner
  have hLe := hBelow hSooner
  omega

/-- A loop whose count never runs out is gone through again and again. -/
theorem within_of_not_runsOut (h : program.Holds base (.loop (.straight body) rest))
    (terminal : σ) (hEnter : tape.get ≠ 0) (hMovement : Tape.netMovement body % tape.size = 0)
    (hNever : ¬∃ k : Nat, RunsOut tape.get.toNat (tape.gain body tape.pointer) k) (m : Nat) :
    ∃ (reached : Machine) (terminal' : σ),
      Machine.Steps program m ⟨tape, base⟩ terminal reached terminal' ∧
        reached.Within base (body.length + 2) := by
  have hStay : ∀ j : Nat, j ≤ m + 1 → (tape.rounds body j).get ≠ 0 := fun j _ =>
    Tape.get_rounds_ne_zero hMovement hEnter fun hOut => hNever ⟨j, hOut⟩
  -- a lap has an instruction at least, so that many laps are steps enough
  have hLong : m < (laps base (body.length + 2) (m + 1)).length := by
    rw [length_laps, Nat.mul_add, Nat.mul_two]
    omega
  obtain ⟨reached, terminal', hSteps, hMem⟩ :=
    (h.walks_staying terminal hStay).exists_steps hLong
  exact ⟨reached, terminal', hSteps, mem_laps hMem⟩

/-- Control leaves a loop exactly if the count runs out. -/
theorem leaves_iff_runsOut (h : program.Holds base (.loop (.straight body) rest))
    (terminal : σ) (hEnter : tape.get ≠ 0) (hMovement : Tape.netMovement body % tape.size = 0) :
    (∃ (m : Nat) (reached : Machine) (terminal' : σ),
      Machine.Steps program m ⟨tape, base⟩ terminal reached terminal' ∧
        ¬reached.Within base (body.length + 2)) ↔
      ∃ k : Nat, RunsOut tape.get.toNat (tape.gain body tape.pointer) k := by
  constructor
  · rintro ⟨m, reached, terminal', hSteps, hOutside⟩
    by_contra hNever
    obtain ⟨reached', _, hSteps', hWithin⟩ :=
      h.within_of_not_runsOut terminal hEnter hMovement hNever m
    obtain ⟨rfl, _⟩ := hSteps.unique hSteps'
    exact hOutside hWithin
  · intro hRunsOut
    obtain ⟨k, hLeast⟩ := exists_isLeast_runsOut hRunsOut
    have hWalk := h.walks_out terminal hEnter hMovement hLeast
    refine ⟨_, _, _, hWalk.steps, ?_⟩
    rintro ⟨_, hLess⟩
    exact Nat.lt_irrefl _ hLess

end Program.Holds

/--
**Counting loops run the exact number of rounds.**  Take a loop anywhere in a compiled
program whose body consists of moves and of increments and decrements only, and a tape
of any length around which the body has no net movement.  The machine is at the start of
the loop.

If the current cell is zero, two steps lead past the loop and leave the tape as it is.
Otherwise control leaves the loop if and only if for some number of rounds, at least one,
the cell and what the rounds add to it come to zero modulo 65536; and that is so if and
only if the greatest common divisor of what a round adds and 65536 divides the value of
the cell.  For the least such number the machine passes all the addresses of the loop in
order that many times, and is then just past it, with the pointer where it was and every
cell changed by what as many rounds add to it.  If there is no such number the machine is
still in the loop after any number of steps.  If a round takes one from the cell, there
are as many rounds as the value of the cell.
-/
theorem counting_loop_rounds {σ : Type} [Terminal σ] (alphabet : Alphabet) (source : String)
    (program : Program) (hCompile : compile alphabet source = .ok program)
    (before after : List Operation) (body : List QuietOperation)
    (hLoop : program.operations = before ++ .jumpIfZero ::
      (body.map QuietOperation.operation ++ .jumpIfNonZero :: after))
    (tape : Tape) (hMovement : Tape.netMovement body % tape.size = 0) (terminal : σ) :
    (tape.get = 0 → Machine.Steps program 2 ⟨tape, before.length⟩ terminal
      ⟨tape, before.length + (body.length + 2)⟩ terminal) ∧
    (tape.get ≠ 0 →
      ((∃ (m : Nat) (reached : Machine) (terminal' : σ),
        Machine.Steps program m ⟨tape, before.length⟩ terminal reached terminal' ∧
          ¬reached.Within before.length (body.length + 2)) ↔
        ∃ k : Nat, RunsOut tape.get.toNat (tape.gain body tape.pointer) k) ∧
      ((∃ k : Nat, RunsOut tape.get.toNat (tape.gain body tape.pointer) k) ↔
        Int.gcd (tape.gain body tape.pointer) 65536 ∣ tape.get.toNat) ∧
      (∀ k : Nat, IsLeast {k : Nat | RunsOut tape.get.toNat (tape.gain body tape.pointer) k} k →
        ∃ tape' : Tape,
          Machine.Steps program (k * (body.length + 2)) ⟨tape, before.length⟩ terminal
            ⟨tape', before.length + (body.length + 2)⟩ terminal ∧
          Machine.Walks program (laps before.length (body.length + 2) k)
            ⟨tape, before.length⟩ terminal
            ⟨tape', before.length + (body.length + 2)⟩ terminal ∧
          tape'.size = tape.size ∧ tape'.pointer = tape.pointer ∧
          ∀ i : Nat, i < tape.size →
            ((tape'.cell i).toNat : Int) =
              ((tape.cell i).toNat + k * tape.gain body i) % 65536) ∧
      ((¬∃ k : Nat, RunsOut tape.get.toNat (tape.gain body tape.pointer) k) →
        ∀ m : Nat, ∃ (reached : Machine) (terminal' : σ),
          Machine.Steps program m ⟨tape, before.length⟩ terminal reached terminal' ∧
            reached.Within before.length (body.length + 2)) ∧
      (tape.gain body tape.pointer = -1 →
        ∃ tape' : Tape,
          Machine.Walks program (laps before.length (body.length + 2) tape.get.toNat)
            ⟨tape, before.length⟩ terminal
            ⟨tape', before.length + (body.length + 2)⟩ terminal)) := by
  obtain ⟨code, _, rfl⟩ := compile_eq_ok_iff.1 hCompile
  rw [Code.operations_program, ← Code.operations_straight] at hLoop
  obtain ⟨rest, hHolds⟩ := Code.holds_loop hLoop
  constructor
  · intro hZero
    have hSkip : Machine.Steps code.program 2 ⟨tape, before.length⟩ terminal
        ⟨tape, before.length + (Code.straight body).size + 2⟩ terminal := hHolds.steps_skip hZero
    rwa [Code.size_straight] at hSkip
  intro hEnter
  have hWalk := fun {k : Nat} hLeast =>
    hHolds.walks_out terminal (k := k) hEnter hMovement hLeast
  refine ⟨hHolds.leaves_iff_runsOut terminal hEnter hMovement, exists_runsOut_iff _ _, ?_,
    hHolds.within_of_not_runsOut terminal hEnter hMovement, ?_⟩
  · intro k hLeast
    refine ⟨tape.rounds body k, ?_, hWalk hLeast, tape.size_rounds k,
      Tape.pointer_rounds hMovement k, fun i _ => Tape.cell_rounds hMovement i k⟩
    rw [← length_laps before.length]
    exact (hWalk hLeast).steps
  · intro hDown
    have hPos : 0 < tape.get.toNat := Nat.pos_of_ne_zero fun hZero =>
      hEnter (UInt16.toNat_inj.1 hZero)
    refine ⟨_, hWalk ?_⟩
    rw [hDown]
    exact isLeast_runsOut_neg_one hPos tape.get.toNat_lt

/-- On two cells the body comes back to its start by going around. -/
theorem counting_loop_rounds_around_two_cells :
    compile .ascii "++[->+>]" = .ok ⟨#[⟨.increment, 0⟩, ⟨.increment, 0⟩, ⟨.jumpIfZero, 7⟩,
      ⟨.decrement, 0⟩, ⟨.forward, 0⟩, ⟨.increment, 0⟩, ⟨.forward, 0⟩, ⟨.jumpIfNonZero, 2⟩]⟩ ∧
    Tape.netMovement [.decrement, .forward, .increment, .forward] = 2 ∧
    ∃ tape' : Tape, Machine.Steps ⟨#[⟨.increment, 0⟩, ⟨.increment, 0⟩, ⟨.jumpIfZero, 7⟩,
        ⟨.decrement, 0⟩, ⟨.forward, 0⟩, ⟨.increment, 0⟩, ⟨.forward, 0⟩, ⟨.jumpIfNonZero, 2⟩]⟩ 12
      ⟨(Tape.blank ⟨2, by decide⟩).set 2, 2⟩ ({} : Script) ⟨tape', 8⟩ {} ∧
      (tape'.cell 0).toNat = 0 ∧ (tape'.cell 1).toNat = 2 := by
  have hCompile : compile .ascii "++[->+>]" = .ok ⟨#[⟨.increment, 0⟩, ⟨.increment, 0⟩,
      ⟨.jumpIfZero, 7⟩, ⟨.decrement, 0⟩, ⟨.forward, 0⟩, ⟨.increment, 0⟩, ⟨.forward, 0⟩,
      ⟨.jumpIfNonZero, 2⟩]⟩ := by rfl
  refine ⟨hCompile, rfl, ?_⟩
  obtain ⟨_, hRounds⟩ := counting_loop_rounds .ascii "++[->+>]" _ hCompile
    [.increment, .increment] [] [.decrement, .forward, .increment, .forward] rfl
    ((Tape.blank ⟨2, by decide⟩).set 2) (by decide) ({} : Script)
  obtain ⟨_, _, hOut, _⟩ := hRounds (by decide)
  have hLeast := isLeast_runsOut_neg_one (v := 2) (by decide) (by decide)
  obtain ⟨tape', hSteps, _, _, _, hCells⟩ := hOut 2 hLeast
  have hFirst : ((tape'.cell 0).toNat : Int) = 0 := (hCells 0 (by decide)).trans (by decide)
  have hSecond : ((tape'.cell 1).toNat : Int) = 2 := (hCells 1 (by decide)).trans (by decide)
  exact ⟨tape', hSteps, by exact_mod_cast hFirst, by exact_mod_cast hSecond⟩

end TapeLang
