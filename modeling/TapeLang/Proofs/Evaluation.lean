import TapeLang.Proofs.Assembly
import TapeLang.Proofs.Transitions
import TapeLang.Stream.Script

/-!
# What a source means

A source means what its tree does: simple operations one after the other, and
loops that test the current cell before each round and go on while it is not
zero.  `Code.Evaluates` says so without addresses or jumps.  A machine does
the same work with jumps that land on the partner of the jump, which tests the
cell once more; that is where the two steps of every round come from, and the
two steps of a loop that is skipped.

A machine follows the evaluation of any code that stands anywhere in its
program (`Code.Evaluates.follows`).  For the converse a run of any length is
either inside the code still or has an evaluation behind it
(`Code.exists_evaluates_or_steps`), so a run that ends has one.

## Main results

* `Code.endsWith_finished_iff`, `Code.finishesIn_iff`, `Code.endsWith_failed_iff`,
  `Code.run_endless_iff` — a run of the program of a tree ends as the evaluation of
  the tree does, in as many steps, and if that has no end nor has the run.
* `run_agrees_with_evaluation` — the same for a source that compiles.
-/

namespace TapeLang

variable {σ : Type} [Terminal σ]

/-! ## Evaluation of trees -/

/-- Carries out a simple operation: the tape after it, or the failure of the terminal. -/
def SimpleOperation.perform (operation : SimpleOperation) (tape : Tape) (terminal : σ) :
    Except StreamError Tape × σ :=
  match operation with
  | .forward => (.ok tape.forward, terminal)
  | .backward => (.ok tape.backward, terminal)
  | .increment => (.ok tape.increment, terminal)
  | .decrement => (.ok tape.decrement, terminal)
  | .write =>
      match Terminal.write tape.get.toUInt8 terminal with
      | (.ok (), terminal) => (.ok tape, terminal)
      | (.error error, terminal) => (.error error, terminal)
  | .read =>
      match Terminal.flush terminal with
      | (.error error, terminal) => (.error error, terminal)
      | (.ok (), terminal) =>
          match Terminal.read terminal with
          | (.error error, terminal) => (.error error, terminal)
          | (.ok input, terminal) => (.ok (tape.set (Machine.received input)), terminal)

/-- How an evaluation ends. -/
inductive Verdict where
  | finished (cost : Nat)
  | failed (error : StreamError)
  deriving DecidableEq, Repr

/-- The verdict on work that was preceded by other work of some cost. -/
def Verdict.after (cost : Nat) : Verdict → Verdict
  | .finished rest => .finished (cost + rest)
  | .failed error => .failed error

/--
The evaluation of code on a tape and a terminal: the verdict, the tape and the
terminal at the end.  A simple operation costs one.  A loop costs two if it is
skipped; otherwise each round costs two more than its body.
-/
inductive Code.Evaluates : Code → Tape → σ → Verdict → Tape → σ → Prop where
  | done {tape : Tape} {terminal : σ} : Evaluates .done tape terminal (.finished 0) tape terminal
  | simple {operation : SimpleOperation} {rest : Code} {tape tape₁ tape₂ : Tape}
      {terminal terminal₁ terminal₂ : σ} {verdict : Verdict}
      (hPerform : operation.perform tape terminal = (.ok tape₁, terminal₁))
      (hRest : Evaluates rest tape₁ terminal₁ verdict tape₂ terminal₂) :
      Evaluates (.simple operation rest) tape terminal (verdict.after 1) tape₂ terminal₂
  -- a failed operation leaves the tape as it was
  | breaks {operation : SimpleOperation} {rest : Code} {tape : Tape} {terminal terminal₁ : σ}
      {error : StreamError}
      (hPerform : operation.perform tape terminal = (.error error, terminal₁)) :
      Evaluates (.simple operation rest) tape terminal (.failed error) tape terminal₁
  | skip {body rest : Code} {tape tape₁ : Tape} {terminal terminal₁ : σ} {verdict : Verdict}
      (hZero : tape.get = 0) (hRest : Evaluates rest tape terminal verdict tape₁ terminal₁) :
      Evaluates (.loop body rest) tape terminal (verdict.after 2) tape₁ terminal₁
  -- after the body the cell is zero: the round was the last one
  | last {body rest : Code} {tape tape₁ tape₂ : Tape} {terminal terminal₁ terminal₂ : σ}
      {cost : Nat} {verdict : Verdict} (hEnter : tape.get ≠ 0)
      (hBody : Evaluates body tape terminal (.finished cost) tape₁ terminal₁)
      (hLeave : tape₁.get = 0) (hRest : Evaluates rest tape₁ terminal₁ verdict tape₂ terminal₂) :
      Evaluates (.loop body rest) tape terminal (verdict.after (cost + 2)) tape₂ terminal₂
  -- after the body the cell is not zero: there is another round
  | again {body rest : Code} {tape tape₁ tape₂ : Tape} {terminal terminal₁ terminal₂ : σ}
      {cost : Nat} {verdict : Verdict} (hEnter : tape.get ≠ 0)
      (hBody : Evaluates body tape terminal (.finished cost) tape₁ terminal₁)
      (hStay : tape₁.get ≠ 0)
      (hLoop : Evaluates (.loop body rest) tape₁ terminal₁ verdict tape₂ terminal₂) :
      Evaluates (.loop body rest) tape terminal (verdict.after (cost + 2)) tape₂ terminal₂
  | bodyBreaks {body rest : Code} {tape tape₁ : Tape} {terminal terminal₁ : σ}
      {error : StreamError} (hEnter : tape.get ≠ 0)
      (hBody : Evaluates body tape terminal (.failed error) tape₁ terminal₁) :
      Evaluates (.loop body rest) tape terminal (.failed error) tape₁ terminal₁

/-! ## Code in a program -/

/-- Code stands in a program from an address on. -/
def Program.Holds (program : Program) (base : Nat) (code : Code) : Prop :=
  ∃ before after : List Instruction,
    program.instructions.toList = before ++ (code.instructions base ++ after) ∧
      before.length = base

namespace Program.Holds

variable {program : Program} {base : Nat} {body rest : Code} {operation : SimpleOperation}

theorem get? {code : Code} (h : program.Holds base code) {i : Nat} (hi : i < code.size) :
    program.get? (base + i) = (code.instructions base)[i]? := by
  obtain ⟨before, after, hSplit, rfl⟩ := h
  rw [Program.get?, ← Array.getElem?_toList, hSplit, List.getElem?_append_right (by omega),
    Nat.add_sub_cancel_left, List.getElem?_append_left (by simpa using hi)]

theorem simple_head (h : program.Holds base (.simple operation rest)) :
    program.get? base = some ⟨operation.operation, 0⟩ :=
  h.get? (i := 0) (by simp only [Code.size]; omega)

theorem simple_rest (h : program.Holds base (.simple operation rest)) :
    program.Holds (base + 1) rest := by
  obtain ⟨before, after, hSplit, rfl⟩ := h
  exact ⟨before ++ [⟨operation.operation, 0⟩], after, by simp [hSplit, Code.instructions], by simp⟩

theorem loop_body (h : program.Holds base (.loop body rest)) : program.Holds (base + 1) body := by
  obtain ⟨before, after, hSplit, rfl⟩ := h
  refine ⟨before ++ [⟨.jumpIfZero, before.length + body.size + 1⟩],
    ⟨.jumpIfNonZero, before.length⟩ ::
      (rest.instructions (before.length + body.size + 2) ++ after), ?_, by simp⟩
  simp [hSplit, Code.instructions]

theorem loop_rest (h : program.Holds base (.loop body rest)) :
    program.Holds (base + body.size + 2) rest := by
  obtain ⟨before, after, hSplit, rfl⟩ := h
  refine ⟨before ++ ⟨.jumpIfZero, before.length + body.size + 1⟩ ::
    (body.instructions (before.length + 1) ++ [⟨.jumpIfNonZero, before.length⟩]), after, ?_, ?_⟩
  · simp [hSplit, Code.instructions]
  · simp only [List.length_append, List.length_cons, Code.length_instructions, List.length_nil]
    omega

theorem opening (h : program.Holds base (.loop body rest)) :
    program.get? base = some ⟨.jumpIfZero, base + body.size + 1⟩ :=
  h.get? (i := 0) (by simp only [Code.size]; omega)

theorem closing (h : program.Holds base (.loop body rest)) :
    program.get? (base + body.size + 1) = some ⟨.jumpIfNonZero, base⟩ := by
  rw [Nat.add_assoc, h.get? (by simp only [Code.size]; omega)]
  exact Code.getElem?_loop_closing body rest base

theorem linked_opening (h : program.Holds base (.loop body rest)) :
    program.linked base ⟨.jumpIfZero, base + body.size + 1⟩ = true :=
  Program.linked_iff.2 ⟨_, h.closing, rfl, rfl⟩

theorem linked_closing (h : program.Holds base (.loop body rest)) :
    program.linked (base + body.size + 1) ⟨.jumpIfNonZero, base⟩ = true :=
  Program.linked_iff.2 ⟨_, h.opening, rfl, rfl⟩

end Program.Holds

theorem Code.holds_program (code : Code) : code.program.Holds 0 code :=
  ⟨[], [], by simp [Code.program], rfl⟩

/-! ## Single steps of a machine -/

namespace Machine

variable {program : Program} {tape : Tape} {pc target : Nat}

/-- A step at a simple operation carries it out and goes on, or fails and stays. -/
theorem step_simple {operation : SimpleOperation} (tape : Tape) (terminal : σ)
    (h : program.get? pc = some ⟨operation.operation, target⟩) :
    step program ⟨tape, pc⟩ terminal =
      match operation.perform tape terminal with
      | (.ok tape, terminal) => ⟨.ok (), ⟨tape, pc + 1⟩, terminal⟩
      | (.error error, terminal) => ⟨.error (.stream error), ⟨tape, pc⟩, terminal⟩ := by
  rw [step, act, h]
  cases operation
  case write =>
    simp only [SimpleOperation.operation, SimpleOperation.perform, writeStep]
    rcases Terminal.write tape.get.toUInt8 terminal with ⟨_ | _, _⟩ <;> rfl
  case read =>
    simp only [SimpleOperation.operation, SimpleOperation.perform, readStep]
    rcases Terminal.flush terminal with ⟨_ | _, flushed⟩
    · rfl
    · dsimp only
      rcases Terminal.read flushed with ⟨_ | _, _⟩ <;> rfl
  all_goals rfl

theorem step_opening_zero (terminal : σ) (h : program.get? pc = some ⟨.jumpIfZero, target⟩)
    (hLinked : program.linked pc ⟨.jumpIfZero, target⟩ = true) (hZero : tape.get = 0) :
    step program ⟨tape, pc⟩ terminal = ⟨.ok (), ⟨tape, target⟩, terminal⟩ := by
  simp [step, act, h, hZero, jump, hLinked]

theorem step_opening_nonzero (terminal : σ) (h : program.get? pc = some ⟨.jumpIfZero, target⟩)
    (hNonZero : tape.get ≠ 0) :
    step program ⟨tape, pc⟩ terminal = ⟨.ok (), ⟨tape, pc + 1⟩, terminal⟩ := by
  simp [step, act, h, hNonZero, next]

theorem step_closing_zero (terminal : σ) (h : program.get? pc = some ⟨.jumpIfNonZero, target⟩)
    (hZero : tape.get = 0) :
    step program ⟨tape, pc⟩ terminal = ⟨.ok (), ⟨tape, pc + 1⟩, terminal⟩ := by
  simp [step, act, h, hZero, next]

theorem step_closing_nonzero (terminal : σ) (h : program.get? pc = some ⟨.jumpIfNonZero, target⟩)
    (hLinked : program.linked pc ⟨.jumpIfNonZero, target⟩ = true) (hNonZero : tape.get ≠ 0) :
    step program ⟨tape, pc⟩ terminal = ⟨.ok (), ⟨tape, target⟩, terminal⟩ := by
  simp [step, act, h, hNonZero, jump, hLinked]

end Machine

/-! ## The steps of a loop -/

namespace Program.Holds

variable {program : Program} {base : Nat} {body rest : Code} {tape tape₁ : Tape}
  {terminal terminal₁ : σ}

/-- A skipped loop takes two steps: the jump, and the test where it lands. -/
theorem steps_skip (h : program.Holds base (.loop body rest)) (hZero : tape.get = 0) :
    Machine.Steps program 2 ⟨tape, base⟩ terminal ⟨tape, base + body.size + 2⟩ terminal :=
  .head (Machine.step_opening_zero terminal h.opening h.linked_opening hZero)
    (.single (Machine.step_closing_zero terminal h.closing hZero))

/-- A round takes two steps more than its body, and leads to the end of the loop or to its start. -/
theorem steps_round (h : program.Holds base (.loop body rest)) {cost : Nat} (hEnter : tape.get ≠ 0)
    (hBody : Machine.Steps program cost ⟨tape, base + 1⟩ terminal
      ⟨tape₁, base + 1 + body.size⟩ terminal₁) :
    Machine.Steps program (cost + 2) ⟨tape, base⟩ terminal
      ⟨tape₁, if tape₁.get = 0 then base + body.size + 2 else base⟩ terminal₁ := by
  have hFirst : Machine.Steps program (cost + 1) ⟨tape, base⟩ terminal
      ⟨tape₁, base + body.size + 1⟩ terminal₁ := by
    rw [Nat.add_right_comm] at hBody
    exact .head (Machine.step_opening_nonzero terminal h.opening hEnter) hBody
  refine hFirst.trans (.single ?_)
  split
  · next hZero => exact Machine.step_closing_zero terminal₁ h.closing hZero
  · next hNonZero =>
      exact Machine.step_closing_nonzero terminal₁ h.closing h.linked_closing hNonZero

end Program.Holds

/-! ## From the tree to the machine -/

/--
A machine does what a verdict says: it comes to an address in as many steps as
the cost, or it stops at a step where the terminal fails.
-/
def Machine.Follows (program : Program) (machine : Machine) (terminal : σ) (address : Nat)
    (tape : Tape) (terminal' : σ) : Verdict → Prop
  | .finished cost => Steps program cost machine terminal ⟨tape, address⟩ terminal'
  | .failed error => ∃ (n pc : Nat) (terminal₁ : σ),
      Steps program n machine terminal ⟨tape, pc⟩ terminal₁ ∧
        step program ⟨tape, pc⟩ terminal₁ = ⟨.error (.stream error), ⟨tape, pc⟩, terminal'⟩

/-- Steps taken before add to the cost. -/
theorem Machine.Follows.after {program : Program} {machine machine₁ : Machine}
    {terminal terminal₁ terminal₂ : σ} {address cost : Nat} {tape : Tape} {verdict : Verdict}
    (hSteps : Steps program cost machine terminal machine₁ terminal₁)
    (h : Follows program machine₁ terminal₁ address tape terminal₂ verdict) :
    Follows program machine terminal address tape terminal₂ (verdict.after cost) := by
  cases verdict with
  | finished rest => exact hSteps.trans h
  | failed error =>
      obtain ⟨n, pc, terminal', hReach, hStep⟩ := h
      exact ⟨cost + n, pc, terminal', hSteps.trans hReach, hStep⟩

namespace Code

variable {program : Program}

private theorem add_size_simple (operation : SimpleOperation) (rest : Code) (base : Nat) :
    base + (simple operation rest).size = base + 1 + rest.size := by
  simp only [size]
  omega

private theorem add_size_loop (body rest : Code) (base : Nat) :
    base + (loop body rest).size = base + body.size + 2 + rest.size := by
  simp only [size]
  omega

/-- A machine follows the evaluation of code that stands in its program. -/
theorem Evaluates.follows {code : Code} {tape tape' : Tape} {terminal terminal' : σ}
    {verdict : Verdict} (h : code.Evaluates tape terminal verdict tape' terminal') :
    ∀ {base : Nat}, program.Holds base code →
      Machine.Follows program ⟨tape, base⟩ terminal (base + code.size) tape' terminal' verdict := by
  induction h with
  | done => intro base _; exact .refl
  | @simple operation rest tape _ _ terminal _ _ _ hPerform _ ih =>
      intro base hHolds
      have hStep := Machine.step_simple tape terminal hHolds.simple_head
      rw [hPerform] at hStep
      rw [add_size_simple]
      exact .after (.single hStep) (ih hHolds.simple_rest)
  | @breaks operation rest tape terminal _ _ hPerform =>
      intro base hHolds
      have hStep := Machine.step_simple tape terminal hHolds.simple_head
      rw [hPerform] at hStep
      exact ⟨0, base, terminal, .refl, hStep⟩
  | @skip body rest _ _ _ _ _ hZero _ ih =>
      intro base hHolds
      rw [add_size_loop]
      exact .after (hHolds.steps_skip hZero) (ih hHolds.loop_rest)
  | @last body rest _ _ _ _ _ _ _ _ hEnter _ hLeave _ ihBody ihRest =>
      intro base hHolds
      have hRound := hHolds.steps_round hEnter (ihBody hHolds.loop_body)
      rw [if_pos hLeave] at hRound
      rw [add_size_loop]
      exact .after hRound (ihRest hHolds.loop_rest)
  | @again body rest _ _ _ _ _ _ _ _ hEnter _ hStay _ ihBody ihLoop =>
      intro base hHolds
      have hRound := hHolds.steps_round hEnter (ihBody hHolds.loop_body)
      rw [if_neg hStay] at hRound
      exact .after hRound (ihLoop hHolds)
  | @bodyBreaks body rest _ _ terminal _ _ hEnter _ ih =>
      intro base hHolds
      have hStep := Machine.step_opening_nonzero terminal hHolds.opening hEnter
      exact .after (.single hStep) (ih hHolds.loop_body)

/-! ## From the machine to the tree -/

/--
However long a machine runs from the start of code, either the code has an
evaluation or the machine is still at work on it.
-/
theorem exists_evaluates_or_steps (n : Nat) :
    ∀ {code : Code} {base : Nat} (tape : Tape) (terminal : σ), program.Holds base code →
      (∃ (verdict : Verdict) (tape' : Tape) (terminal' : σ),
        code.Evaluates tape terminal verdict tape' terminal') ∨
      ∃ (machine : Machine) (terminal' : σ),
        Machine.Steps program n ⟨tape, base⟩ terminal machine terminal' := by
  -- induction on the number of steps: what is left of the code gets fewer of them
  induction n with
  | zero => intro code base tape terminal _; exact .inr ⟨_, _, .refl⟩
  | succ n ih =>
      intro code base tape terminal hHolds
      cases code with
      | done => exact .inl ⟨_, _, _, .done⟩
      | simple operation rest =>
          have hStep := Machine.step_simple tape terminal hHolds.simple_head
          rcases hPerform : operation.perform tape terminal with ⟨error | tape₁, terminal₁⟩
          · exact .inl ⟨_, _, _, .breaks hPerform⟩
          · rw [hPerform] at hStep
            obtain ⟨verdict, tape', terminal', hRest⟩ | ⟨machine, terminal', hSteps⟩ :=
              ih tape₁ terminal₁ hHolds.simple_rest
            · exact .inl ⟨_, _, _, .simple hPerform hRest⟩
            · exact .inr ⟨machine, terminal', .head hStep hSteps⟩
      | loop body rest =>
          by_cases hZero : tape.get = 0
          · obtain ⟨verdict, tape', terminal', hRest⟩ | ⟨machine, terminal', hSteps⟩ :=
              ih tape terminal hHolds.loop_rest
            · exact .inl ⟨_, _, _, .skip hZero hRest⟩
            · exact .inr (((hHolds.steps_skip hZero).trans hSteps).cut (by omega))
          · obtain ⟨verdict, tape₁, terminal₁, hBody⟩ | ⟨machine, terminal', hSteps⟩ :=
              ih tape terminal hHolds.loop_body
            · cases verdict with
              | failed error => exact .inl ⟨_, _, _, .bodyBreaks hZero hBody⟩
              | finished cost =>
                  have hRound := hHolds.steps_round hZero (hBody.follows hHolds.loop_body)
                  by_cases hLeave : tape₁.get = 0
                  · rw [if_pos hLeave] at hRound
                    obtain ⟨verdict, tape', terminal', hRest⟩ | ⟨machine, terminal', hSteps⟩ :=
                      ih tape₁ terminal₁ hHolds.loop_rest
                    · exact .inl ⟨_, _, _, .last hZero hBody hLeave hRest⟩
                    · exact .inr ((hRound.trans hSteps).cut (by omega))
                  · rw [if_neg hLeave] at hRound
                    obtain ⟨verdict, tape', terminal', hLoop⟩ | ⟨machine, terminal', hSteps⟩ :=
                      ih tape₁ terminal₁ hHolds
                    · exact .inl ⟨_, _, _, .again hZero hBody hLeave hLoop⟩
                    · exact .inr ((hRound.trans hSteps).cut (by omega))
            · have hStep := Machine.step_opening_nonzero terminal hHolds.opening hZero
              exact .inr ⟨machine, terminal', .head hStep hSteps⟩

/-! ## Whole runs -/

/-- A machine comes to the end of a program in as many steps as its evaluation costs. -/
theorem Evaluates.steps_program {code : Code} {tape tape' : Tape} {terminal terminal' : σ}
    {cost : Nat} (h : code.Evaluates tape terminal (.finished cost) tape' terminal') :
    Machine.Steps code.program cost ⟨tape, 0⟩ terminal ⟨tape', code.size⟩ terminal' := by
  have hFollows := h.follows code.holds_program
  rwa [Nat.zero_add] at hFollows

/-- A run over code that is evaluated to its end finishes with a flush. -/
theorem Evaluates.runFrom_finished {code : Code} {tape tape' : Tape} {terminal terminal' : σ}
    {cost : Nat} (h : code.Evaluates tape terminal (.finished cost) tape' terminal') :
    Machine.runFrom code.program (cost + 1) 0 ⟨tape, 0⟩ terminal =
      Machine.finish (UInt64.ofNat cost) ⟨tape', code.size⟩ terminal' := by
  rw [Nat.add_comm, h.steps_program.runFrom 1 0, UInt64.zero_add, Machine.runFrom,
    if_neg (by simp)]

/-- A run over code that is evaluated to its end takes as many steps as that costs. -/
theorem Evaluates.length_transitions {code : Code} {tape tape' : Tape} {terminal terminal' : σ}
    {cost : Nat} (h : code.Evaluates tape terminal (.finished cost) tape' terminal') {turns : Nat}
    (hEnough : cost ≤ turns) :
    (Machine.transitions code.program turns ⟨tape, 0⟩ terminal).length = cost := by
  obtain ⟨more, rfl⟩ := Nat.exists_eq_add_of_le' hEnough
  have hOutside : Machine.step code.program ⟨tape', code.size⟩ terminal' = _ :=
    Machine.step_outside terminal' (Nat.le_of_eq code.size_program)
  rw [h.steps_program.length_transitions more, Machine.transitions_error more hOutside,
    List.length_nil, Nat.zero_add]

/-- A run that ends has had turns for as many steps as the evaluation costs. -/
theorem Evaluates.cost_le_of_ended {code : Code} {tape tape' : Tape} {terminal terminal' : σ}
    {cost : Nat} (h : code.Evaluates tape terminal (.finished cost) tape' terminal')
    {turns : Nat}
    (hEnded : (Machine.runFrom code.program turns 0 ⟨tape, 0⟩ terminal).outcome ≠ .unfinished) :
    cost ≤ turns := by
  apply Nat.le_of_not_lt
  intro hLess
  exact hEnded ((Machine.runFrom_unfinished_iff turns).2 (h.steps_program.cut (Nat.le_of_lt hLess)))

/-- A run over code whose evaluation fails stops with the failure. -/
theorem Evaluates.runFrom_failed {code : Code} {tape tape' : Tape} {terminal terminal' : σ}
    {error : StreamError} (h : code.Evaluates tape terminal (.failed error) tape' terminal') :
    ∃ turns pc : Nat, Machine.runFrom code.program turns 0 ⟨tape, 0⟩ terminal =
      ⟨.failed (.stream error), ⟨tape', pc⟩, terminal'⟩ := by
  obtain ⟨n, pc, terminal₁, hSteps, hStep⟩ := h.follows code.holds_program
  have hPc : pc < code.program.size := by
    apply Machine.pc_lt_of_outcome ⟨tape', pc⟩ terminal₁
    rw [hStep]
    exact nofun
  refine ⟨1 + n, pc, ?_⟩
  rw [hSteps.runFrom 1 0, Machine.runFrom, if_pos hPc, hStep]

/-- A run that ends has an evaluation behind it and ends as that does. -/
theorem exists_evaluates_of_ended (code : Code) {turns : Nat} {tape : Tape} {terminal : σ}
    (h : (Machine.runFrom code.program turns 0 ⟨tape, 0⟩ terminal).outcome ≠ .unfinished) :
    (∃ (cost : Nat) (tape' : Tape) (terminal' : σ),
      code.Evaluates tape terminal (.finished cost) tape' terminal' ∧
        Machine.runFrom code.program turns 0 ⟨tape, 0⟩ terminal =
          Machine.finish (UInt64.ofNat cost) ⟨tape', code.size⟩ terminal') ∨
    ∃ (error : StreamError) (pc : Nat) (tape' : Tape) (terminal' : σ),
      code.Evaluates tape terminal (.failed error) tape' terminal' ∧
        Machine.runFrom code.program turns 0 ⟨tape, 0⟩ terminal =
          ⟨.failed (.stream error), ⟨tape', pc⟩, terminal'⟩ := by
  obtain ⟨verdict, tape', terminal', hEvaluates⟩ | hSteps :=
    exists_evaluates_or_steps turns tape terminal code.holds_program
  · cases verdict with
    | finished cost =>
        have hRun := hEvaluates.runFrom_finished
        refine .inl ⟨cost, tape', terminal', hEvaluates, ?_⟩
        rw [← hRun]
        apply Machine.runFrom_eq_of_ended h
        rw [hRun]
        exact Machine.finish_outcome_ne_unfinished _ _ terminal'
    | failed error =>
        obtain ⟨turns', pc, hRun⟩ := hEvaluates.runFrom_failed
        refine .inr ⟨error, pc, tape', terminal', hEvaluates, ?_⟩
        rw [← hRun]
        apply Machine.runFrom_eq_of_ended h
        rw [hRun]
        exact nofun
  · exact absurd ((Machine.runFrom_unfinished_iff turns).2 hSteps) h

end Code

/-! ## Runs against a script -/

/-- On some number of turns a run ends with an outcome, a tape and a log of calls. -/
def Machine.EndsWith (machine : Machine) (program : Program) (script : Script) (outcome : Outcome)
    (tape : Tape) (log : Array Call) : Prop :=
  ∃ turns : Nat, (machine.run turns program script).outcome = outcome ∧
    (machine.run turns program script).machine.tape = tape ∧
    (machine.run turns program script).terminal.log = log

/--
On some number of turns a run comes to the end of its program in a number of steps, and
ends with that number in 64 bits, a tape and a log of calls.
-/
def Machine.FinishesIn (machine : Machine) (program : Program) (script : Script) (steps : Nat)
    (tape : Tape) (log : Array Call) : Prop :=
  ∃ turns : Nat, (machine.run turns program script).outcome = .finished (UInt64.ofNat steps) ∧
    (transitions program turns machine.reset script).length = steps ∧
    (machine.run turns program script).machine.tape = tape ∧
    (machine.run turns program script).terminal.log = log

/-- The last flush of a run is one more call in the log, and decides how the run ends. -/
theorem Machine.finish_script (steps : UInt64) (machine : Machine) (script : Script) :
    (script.flush.1 = .ok () ∧
      machine.finish steps script = ⟨.finished steps, machine, script.flush.2⟩ ∧
      script.flush.2.log = script.log.push .flushed) ∨
    ∃ error : StreamError, script.flush.1 = .error error ∧
      machine.finish steps script = ⟨.failed (.stream error), machine, script.flush.2⟩ ∧
      script.flush.2.log = script.log.push (.flushFailed error) := by
  obtain ⟨reads, writes, flushes, log⟩ := script
  rw [finish]
  simp only [Terminal.flush, Script.flush]
  rcases Schedule.next flushes with ⟨_ | error, rest⟩
  · exact .inl ⟨rfl, rfl, rfl⟩
  · exact .inr ⟨error, rfl, rfl, rfl⟩

namespace Code

variable (code : Code) (length : TapeLength) (script : Script)

/-- The three ways in which a run against a script ends. -/
theorem run_ended {turns : Nat}
    (h : ((Machine.fresh length).run turns code.program script).outcome ≠ .unfinished) :
    (∃ (cost : Nat) (tape : Tape) (last : Script),
      code.Evaluates (.blank length) script (.finished cost) tape last ∧
        last.flush.1 = .ok () ∧ last.flush.2.log = last.log.push .flushed ∧
        (Machine.fresh length).run turns code.program script =
          ⟨.finished (UInt64.ofNat cost), ⟨tape, code.size⟩, last.flush.2⟩) ∨
    (∃ (cost : Nat) (error : StreamError) (tape : Tape) (last : Script),
      code.Evaluates (.blank length) script (.finished cost) tape last ∧
        last.flush.1 = .error error ∧ last.flush.2.log = last.log.push (.flushFailed error) ∧
        (Machine.fresh length).run turns code.program script =
          ⟨.failed (.stream error), ⟨tape, code.size⟩, last.flush.2⟩) ∨
    ∃ (error : StreamError) (pc : Nat) (tape : Tape) (last : Script),
      code.Evaluates (.blank length) script (.failed error) tape last ∧
        (Machine.fresh length).run turns code.program script =
          ⟨.failed (.stream error), ⟨tape, pc⟩, last⟩ := by
  rw [Machine.run_fresh] at h ⊢
  obtain ⟨cost, tape, last, hEvaluates, hRun⟩ | ⟨error, pc, tape, last, hEvaluates, hRun⟩ :=
    code.exists_evaluates_of_ended h
  · obtain ⟨hFlush, hFinish, hLog⟩ | ⟨error, hFlush, hFinish, hLog⟩ :=
      Machine.finish_script (UInt64.ofNat cost) ⟨tape, code.size⟩ last
    · exact .inl ⟨cost, tape, last, hEvaluates, hFlush, hLog, hRun.trans hFinish⟩
    · exact .inr (.inl ⟨cost, error, tape, last, hEvaluates, hFlush, hLog, hRun.trans hFinish⟩)
  · exact .inr (.inr ⟨error, pc, tape, last, hEvaluates, hRun⟩)

/-- A run whose evaluation finishes does so too, if the last flush succeeds. -/
theorem run_of_evaluates {cost : Nat} {tape : Tape} {last : Script}
    (h : code.Evaluates (.blank length) script (.finished cost) tape last)
    (hFlush : last.flush.1 = .ok ()) :
    (Machine.fresh length).run (cost + 1) code.program script =
        ⟨.finished (UInt64.ofNat cost), ⟨tape, code.size⟩, last.flush.2⟩ ∧
      last.flush.2.log = last.log.push .flushed := by
  obtain ⟨_, hFinish, hLog⟩ | ⟨error, hError, _, _⟩ :=
    Machine.finish_script (UInt64.ofNat cost) ⟨tape, code.size⟩ last
  · rw [Machine.run_fresh, h.runFrom_finished]
    exact ⟨hFinish, hLog⟩
  · rw [hFlush] at hError
    cases hError

/-- A run finishes exactly if the evaluation does and the last flush succeeds. -/
theorem endsWith_finished_iff (count : UInt64) (tape : Tape) (log : Array Call) :
    (Machine.fresh length).EndsWith code.program script (.finished count) tape log ↔
      ∃ (cost : Nat) (last : Script),
        code.Evaluates (.blank length) script (.finished cost) tape last ∧
          count = UInt64.ofNat cost ∧ last.flush.1 = .ok () ∧ log = last.log.push .flushed := by
  constructor
  · rintro ⟨turns, hOutcome, rfl, rfl⟩
    have hEnded := code.run_ended length script (by rw [hOutcome]; exact nofun)
    obtain ⟨cost, tape, last, hEvaluates, hFlush, hLog, hRun⟩ | ⟨_, _, _, _, _, _, _, hRun⟩ |
      ⟨_, _, _, _, _, hRun⟩ := hEnded
    all_goals
      rw [hRun] at hOutcome ⊢
      cases hOutcome
    exact ⟨cost, last, hEvaluates, rfl, hFlush, hLog⟩
  · rintro ⟨cost, last, hEvaluates, rfl, hFlush, rfl⟩
    obtain ⟨hRun, hLog⟩ := code.run_of_evaluates length script hEvaluates hFlush
    refine ⟨cost + 1, ?_⟩
    rw [hRun]
    exact ⟨rfl, rfl, hLog⟩

/-- It finishes in a number of steps exactly if the evaluation costs as many. -/
theorem finishesIn_iff (cost : Nat) (tape : Tape) (log : Array Call) :
    (Machine.fresh length).FinishesIn code.program script cost tape log ↔
      ∃ last : Script, code.Evaluates (.blank length) script (.finished cost) tape last ∧
        last.flush.1 = .ok () ∧ log = last.log.push .flushed := by
  have hReset := Machine.reset_fresh length
  constructor
  · rintro ⟨turns, hOutcome, hLength, hTape, hLog⟩
    obtain ⟨steps, last, hEvaluates, _, hFlush, hPushed⟩ :=
      (code.endsWith_finished_iff length script _ tape log).1 ⟨turns, hOutcome, hTape, hLog⟩
    -- the evaluation that lies behind the run costs as many steps as the run took
    have hEnough : steps ≤ turns := by
      apply hEvaluates.cost_le_of_ended
      rw [← Machine.run_fresh, hOutcome]
      exact nofun
    rw [hReset, hEvaluates.length_transitions hEnough] at hLength
    rw [hLength] at hEvaluates
    exact ⟨last, hEvaluates, hFlush, hPushed⟩
  · rintro ⟨last, hEvaluates, hFlush, rfl⟩
    obtain ⟨hRun, hLog⟩ := code.run_of_evaluates length script hEvaluates hFlush
    refine ⟨cost + 1, ?_⟩
    rw [hRun, hReset, hEvaluates.length_transitions (Nat.le_succ cost)]
    exact ⟨rfl, rfl, rfl, hLog⟩

/-- A run fails exactly if the evaluation does, or if the flush after it does. -/
theorem endsWith_failed_iff (error : StreamError) (tape : Tape) (log : Array Call) :
    (Machine.fresh length).EndsWith code.program script (.failed (.stream error)) tape log ↔
      (∃ last : Script, code.Evaluates (.blank length) script (.failed error) tape last ∧
        log = last.log) ∨
      ∃ (cost : Nat) (last : Script),
        code.Evaluates (.blank length) script (.finished cost) tape last ∧
          last.flush.1 = .error error ∧ log = last.log.push (.flushFailed error) := by
  constructor
  · rintro ⟨turns, hOutcome, rfl, rfl⟩
    have hEnded := code.run_ended length script (by rw [hOutcome]; exact nofun)
    obtain ⟨_, _, _, _, _, _, hRun⟩ | ⟨cost, _, _, last, hEvaluates, hFlush, hLog, hRun⟩ |
      ⟨_, _, _, last, hEvaluates, hRun⟩ := hEnded
    all_goals
      rw [hRun] at hOutcome ⊢
      cases hOutcome
    · exact .inr ⟨cost, last, hEvaluates, hFlush, hLog⟩
    · exact .inl ⟨last, hEvaluates, rfl⟩
  · rintro (⟨last, hEvaluates, rfl⟩ | ⟨cost, last, hEvaluates, hFlush, rfl⟩)
    · obtain ⟨turns, pc, hRun⟩ := hEvaluates.runFrom_failed
      refine ⟨turns, ?_⟩
      rw [Machine.run_fresh, hRun]
      exact ⟨rfl, rfl, rfl⟩
    · obtain ⟨hOk, _, _⟩ | ⟨error', hError, hFinish, hLog⟩ :=
        Machine.finish_script (UInt64.ofNat cost) ⟨tape, code.size⟩ last
      · rw [hFlush] at hOk
        cases hOk
      · rw [hFlush] at hError
        cases hError
        refine ⟨cost + 1, ?_⟩
        rw [Machine.run_fresh, hEvaluates.runFrom_finished, hFinish]
        exact ⟨rfl, rfl, hLog⟩

/-- A run goes on for ever exactly if there is no evaluation. -/
theorem run_endless_iff :
    (∀ turns : Nat,
      ((Machine.fresh length).run turns code.program script).outcome = .unfinished) ↔
      ¬∃ (verdict : Verdict) (tape : Tape) (last : Script),
        code.Evaluates (.blank length) script verdict tape last := by
  constructor
  · rintro h ⟨verdict, tape, last, hEvaluates⟩
    cases verdict with
    | finished cost =>
        have hOutcome := h (cost + 1)
        rw [Machine.run_fresh, hEvaluates.runFrom_finished] at hOutcome
        exact Machine.finish_outcome_ne_unfinished _ _ last hOutcome
    | failed error =>
        obtain ⟨turns, pc, hRun⟩ := hEvaluates.runFrom_failed
        have hOutcome := h turns
        rw [Machine.run_fresh, hRun] at hOutcome
        cases hOutcome
  · intro h turns
    rw [Machine.run_fresh]
    apply Classical.byContradiction
    intro hEnded
    obtain ⟨cost, tape, last, hEvaluates, _⟩ | ⟨error, _, tape, last, hEvaluates, _⟩ :=
      code.exists_evaluates_of_ended hEnded
    · exact h ⟨_, _, _, hEvaluates⟩
    · exact h ⟨_, _, _, hEvaluates⟩

/-- A run never meets a jump that may not be taken. -/
theorem run_outcome_ne_inconsistent (turns address : Nat) :
    ((Machine.fresh length).run turns code.program script).outcome ≠
      .failed (.inconsistent address) := by
  intro hOutcome
  have hEnded := code.run_ended length script (by rw [hOutcome]; exact nofun)
  obtain ⟨_, _, _, _, _, _, hRun⟩ | ⟨_, _, _, _, _, _, _, hRun⟩ | ⟨_, _, _, _, _, hRun⟩ := hEnded
  all_goals
    rw [hRun] at hOutcome
    cases hOutcome

end Code

/--
**Running a compiled source is evaluating its tree.**  The run of a source that
compiles finishes with a count on a tape with a log exactly if the evaluation of its
tree finishes on that tape with that log, the last flush added, and the count is its
cost, which is the cost itself unless that does not fit in the 64 bits of a count; the
run takes as many steps as the evaluation costs, however many they are.  It fails on a
tape with a log exactly if the evaluation, or the last flush, meets that failure there;
it has no end exactly if the evaluation has none; and it never finds the program
inconsistent.
-/
theorem run_agrees_with_evaluation (alphabet : Alphabet) (source : String) (program : Program)
    (hCompile : compile alphabet source = .ok program) (length : TapeLength) (script : Script) :
    ∃ code : Code, Code.parse (alphabet.recognise source.toList) = some code ∧
      (∀ (count : UInt64) (tape : Tape) (log : Array Call),
        (Machine.fresh length).EndsWith program script (.finished count) tape log ↔
          ∃ (cost : Nat) (last : Script),
            code.Evaluates (.blank length) script (.finished cost) tape last ∧
              count = UInt64.ofNat cost ∧ last.flush.1 = .ok () ∧
              log = last.log.push .flushed) ∧
      (∀ (cost : Nat) (tape : Tape) (log : Array Call),
        (Machine.fresh length).FinishesIn program script cost tape log ↔
          ∃ last : Script, code.Evaluates (.blank length) script (.finished cost) tape last ∧
            last.flush.1 = .ok () ∧ log = last.log.push .flushed) ∧
      (∀ (error : StreamError) (tape : Tape) (log : Array Call),
        (Machine.fresh length).EndsWith program script (.failed (.stream error)) tape log ↔
          (∃ last : Script, code.Evaluates (.blank length) script (.failed error) tape last ∧
            log = last.log) ∨
          ∃ (cost : Nat) (last : Script),
            code.Evaluates (.blank length) script (.finished cost) tape last ∧
              last.flush.1 = .error error ∧ log = last.log.push (.flushFailed error)) ∧
      ((∀ turns : Nat,
        ((Machine.fresh length).run turns program script).outcome = .unfinished) ↔
          ¬∃ (verdict : Verdict) (tape : Tape) (last : Script),
            code.Evaluates (.blank length) script verdict tape last) ∧
      ∀ turns address : Nat,
        ((Machine.fresh length).run turns program script).outcome ≠
          .failed (.inconsistent address) := by
  obtain ⟨code, hCode, rfl⟩ := compile_eq_ok_iff.1 hCompile
  exact ⟨code, Code.parse_eq_some_iff.2 hCode.symm, code.endsWith_finished_iff length script,
    code.finishesIn_iff length script, code.endsWith_failed_iff length script,
    code.run_endless_iff length script, code.run_outcome_ne_inconsistent length script⟩

/-- Two steps up, two rounds of three steps down. -/
theorem run_agrees_with_evaluation_countdown :
    compile .ascii "++[-]" = .ok ⟨#[⟨.increment, 0⟩, ⟨.increment, 0⟩, ⟨.jumpIfZero, 4⟩,
      ⟨.decrement, 0⟩, ⟨.jumpIfNonZero, 2⟩]⟩ ∧
    ∃ code : Code, Code.parse (Alphabet.ascii.recognise "++[-]".toList) = some code ∧
      ∃ (tape : Tape) (last : Script),
        code.Evaluates (.blank ⟨1, by decide⟩) ({} : Script) (.finished 8) tape last := by
  have hCompile : compile .ascii "++[-]" = .ok ⟨#[⟨.increment, 0⟩, ⟨.increment, 0⟩,
      ⟨.jumpIfZero, 4⟩, ⟨.decrement, 0⟩, ⟨.jumpIfNonZero, 2⟩]⟩ := by rfl
  refine ⟨hCompile, ?_⟩
  obtain ⟨code, hParse, _, hFinishes, _⟩ :=
    run_agrees_with_evaluation .ascii "++[-]" _ hCompile ⟨1, by decide⟩ {}
  obtain ⟨last, hEvaluates, _⟩ := (hFinishes 8 _ _).1 ⟨9, by rfl, by rfl, by rfl, by rfl⟩
  exact ⟨code, hParse, _, last, hEvaluates⟩

end TapeLang
