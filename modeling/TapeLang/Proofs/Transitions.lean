import TapeLang.Proofs.Stepping

/-!
# What a step can do

Whatever holds of all runs comes from what one step can do.  That is said once,
in two layers.  `Machine.Acts` lists what the next instruction can come to
before the terminal is asked, and `Machine.Moves` what a step can come to once
the terminal has answered.  A proof about steps goes through those cases and
does not open the machine again.

A run is also more than its end.  `Machine.transitions` are the steps of a run
that succeed, each with the machine before it and the machine after it.

## Main results

* `Machine.acts`, `Machine.moves` — the cases are all there are.
* `Machine.step_error_machine` — a step that fails changes nothing in the machine.
* `Machine.size_step` — no step changes the size of the tape.
* `Machine.runFrom_keeps` — what every step keeps, a run keeps.
* `Machine.runFrom_ended` — a run that ends is a chain of steps, and then the end
  of the program or a step that fails.
-/

namespace TapeLang

namespace Operation

/-- Whether the operation needs the terminal. -/
def isExchange : Operation → Bool
  | .write | .read => true
  | _ => false

/-- Whether the operation is a jump whose condition a value of the current cell meets. -/
def jumpsAt : Operation → Cell → Bool
  | .jumpIfZero, value => value == 0
  | .jumpIfNonZero, value => value != 0
  | _, _ => false

theorem isJump_of_jumpsAt {operation : Operation} {value : Cell}
    (h : operation.jumpsAt value = true) : operation.isJump = true := by
  cases operation with
  | jumpIfZero => rfl
  | jumpIfNonZero => rfl
  | _ => cases h

theorem isExchange_eq_false_of_isJump {operation : Operation} (h : operation.isJump = true) :
    operation.isExchange = false := by
  cases operation with
  | jumpIfZero => rfl
  | jumpIfNonZero => rfl
  | _ => cases h

end Operation

namespace Machine

variable {program : Program} {machine next : Machine}

/-! ## Before the terminal is asked -/

/-- What the next instruction can come to before the terminal is asked. -/
inductive Acts (program : Program) (machine : Machine) : Action → Prop where
  | goesOn {instruction : Instruction} {change : Tape → Tape}
      (hAt : program.get? machine.pc = some instruction)
      (hQuiet : instruction.operation.isExchange = false)
      (hStays : instruction.operation.jumpsAt machine.tape.get = false)
      (hSize : ∀ tape : Tape, (change tape).size = tape.size) :
      Acts program machine (.proceed (machine.next change))
  | jumps {jump : Instruction} (hAt : program.get? machine.pc = some jump)
      (hTaken : jump.operation.jumpsAt machine.tape.get = true)
      (hLinked : program.linked machine.pc jump = true) :
      Acts program machine (.proceed ⟨machine.tape, jump.target⟩)
  | writes {target : Nat} (hAt : program.get? machine.pc = some ⟨.write, target⟩) :
      Acts program machine (.write machine.tape.get.toUInt8 machine)
  | reads {target : Nat} (hAt : program.get? machine.pc = some ⟨.read, target⟩) :
      Acts program machine (.read machine)
  | outside (hAt : program.get? machine.pc = none) : Acts program machine (.stuck machine)
  | blocked {jump : Instruction} (hAt : program.get? machine.pc = some jump)
      (hTaken : jump.operation.jumpsAt machine.tape.get = true)
      (hUnlinked : program.linked machine.pc jump = false) :
      Acts program machine (.stuck machine)

/-- A jump whose condition is met is taken or stops the machine. -/
private theorem acts_jump {jump : Instruction} (hAt : program.get? machine.pc = some jump)
    (hTaken : jump.operation.jumpsAt machine.tape.get = true) :
    Acts program machine (machine.jump program jump) := by
  unfold Machine.jump
  by_cases hLinked : program.linked machine.pc jump = true
  · rw [if_pos hLinked]
    exact .jumps hAt hTaken hLinked
  · rw [if_neg hLinked]
    exact .blocked hAt hTaken (Bool.eq_false_iff.2 hLinked)

/-- The cases are all there are. -/
theorem acts (program : Program) (machine : Machine) :
    Acts program machine (machine.act program) := by
  unfold act
  cases hAt : program.get? machine.pc with
  | none => exact .outside hAt
  | some instruction =>
      obtain ⟨operation, target⟩ := instruction
      cases operation with
      | forward => exact .goesOn hAt rfl rfl Tape.size_forward
      | backward => exact .goesOn hAt rfl rfl Tape.size_backward
      | increment => exact .goesOn hAt rfl rfl Tape.size_increment
      | decrement => exact .goesOn hAt rfl rfl Tape.size_decrement
      | write => exact .writes hAt
      | read => exact .reads hAt
      | jumpIfZero =>
          by_cases hZero : machine.tape.get = 0
          · simp only [if_pos hZero]
            exact acts_jump hAt (by simp [Operation.jumpsAt, hZero])
          · simp only [if_neg hZero]
            exact .goesOn hAt rfl (by simp [Operation.jumpsAt, hZero]) fun _ => rfl
      | jumpIfNonZero =>
          by_cases hZero : machine.tape.get = 0
          · simp only [if_pos hZero]
            exact .goesOn hAt rfl (by simp [Operation.jumpsAt, hZero]) fun _ => rfl
          · simp only [if_neg hZero]
            exact acts_jump hAt (by simp [Operation.jumpsAt, hZero])

/-! ## With the answers of a terminal -/

variable {σ : Type} [Terminal σ] {terminal terminal' : σ}

/-- What a step can come to. -/
inductive Moves (program : Program) (machine : Machine) (terminal : σ) : Step σ → Prop where
  | proceeds {next : Machine} (hActs : Acts program machine (.proceed next)) :
      Moves program machine terminal ⟨.ok (), next, terminal⟩
  | writes {target : Nat} {terminal' : σ}
      (hAt : program.get? machine.pc = some ⟨.write, target⟩)
      (hWrite : Terminal.write machine.tape.get.toUInt8 terminal = (.ok (), terminal')) :
      Moves program machine terminal ⟨.ok (), machine.next id, terminal'⟩
  | writeFails {target : Nat} {error : StreamError} {terminal' : σ}
      (hAt : program.get? machine.pc = some ⟨.write, target⟩)
      (hWrite : Terminal.write machine.tape.get.toUInt8 terminal = (.error error, terminal')) :
      Moves program machine terminal ⟨.error (.stream error), machine, terminal'⟩
  | reads {target : Nat} {input : Option UInt8} {flushed terminal' : σ}
      (hAt : program.get? machine.pc = some ⟨.read, target⟩)
      (hFlush : Terminal.flush terminal = (.ok (), flushed))
      (hRead : Terminal.read flushed = (.ok input, terminal')) :
      Moves program machine terminal
        ⟨.ok (), machine.next (·.set (received input)), terminal'⟩
  | flushFails {target : Nat} {error : StreamError} {terminal' : σ}
      (hAt : program.get? machine.pc = some ⟨.read, target⟩)
      (hFlush : Terminal.flush terminal = (.error error, terminal')) :
      Moves program machine terminal ⟨.error (.stream error), machine, terminal'⟩
  | readFails {target : Nat} {error : StreamError} {flushed terminal' : σ}
      (hAt : program.get? machine.pc = some ⟨.read, target⟩)
      (hFlush : Terminal.flush terminal = (.ok (), flushed))
      (hRead : Terminal.read flushed = (.error error, terminal')) :
      Moves program machine terminal ⟨.error (.stream error), machine, terminal'⟩
  | halts (hActs : Acts program machine (.stuck machine)) :
      Moves program machine terminal ⟨.error (.inconsistent machine.pc), machine, terminal⟩

/-- The cases are all there are. -/
theorem moves (program : Program) (machine : Machine) (terminal : σ) :
    Moves program machine terminal (machine.step program terminal) := by
  have hActs := acts program machine
  unfold step
  generalize machine.act program = action at hActs
  cases hActs with
  | goesOn hAt hQuiet hStays hSize => exact .proceeds (.goesOn hAt hQuiet hStays hSize)
  | jumps hAt hTaken hLinked => exact .proceeds (.jumps hAt hTaken hLinked)
  | writes hAt =>
      dsimp only [writeStep]
      rcases hWrite : Terminal.write machine.tape.get.toUInt8 terminal with ⟨error | _, terminal'⟩
      · exact .writeFails hAt hWrite
      · exact .writes hAt hWrite
  | reads hAt =>
      dsimp only [readStep]
      rcases hFlush : Terminal.flush terminal with ⟨error | _, flushed⟩
      · exact .flushFails hAt hFlush
      · dsimp only
        rcases hRead : Terminal.read flushed with ⟨error | input, terminal'⟩
        · exact .readFails hAt hFlush hRead
        · exact .reads hAt hFlush hRead
  | outside hAt => exact .halts (.outside hAt)
  | blocked hAt hTaken hUnlinked => exact .halts (.blocked hAt hTaken hUnlinked)

/-- A step that fails changes nothing in the machine. -/
theorem step_error_machine {error : ExecuteError}
    (h : machine.step program terminal = ⟨.error error, next, terminal'⟩) : next = machine := by
  have hMoves := moves program machine terminal
  rw [h] at hMoves
  cases hMoves <;> rfl

/-- No step changes the size of the tape. -/
theorem size_step (program : Program) (machine : Machine) (terminal : σ) :
    (machine.step program terminal).machine.tape.size = machine.tape.size := by
  have hMoves := moves program machine terminal
  generalize machine.step program terminal = result at hMoves
  cases hMoves with
  | proceeds hActs =>
      cases hActs with
      | goesOn _ _ _ hSize => exact hSize machine.tape
      | jumps => rfl
  | reads => exact Tape.size_set machine.tape _
  | _ => rfl

/-! ## The steps of a run -/

/-- A step that succeeded: the machine before it and the machine after it. -/
structure Transition where
  /-- The machine before the step. -/
  before : Machine
  /-- The machine after the step. -/
  after : Machine

/-- The steps that succeed one after the other, as many as there are turns for. -/
def transitions (program : Program) : (turns : Nat) → Machine → σ → List Transition
  | 0, _, _ => []
  | turns + 1, machine, terminal =>
    match machine.step program terminal with
    | ⟨.ok (), after, terminal⟩ => ⟨machine, after⟩ :: transitions program turns after terminal
    | ⟨.error _, _, _⟩ => []

theorem transitions_ok (turns : Nat)
    (h : machine.step program terminal = ⟨.ok (), next, terminal'⟩) :
    transitions program (turns + 1) machine terminal =
      ⟨machine, next⟩ :: transitions program turns next terminal' := by
  rw [transitions, h]

theorem transitions_error (turns : Nat) {error : ExecuteError}
    (h : machine.step program terminal = ⟨.error error, next, terminal'⟩) :
    transitions program turns machine terminal = [] := by
  cases turns with
  | zero => rfl
  | succ turns => rw [transitions, h]

/-- Steps in front of others are counted with them. -/
theorem Steps.length_transitions {n : Nat} {machine last : Machine} {terminal terminal' : σ}
    (h : Steps program n machine terminal last terminal') (turns : Nat) :
    (transitions program (turns + n) machine terminal).length =
      (transitions program turns last terminal').length + n := by
  induction h with
  | refl => rfl
  | @head n _ _ _ _ _ _ hStep _ ih =>
      rw [← Nat.add_assoc, transitions_ok (turns + n) hStep, List.length_cons, ih, Nat.add_assoc]

/-- Every transition is a step. -/
theorem step_of_mem_transitions (turns : Nat) :
    ∀ {machine : Machine} {terminal : σ} {move : Transition},
      move ∈ transitions program turns machine terminal →
        ∃ terminal₁ terminal₂ : σ,
          move.before.step program terminal₁ = ⟨.ok (), move.after, terminal₂⟩ := by
  induction turns with
  | zero => intro machine terminal move h; cases h
  | succ turns ih =>
      intro machine terminal move h
      rcases hStep : machine.step program terminal with ⟨error | _, next, terminal'⟩
      · rw [transitions_error _ hStep] at h
        cases h
      · rw [transitions_ok _ hStep] at h
        cases h with
        | head => exact ⟨terminal, terminal', hStep⟩
        | tail _ h => exact ih h

/-! ## Whole runs -/

@[simp] theorem finish_machine (steps : UInt64) (machine : Machine) (terminal : σ) :
    (machine.finish steps terminal).machine = machine := by
  unfold finish
  split <;> rfl

/-- What every step within the program keeps, a run keeps. -/
theorem runFrom_keeps {P : Machine → Prop}
    (hKeeps : ∀ (machine : Machine) (terminal : σ), machine.pc < program.size → P machine →
      P (machine.step program terminal).machine) (turns : Nat) :
    ∀ {steps : UInt64} {machine : Machine} {terminal : σ}, P machine →
      P (runFrom program turns steps machine terminal).machine := by
  induction turns with
  | zero => intro steps machine terminal h; exact h
  | succ turns ih =>
      intro steps machine terminal h
      by_cases hPc : machine.pc < program.size
      · have hNext := hKeeps machine terminal hPc h
        rw [runFrom, if_pos hPc]
        rcases hStep : machine.step program terminal with ⟨error | _, next, terminal'⟩
        · rw [hStep] at hNext
          exact hNext
        · rw [hStep] at hNext
          exact ih hNext
      · rw [runFrom, if_neg hPc, finish_machine]
        exact h

/-- Behind the program every step fails. -/
theorem step_outside (terminal : σ) (h : program.size ≤ machine.pc) :
    machine.step program terminal = ⟨.error (.inconsistent machine.pc), machine, terminal⟩ := by
  have hNone : program.get? machine.pc = none := Array.getElem?_eq_none h
  rw [step, act, hNone]

/--
A run that ends is a chain of steps, and then either the program is at its end or
the next step fails.
-/
theorem runFrom_ended (turns : Nat) :
    ∀ {steps : UInt64} {machine : Machine} {terminal : σ},
      (runFrom program turns steps machine terminal).outcome ≠ .unfinished →
        ∃ (n : Nat) (last : Machine) (terminal' : σ),
          Steps program n machine terminal last terminal' ∧
          transitions program turns machine terminal = transitions program n machine terminal ∧
          ((program.size ≤ last.pc ∧
              runFrom program turns steps machine terminal =
                last.finish (steps + UInt64.ofNat n) terminal') ∨
            ∃ (error : ExecuteError) (terminal'' : σ), last.pc < program.size ∧
              last.step program terminal' = ⟨.error error, last, terminal''⟩ ∧
              runFrom program turns steps machine terminal =
                ⟨.failed error, last, terminal''⟩) := by
  induction turns with
  | zero => intro steps machine terminal h; exact absurd rfl h
  | succ turns ih =>
      intro steps machine terminal h
      by_cases hPc : machine.pc < program.size
      · rw [runFrom, if_pos hPc] at h ⊢
        rcases hStep : machine.step program terminal with ⟨error | _, next, terminal'⟩
        · obtain rfl := step_error_machine hStep
          exact ⟨0, next, terminal, .refl, transitions_error _ hStep,
            .inr ⟨error, terminal', hPc, hStep, rfl⟩⟩
        · rw [hStep] at h
          obtain ⟨n, last, terminal₁, hSteps, hMoves, hEnd⟩ := ih h
          rw [count_succ] at hEnd
          refine ⟨n + 1, last, terminal₁, .head hStep hSteps, ?_, hEnd⟩
          rw [transitions_ok turns hStep, transitions_ok n hStep, hMoves]
      · have hOut : program.size ≤ machine.pc := Nat.le_of_not_lt hPc
        rw [runFrom, if_neg hPc]
        exact ⟨0, machine, terminal, .refl, transitions_error _ (step_outside terminal hOut),
          .inl ⟨hOut, congrArg (machine.finish · terminal) steps.add_zero.symm⟩⟩

end Machine

end TapeLang
