import TapeLang.Proofs.Linking
import TapeLang.Proofs.Transitions
import TapeLang.Stream.Script

/-!
# Where control can go

A program may be put together by hand, with any targets at all, and a machine
looks at a jump only when it takes it.  That is enough.  A jump that is taken
leads to its partner, which lies in the program, and every other step leads to
the next instruction; so the address never passes the end of the program.  The
one thing that can go wrong is that a jump whose condition is met is broken, and
then the machine stops in front of it.  In a program without broken jumps, such
as a compiled one, nothing goes wrong.

## Main results

* `Program.linked_iff_joined`, `Program.linked_eq_false_iff` — the check of a
  machine, in terms of the two instructions.
* `Machine.pc_of_step_ok` — where one step leads.
* `run_control_flow_safe` — the same for whole runs, and the only way in which a
  program can be found inconsistent.
-/

namespace TapeLang

namespace Program

variable {program : Program} {address : Nat} {jump : Instruction}

/-- At two addresses stand opposite jumps, and each names the other's address. -/
def Joined (program : Program) (i j : Nat) : Prop :=
  (program.get? i = some ⟨.jumpIfZero, j⟩ ∧ program.get? j = some ⟨.jumpIfNonZero, i⟩) ∨
    (program.get? i = some ⟨.jumpIfNonZero, j⟩ ∧ program.get? j = some ⟨.jumpIfZero, i⟩)

/-- Every jump is joined with the instruction at its target. -/
def AllJoined (program : Program) : Prop :=
  ∀ (i : Nat) (jump : Instruction), program.get? i = some jump →
    jump.operation.isJump = true → program.Joined i jump.target

/--
The target of a jump standing at an address is out of range, or holds another
operation than the partner, or names another address.
-/
def Broken (program : Program) (address : Nat) (jump : Instruction) : Prop :=
  program.size ≤ jump.target ∨
    ∃ other : Instruction, program.get? jump.target = some other ∧
      (jump.operation.partner? ≠ some other.operation ∨ other.target ≠ address)

/-- A machine takes a jump exactly if it is joined with the instruction at its target. -/
theorem linked_iff_joined (hAt : program.get? address = some jump) :
    program.linked address jump = true ↔ program.Joined address jump.target := by
  obtain ⟨operation, target⟩ := jump
  rw [linked_iff]
  constructor
  · rintro ⟨⟨other, back⟩, hOther, hPartner, rfl⟩
    cases operation with
    | jumpIfZero =>
        cases hPartner
        exact .inl ⟨hAt, hOther⟩
    | jumpIfNonZero =>
        cases hPartner
        exact .inr ⟨hAt, hOther⟩
    | _ => cases hPartner
  · rintro (⟨hHere, hThere⟩ | ⟨hHere, hThere⟩)
    all_goals
      rw [hAt] at hHere
      cases hHere
      exact ⟨_, hThere, rfl, rfl⟩

/-- A machine refuses a jump exactly if it is broken. -/
theorem linked_eq_false_iff :
    program.linked address jump = false ↔ program.Broken address jump := by
  unfold linked Broken
  cases hOther : program.get? jump.target with
  | none =>
      have hOut : program.size ≤ jump.target := Array.getElem?_eq_none_iff.1 hOther
      simp [hOut]
  | some other =>
      have hIn : jump.target < program.size := (Array.getElem?_eq_some_iff.1 hOther).1
      simp [Nat.not_le.2 hIn, ← Decidable.not_and_iff_or_not]

end Program

theorem compile_allJoined {alphabet : Alphabet} {source : String} {program : Program}
    (h : compile alphabet source = .ok program) : program.AllJoined := by
  obtain ⟨code, _, rfl⟩ := compile_eq_ok_iff.1 h
  intro i jump hAt hJump
  exact (Program.linked_iff_joined hAt).1 (Code.linked_program hAt hJump)

namespace Machine

variable {σ : Type} [Terminal σ] {program : Program} {machine next : Machine}
  {terminal terminal' : σ}

/-! ## Single steps -/

/-- A step leads from a jump that is taken to its partner, and otherwise to the next instruction. -/
theorem pc_of_step_ok (h : machine.step program terminal = ⟨.ok (), next, terminal'⟩) :
    ∃ instruction : Instruction, program.get? machine.pc = some instruction ∧
      (instruction.operation.jumpsAt machine.tape.get = true →
        program.Joined machine.pc next.pc) ∧
      (instruction.operation.jumpsAt machine.tape.get = false → next.pc = machine.pc + 1) := by
  have hMoves := moves program machine terminal
  rw [h] at hMoves
  cases hMoves with
  | proceeds hActs =>
      cases hActs with
      | goesOn hAt _ hStays _ =>
          refine ⟨_, hAt, fun hTaken => ?_, fun _ => rfl⟩
          rw [hStays] at hTaken
          cases hTaken
      | jumps hAt hTaken hLinked =>
          refine ⟨_, hAt, fun _ => (Program.linked_iff_joined hAt).1 hLinked, fun hStays => ?_⟩
          rw [hTaken] at hStays
          cases hStays
  | writes hAt _ => exact ⟨_, hAt, nofun, fun _ => rfl⟩
  | reads hAt _ _ => exact ⟨_, hAt, nofun, fun _ => rfl⟩

/-- A step that starts in the program does not pass its end. -/
theorem pc_step_le (terminal : σ) (hPc : machine.pc < program.size) :
    (machine.step program terminal).machine.pc ≤ program.size := by
  rcases hStep : machine.step program terminal with ⟨error | _, next, terminal'⟩
  · rw [step_error_machine hStep]
    exact Nat.le_of_lt hPc
  · obtain ⟨instruction, _, hTaken, hStays⟩ := pc_of_step_ok hStep
    cases hJumps : instruction.operation.jumpsAt machine.tape.get with
    | false =>
        have hNext := hStays hJumps
        show next.pc ≤ program.size
        omega
    | true =>
        obtain ⟨_, hThere⟩ | ⟨_, hThere⟩ := hTaken hJumps
        all_goals exact Nat.le_of_lt (Array.getElem?_eq_some_iff.1 hThere).1

/-- Within the program only a broken jump that is to be taken makes a step inconsistent. -/
theorem broken_of_step_inconsistent {address : Nat} (hPc : machine.pc < program.size)
    (h : machine.step program terminal = ⟨.error (.inconsistent address), next, terminal'⟩) :
    machine.pc = address ∧ ∃ jump : Instruction, program.get? address = some jump ∧
      jump.operation.jumpsAt machine.tape.get = true ∧ program.Broken address jump := by
  have hMoves := moves program machine terminal
  rw [h] at hMoves
  cases hMoves with
  | halts hActs =>
      cases hActs with
      | outside hAt =>
          have hOut : program.size ≤ machine.pc := Array.getElem?_eq_none_iff.1 hAt
          omega
      | blocked hAt hTaken hUnlinked =>
          exact ⟨rfl, _, hAt, hTaken, Program.linked_eq_false_iff.1 hUnlinked⟩

/-! ## Whole runs -/

/-- The address never passes the end of the program. -/
theorem pc_run_le (turns : Nat) (program : Program) (machine : Machine) (terminal : σ) :
    (machine.run turns program terminal).machine.pc ≤ program.size := by
  apply runFrom_keeps (P := fun machine => machine.pc ≤ program.size)
  · intro machine terminal hPc _
    exact pc_step_le terminal hPc
  · exact Nat.zero_le program.size

/-- A run that finishes has come to the end of the program. -/
theorem le_pc_of_finished {turns : Nat} {steps : UInt64}
    (h : (machine.run turns program terminal).outcome = .finished steps) :
    program.size ≤ (machine.run turns program terminal).machine.pc := by
  unfold run at h ⊢
  obtain ⟨n, last, terminal', _, _, ⟨hOut, hRun⟩ | ⟨error, _, _, _, hRun⟩⟩ :=
    runFrom_ended turns (by rw [h]; exact nofun)
  · rw [hRun, finish_machine]
    exact hOut
  · rw [hRun] at h
    cases h

/-- A run finds its program inconsistent only in front of a broken jump that is to be taken. -/
theorem broken_of_run_inconsistent {turns address : Nat}
    (h : (machine.run turns program terminal).outcome = .failed (.inconsistent address)) :
    address < program.size ∧ (machine.run turns program terminal).machine.pc = address ∧
      ∃ jump : Instruction, program.get? address = some jump ∧
        jump.operation.jumpsAt (machine.run turns program terminal).machine.tape.get = true ∧
        program.Broken address jump := by
  unfold run at h ⊢
  obtain ⟨n, last, terminal', _, _, ⟨_, hRun⟩ | ⟨error, _, hPc, hStep, hRun⟩⟩ :=
    runFrom_ended turns (by rw [h]; exact nofun)
  · -- the last flush fails in no such way
    rw [hRun, finish] at h
    split at h <;> cases h
  · rw [hRun] at h ⊢
    cases h
    obtain ⟨rfl, hJump⟩ := broken_of_step_inconsistent hPc hStep
    exact ⟨hPc, rfl, hJump⟩

/-- A program whose jumps are all joined is never found inconsistent. -/
theorem run_ne_inconsistent (hJoined : program.AllJoined) (turns address : Nat) :
    (machine.run turns program terminal).outcome ≠ .failed (.inconsistent address) := by
  intro h
  obtain ⟨_, _, jump, hAt, hTaken, hBroken⟩ := broken_of_run_inconsistent h
  have hJump : jump.operation.isJump = true := Operation.isJump_of_jumpsAt hTaken
  have hLinked := (Program.linked_iff_joined hAt).2 (hJoined address jump hAt hJump)
  rw [Program.linked_eq_false_iff.2 hBroken] at hLinked
  cases hLinked

end Machine

/--
**Control stays where the program sends it.**  In a run of any program at all,
the address never passes the end of the program, and a run that finishes is
exactly there.  A jump whose condition is met leads to the opposite jump that it
is joined with; every other step leads to the next instruction.  A program is
found inconsistent only if the machine stands in front of a jump in the program
whose condition is met and which is broken.  So it never happens to a compiled
program, nor to any other whose jumps are all joined.
-/
theorem run_control_flow_safe {σ : Type} [Terminal σ] (program : Program) (machine : Machine)
    (terminal : σ) :
    (∀ turns : Nat, (machine.run turns program terminal).machine.pc ≤ program.size) ∧
    (∀ (turns : Nat) (steps : UInt64),
      (machine.run turns program terminal).outcome = .finished steps →
      (machine.run turns program terminal).machine.pc = program.size) ∧
    (∀ turns : Nat, ∀ move ∈ Machine.transitions program turns machine.reset terminal,
      ∃ instruction : Instruction, program.get? move.before.pc = some instruction ∧
        (instruction.operation.jumpsAt move.before.tape.get = true →
          program.Joined move.before.pc move.after.pc) ∧
        (instruction.operation.jumpsAt move.before.tape.get = false →
          move.after.pc = move.before.pc + 1)) ∧
    (∀ turns address : Nat,
      (machine.run turns program terminal).outcome = .failed (.inconsistent address) →
        address < program.size ∧ (machine.run turns program terminal).machine.pc = address ∧
          ∃ jump : Instruction, program.get? address = some jump ∧
            jump.operation.jumpsAt (machine.run turns program terminal).machine.tape.get = true ∧
            program.Broken address jump) ∧
    ((∃ (alphabet : Alphabet) (source : String), compile alphabet source = .ok program) →
      ∀ turns address : Nat,
        (machine.run turns program terminal).outcome ≠ .failed (.inconsistent address)) ∧
    (program.AllJoined → ∀ turns address : Nat,
      (machine.run turns program terminal).outcome ≠ .failed (.inconsistent address)) := by
  refine ⟨fun turns => Machine.pc_run_le turns program machine terminal, ?_, ?_, ?_, ?_, ?_⟩
  · intro turns steps hFinished
    exact Nat.le_antisymm (Machine.pc_run_le turns program machine terminal)
      (Machine.le_pc_of_finished hFinished)
  · intro turns move hMove
    obtain ⟨_, _, hStep⟩ := Machine.step_of_mem_transitions turns hMove
    exact Machine.pc_of_step_ok hStep
  · intro turns address hInconsistent
    exact Machine.broken_of_run_inconsistent hInconsistent
  · rintro ⟨alphabet, source, hCompile⟩ turns address
    exact Machine.run_ne_inconsistent (compile_allJoined hCompile) turns address
  · intro hJoined turns address
    exact Machine.run_ne_inconsistent hJoined turns address

/-- The closing jump is in place but names itself, so the opening one may not be taken. -/
theorem run_control_flow_safe_one_sided :
    ((Machine.fresh ⟨1, by decide⟩).run 9 ⟨#[⟨.jumpIfZero, 1⟩, ⟨.jumpIfNonZero, 1⟩]⟩
      ({} : Script)).outcome = .failed (.inconsistent 0) ∧
    Program.Broken ⟨#[⟨.jumpIfZero, 1⟩, ⟨.jumpIfNonZero, 1⟩]⟩ 0 ⟨.jumpIfZero, 1⟩ := by
  have hOutcome : ((Machine.fresh ⟨1, by decide⟩).run 9
      ⟨#[⟨.jumpIfZero, 1⟩, ⟨.jumpIfNonZero, 1⟩]⟩ ({} : Script)).outcome =
        .failed (.inconsistent 0) := by decide
  obtain ⟨_, _, _, hInconsistent, _⟩ := run_control_flow_safe
    ⟨#[⟨.jumpIfZero, 1⟩, ⟨.jumpIfNonZero, 1⟩]⟩ (Machine.fresh ⟨1, by decide⟩) ({} : Script)
  obtain ⟨_, _, jump, hAt, _, hBroken⟩ := hInconsistent 9 0 hOutcome
  cases hAt
  exact ⟨hOutcome, hBroken⟩

end TapeLang
