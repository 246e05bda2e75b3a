import Mathlib.Data.List.Forall2
import TapeLang.Proofs.Transitions

/-!
# Two runs in lockstep

Two machines can do the same thing without being the same: one on a tape that is
turned, or longer, or with a program that stands further on.  Nothing a machine
does depends on where its program stands or on how its tape is numbered, as long
as operations keep the two tapes related.  That is the whole of the argument, and
it is made once here, for any relation of tapes that operations keep
(`Tape.Congruence`) and any two programs that match up to a shift of addresses
(`Program.Matches`).

Moves are where tapes differ, so a congruence may keep moves only while the first
tape is free to make them; then the two runs are in lockstep for as long as that
is so.

## Main results

* `Machine.act_alike`, `Machine.step_alike` — one instruction on both sides.
* `Machine.runFrom_alike` — the same outcome, the same calls and related machines.
* `Machine.transitions_alike` — and so after every step on the way.
-/

namespace TapeLang

/-! ## What is related -/

/--
A relation of tapes that no operation breaks.  The current cells have the same
value, and every operation leads to related tapes; of a move this is asked only
where the first tape is free to make it.
-/
structure Tape.Congruence (Alike : Tape → Tape → Prop) (Free : Operation → Tape → Prop) :
    Prop where
  get : ∀ {tape tape' : Tape}, Alike tape tape' → tape'.get = tape.get
  set : ∀ {tape tape' : Tape}, Alike tape tape' →
    ∀ value : Cell, Alike (tape.set value) (tape'.set value)
  forward : ∀ {tape tape' : Tape}, Alike tape tape' → Free .forward tape →
    Alike tape.forward tape'.forward
  backward : ∀ {tape tape' : Tape}, Alike tape tape' → Free .backward tape →
    Alike tape.backward tape'.backward

/-- The same operation and, in a jump, a target that is further on. -/
structure Instruction.Matches (shift : Nat) (instruction other : Instruction) : Prop where
  operation : other.operation = instruction.operation
  target : instruction.operation.isJump = true → other.target = instruction.target + shift

/-- From an address on, a program holds what matches another program, and it ends with it. -/
def Program.Matches (shift : Nat) (program program' : Program) : Prop :=
  ∀ address : Nat, Option.Rel (Instruction.Matches shift) (program.get? address)
    (program'.get? (address + shift))

/-- Related tapes, and addresses that differ by the shift. -/
structure Machine.Alike (AlikeTapes : Tape → Tape → Prop) (shift : Nat)
    (machine machine' : Machine) : Prop where
  tape : AlikeTapes machine.tape machine'.tape
  pc : machine'.pc = machine.pc + shift

/-- The same error, in a program that stands further on. -/
def ExecuteError.later (shift : Nat) : ExecuteError → ExecuteError
  | .stream error => .stream error
  | .inconsistent address => .inconsistent (address + shift)

/--
The same outcome, in a program that stands further on and is entered so many steps
later.  Steps are counted as a run counts them, in 64 bits.
-/
def Outcome.later (shift : Nat) : Outcome → Outcome
  | .finished steps => .finished (steps + UInt64.ofNat shift)
  | .failed error => .failed (error.later shift)
  | .unfinished => .unfinished

@[simp] theorem ExecuteError.later_zero (error : ExecuteError) : error.later 0 = error := by
  cases error <;> rfl

@[simp] theorem Outcome.later_zero (outcome : Outcome) : outcome.later 0 = outcome := by
  cases outcome with
  | finished steps => exact congrArg Outcome.finished steps.add_zero
  | failed error => exact congrArg Outcome.failed error.later_zero
  | unfinished => rfl

theorem Operation.isJump_of_partner? {operation partner : Operation}
    (h : operation.partner? = some partner) : partner.isJump = true := by
  cases operation with
  | jumpIfZero => cases h; rfl
  | jumpIfNonZero => cases h; rfl
  | _ => cases h

namespace Program.Matches

variable {shift address : Nat} {program program' : Program} {instruction other : Instruction}

theorem get?_eq_none (h : program.Matches shift program') (hAt : program.get? address = none) :
    program'.get? (address + shift) = none := by
  have hRel := h address
  rw [hAt] at hRel
  cases hOther : program'.get? (address + shift) with
  | none => rfl
  | some other =>
      rw [hOther] at hRel
      cases hRel

theorem exists_get? (h : program.Matches shift program')
    (hAt : program.get? address = some instruction) :
    ∃ other : Instruction, program'.get? (address + shift) = some other ∧
      instruction.Matches shift other := by
  have hRel := h address
  rw [hAt] at hRel
  cases hOther : program'.get? (address + shift) with
  | none =>
      rw [hOther] at hRel
      cases hRel
  | some other =>
      rw [hOther] at hRel
      cases hRel with
      | some hMatches => exact ⟨other, rfl, hMatches⟩

/-- The two programs end together. -/
theorem lt_size_iff (h : program.Matches shift program') :
    address + shift < program'.size ↔ address < program.size := by
  constructor
  · intro hLess
    apply Nat.lt_of_not_ge
    intro hOut
    have hNone : program.get? address = none := Array.getElem?_eq_none hOut
    have hNone' : program'.size ≤ address + shift :=
      Array.getElem?_eq_none_iff.1 (h.get?_eq_none hNone)
    omega
  · intro hLess
    have hSome : program.get? address = some program.instructions[address] :=
      Array.getElem?_eq_getElem hLess
    obtain ⟨other, hOther, _⟩ := h.exists_get? hSome
    exact (Array.getElem?_eq_some_iff.1 hOther).1

/-- A jump may be taken in the one program exactly if it may be taken in the other. -/
theorem linked (h : program.Matches shift program') (hMatches : instruction.Matches shift other)
    (hJump : instruction.operation.isJump = true) :
    program'.linked (address + shift) other = program.linked address instruction := by
  have hOperation := hMatches.operation
  have hTarget := hMatches.target hJump
  rw [Bool.eq_iff_iff, linked_iff, linked_iff, hOperation, hTarget]
  constructor
  · rintro ⟨partner', hAt', hPartner', hBack'⟩
    cases hAt : program.get? instruction.target with
    | none =>
        rw [h.get?_eq_none hAt] at hAt'
        cases hAt'
    | some partner =>
        obtain ⟨other', hOther', hSame⟩ := h.exists_get? hAt
        rw [hAt'] at hOther'
        cases hOther'
        rw [hSame.operation] at hPartner'
        have hBack := hSame.target (Operation.isJump_of_partner? hPartner')
        exact ⟨partner, rfl, hPartner', by omega⟩
  · rintro ⟨partner, hAt, hPartner, hBack⟩
    obtain ⟨partner', hAt', hSame⟩ := h.exists_get? hAt
    have hBack' := hSame.target (Operation.isJump_of_partner? hPartner)
    exact ⟨partner', hAt', by rw [hSame.operation, hPartner], by omega⟩

end Program.Matches

/-! ## One instruction -/

/-- The two actions put the same request, and whatever the answer is, it leaves related machines. -/
inductive Action.Alike (Related : Machine → Machine → Prop) : Action → Action → Prop where
  | proceed {next next' : Machine} (hNext : Related next next') :
      Alike Related (.proceed next) (.proceed next')
  | write {byte : UInt8} {machine machine' : Machine} (hStay : Related machine machine')
      (hNext : Related (machine.next id) (machine'.next id)) :
      Alike Related (.write byte machine) (.write byte machine')
  | read {machine machine' : Machine} (hStay : Related machine machine')
      (hNext : ∀ value : Cell,
        Related (machine.next (·.set value)) (machine'.next (·.set value))) :
      Alike Related (.read machine) (.read machine')
  | stuck {machine machine' : Machine} (hStay : Related machine machine') :
      Alike Related (.stuck machine) (.stuck machine')

/-- The same outcome of a step, on related machines and with the same terminal. -/
inductive Step.Alike {σ : Type} (Related : Machine → Machine → Prop) (shift : Nat) :
    Step σ → Step σ → Prop where
  | ok {next next' : Machine} {terminal : σ} (hNext : Related next next') :
      Alike Related shift ⟨.ok (), next, terminal⟩ ⟨.ok (), next', terminal⟩
  | error {machine machine' : Machine} {terminal : σ} {error : ExecuteError}
      (hStay : Related machine machine') :
      Alike Related shift ⟨.error error, machine, terminal⟩
        ⟨.error (error.later shift), machine', terminal⟩

/-- The same outcome of a run, on related machines and with the same terminal. -/
structure Run.Alike {σ : Type} (Related : Machine → Machine → Prop) (shift : Nat)
    (run run' : Run σ) : Prop where
  outcome : run'.outcome = run.outcome.later shift
  machine : Related run.machine run'.machine
  terminal : run'.terminal = run.terminal

namespace Machine

section Lockstep

variable {AlikeTapes : Tape → Tape → Prop} {Free : Operation → Tape → Prop} {shift : Nat}
  {program program' : Program} {machine machine' : Machine}

/-- The tape is free to make the move that is the next instruction, if it is one. -/
def IsFree (Free : Operation → Tape → Prop) (program : Program) (machine : Machine) : Prop :=
  ∀ instruction : Instruction, program.get? machine.pc = some instruction →
    Free instruction.operation machine.tape

/-- Operations that keep tapes related lead to related machines at the next instruction. -/
theorem Alike.next (h : Alike AlikeTapes shift machine machine') {change : Tape → Tape}
    (hChange : AlikeTapes (change machine.tape) (change machine'.tape)) :
    Alike AlikeTapes shift (machine.next change) (machine'.next change) := by
  refine ⟨hChange, ?_⟩
  show machine'.pc + 1 = machine.pc + 1 + shift
  rw [h.pc]
  omega

/-- A jump leads on both sides to related machines or on both sides to a stop. -/
theorem jump_alike {instruction other : Instruction} (hProgram : program.Matches shift program')
    (h : Alike AlikeTapes shift machine machine') (hMatches : instruction.Matches shift other)
    (hJump : instruction.operation.isJump = true) :
    (machine.jump program instruction).Alike (Alike AlikeTapes shift)
      (machine'.jump program' other) := by
  unfold jump
  rw [h.pc, hProgram.linked hMatches hJump]
  by_cases hLinked : program.linked machine.pc instruction = true
  · rw [if_pos hLinked, if_pos hLinked]
    exact .proceed ⟨h.tape, hMatches.target hJump⟩
  · rw [if_neg hLinked, if_neg hLinked]
    exact .stuck h

/-- Related machines act alike, as long as a move is free. -/
theorem act_alike (hTapes : Tape.Congruence AlikeTapes Free)
    (hProgram : program.Matches shift program') (h : Alike AlikeTapes shift machine machine')
    (hFree : ∀ next : Machine, machine.act program = .proceed next → machine.IsFree Free program) :
    (machine.act program).Alike (Alike AlikeTapes shift) (machine'.act program') := by
  have hGet := hTapes.get h.tape
  unfold IsFree act at hFree
  unfold act
  cases hAt : program.get? machine.pc with
  | none =>
      rw [h.pc, hProgram.get?_eq_none hAt]
      exact .stuck h
  | some instruction =>
      obtain ⟨⟨operation', target'⟩, hAt', hMatches⟩ := hProgram.exists_get? hAt
      obtain ⟨operation, target⟩ := instruction
      obtain rfl : operation' = operation := hMatches.operation
      rw [hAt] at hFree
      rw [h.pc, hAt']
      cases operation' with
      | forward => exact .proceed (h.next (hTapes.forward h.tape (hFree _ rfl _ rfl)))
      | backward => exact .proceed (h.next (hTapes.backward h.tape (hFree _ rfl _ rfl)))
      | increment =>
          refine .proceed (h.next ?_)
          show AlikeTapes (machine.tape.set (machine.tape.get + 1))
            (machine'.tape.set (machine'.tape.get + 1))
          rw [hGet]
          exact hTapes.set h.tape _
      | decrement =>
          refine .proceed (h.next ?_)
          show AlikeTapes (machine.tape.set (machine.tape.get - 1))
            (machine'.tape.set (machine'.tape.get - 1))
          rw [hGet]
          exact hTapes.set h.tape _
      | write =>
          dsimp only
          rw [hGet]
          exact .write h (h.next h.tape)
      | read => exact .read h fun value => h.next (hTapes.set h.tape value)
      | jumpIfZero =>
          dsimp only
          rw [hGet]
          by_cases hZero : machine.tape.get = 0
          · rw [if_pos hZero, if_pos hZero]
            exact jump_alike hProgram h hMatches rfl
          · rw [if_neg hZero, if_neg hZero]
            exact .proceed (h.next h.tape)
      | jumpIfNonZero =>
          dsimp only
          rw [hGet]
          by_cases hZero : machine.tape.get = 0
          · rw [if_pos hZero, if_pos hZero]
            exact .proceed (h.next h.tape)
          · rw [if_neg hZero, if_neg hZero]
            exact jump_alike hProgram h hMatches rfl

variable {σ : Type} [Terminal σ]

/-- Machines that act alike take alike steps on the same terminal. -/
theorem step_alike
    (h : (machine.act program).Alike (Alike AlikeTapes shift) (machine'.act program'))
    (terminal : σ) :
    (machine.step program terminal).Alike (Alike AlikeTapes shift) shift
      (machine'.step program' terminal) := by
  unfold step
  generalize machine.act program = action at h
  generalize machine'.act program' = action' at h
  cases h with
  | proceed hNext => exact .ok hNext
  | @write byte machine machine' hStay hNext =>
      dsimp only [writeStep]
      rcases Terminal.write byte terminal with ⟨error | _, terminal'⟩
      · exact .error hStay
      · exact .ok hNext
  | read hStay hNext =>
      dsimp only [readStep]
      rcases Terminal.flush terminal with ⟨error | _, flushed⟩
      · exact .error hStay
      · dsimp only
        rcases Terminal.read flushed with ⟨error | input, terminal'⟩
        · exact .error hStay
        · exact .ok (hNext (received input))
  | stuck hStay =>
      dsimp only
      rw [hStay.pc]
      exact .error hStay

/-! ## Whole runs -/

/-- An instruction that is done without the terminal is a step of the run. -/
theorem mem_transitions_of_act {next : Machine} (turns : Nat) (terminal : σ)
    (h : machine.act program = .proceed next) :
    ⟨machine, next⟩ ∈ transitions program (turns + 1) machine terminal := by
  have hStep : machine.step program terminal = ⟨.ok (), next, terminal⟩ := by rw [step, h]
  rw [transitions_ok turns hStep]
  exact List.mem_cons_self

/--
From related machines two runs end alike, if on the way every move that the first
one makes is free.
-/
theorem runFrom_alike (hTapes : Tape.Congruence AlikeTapes Free)
    (hProgram : program.Matches shift program') (turns : Nat) :
    ∀ {steps : UInt64} {machine machine' : Machine} {terminal : σ},
      Alike AlikeTapes shift machine machine' →
      (∀ move ∈ transitions program turns machine terminal, move.before.IsFree Free program) →
        (runFrom program turns steps machine terminal).Alike (Alike AlikeTapes shift) shift
          (runFrom program' turns (steps + UInt64.ofNat shift) machine' terminal) := by
  induction turns with
  | zero => intro steps machine machine' terminal h _; exact ⟨rfl, h, rfl⟩
  | succ turns ih =>
      intro steps machine machine' terminal h hFree
      have hActs := act_alike hTapes hProgram h fun next hAct =>
        hFree _ (mem_transitions_of_act turns terminal hAct)
      have hStep := step_alike hActs terminal
      have hInside : machine'.pc < program'.size ↔ machine.pc < program.size := by
        rw [h.pc]
        exact hProgram.lt_size_iff
      have hCount : steps + UInt64.ofNat shift + 1 = steps + 1 + UInt64.ofNat shift := by
        rw [UInt64.add_assoc, UInt64.add_assoc, UInt64.add_comm 1]
      rw [runFrom, runFrom]
      by_cases hPc : machine.pc < program.size
      · rw [if_pos hPc, if_pos (hInside.2 hPc)]
        generalize hFirst : machine.step program terminal = first at hStep
        generalize machine'.step program' terminal = second at hStep
        cases hStep with
        | ok hNext =>
            rw [transitions_ok turns hFirst] at hFree
            dsimp only
            rw [hCount]
            exact ih hNext fun move hMove => hFree move (List.mem_cons_of_mem _ hMove)
        | error hStay => exact ⟨rfl, hStay, rfl⟩
      · rw [if_neg hPc, if_neg (mt hInside.1 hPc)]
        unfold finish
        rcases Terminal.flush terminal with ⟨error | _, terminal'⟩
        · exact ⟨rfl, h, rfl⟩
        · exact ⟨rfl, h, rfl⟩

/-- Under the same conditions the two runs take as many steps, between related machines. -/
theorem transitions_alike (hTapes : Tape.Congruence AlikeTapes Free)
    (hProgram : program.Matches shift program') (turns : Nat) :
    ∀ {machine machine' : Machine} {terminal : σ}, Alike AlikeTapes shift machine machine' →
      (∀ move ∈ transitions program turns machine terminal, move.before.IsFree Free program) →
        List.Forall₂
          (fun move move' => Alike AlikeTapes shift move.before move'.before ∧
            Alike AlikeTapes shift move.after move'.after)
          (transitions program turns machine terminal)
          (transitions program' turns machine' terminal) := by
  induction turns with
  | zero => intro machine machine' terminal _ _; exact .nil
  | succ turns ih =>
      intro machine machine' terminal h hFree
      have hActs := act_alike hTapes hProgram h fun next hAct =>
        hFree _ (mem_transitions_of_act turns terminal hAct)
      have hStep := step_alike hActs terminal
      generalize hFirst : machine.step program terminal = first at hStep
      generalize hSecond : machine'.step program' terminal = second at hStep
      cases hStep with
      | ok hNext =>
          rw [transitions_ok turns hFirst] at hFree ⊢
          rw [transitions_ok turns hSecond]
          exact .cons ⟨h, hNext⟩ (ih hNext fun move hMove =>
            hFree move (List.mem_cons_of_mem _ hMove))
      | error hStay =>
          rw [transitions_error _ hFirst, transitions_error _ hSecond]
          exact .nil

end Lockstep

end Machine

end TapeLang
