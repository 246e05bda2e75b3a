import TapeLang.Proofs.Transitions
import TapeLang.Stream.Script

/-!
# A machine that is used again

A machine outlives the runs it carries out.  It can be stepped through one
program and then another, it can be left in the middle of a run, and a call may
have failed.  None of that reaches the next run: a run begins by clearing the
tape, and the only thing that clearing keeps is the number of cells, which no
call ever changes.

## Main results

* `Machine.reset_eq_fresh` — a machine that is reset is a fresh one of its size.
* `Machine.size_session` — the tape keeps its size through any session.
* `run_after_session` — a run after any session is the run on a fresh machine.
-/

namespace TapeLang

namespace Machine

/--
A call to a machine, with the program and the terminal it is given.  A run may be
cut off after any number of turns, so that a session can end in the middle of one.
-/
inductive Request where
  /-- One step. -/
  | step (program : Program) (script : Script)
  /-- A whole run, or as much of it as there are turns for. -/
  | run (turns : Nat) (program : Program) (script : Script)

/-- The machine after a call, whether that succeeded or failed. -/
def serve (machine : Machine) : Request → Machine
  | .step program script => (machine.step program script).machine
  | .run turns program script => (machine.run turns program script).machine

/-- The machine after calls, one after the other. -/
def after (machine : Machine) (session : List Request) : Machine := session.foldl serve machine

variable {σ : Type} [Terminal σ]

/-- No run changes the size of the tape. -/
theorem size_run (turns : Nat) (program : Program) (machine : Machine) (terminal : σ) :
    (machine.run turns program terminal).machine.tape.size = machine.tape.size := by
  have hReset : machine.reset.tape.size = machine.tape.size := Tape.size_clear machine.tape
  unfold run
  apply runFrom_keeps (P := fun reached => reached.tape.size = machine.tape.size)
  · intro reached terminal _ hSize
    rw [size_step, hSize]
  · exact hReset

theorem size_serve (machine : Machine) (request : Request) :
    (machine.serve request).tape.size = machine.tape.size := by
  cases request with
  | step program script => exact size_step program machine script
  | run turns program script => exact size_run turns program machine script

/-- The tape keeps its size through any session. -/
theorem size_session (session : List Request) :
    ∀ machine : Machine, (machine.after session).tape.size = machine.tape.size := by
  induction session with
  | nil => intro machine; rfl
  | cons request rest ih =>
      intro machine
      show ((machine.serve request).after rest).tape.size = machine.tape.size
      rw [ih, size_serve]

/-- A machine that is reset is a fresh one of its size. -/
theorem reset_eq_fresh {machine : Machine} {length : TapeLength}
    (h : machine.tape.size = length.cells) : machine.reset = fresh length := by
  simp [reset, fresh, Tape.clear, Tape.blank, h]

/-- Of the machine that it is carried out on, a run depends on the size of the tape alone. -/
theorem run_eq_run_fresh {machine : Machine} {length : TapeLength}
    (h : machine.tape.size = length.cells) (turns : Nat) (program : Program) (terminal : σ) :
    machine.run turns program terminal = (fresh length).run turns program terminal := by
  have hFresh : (fresh length).reset = fresh length := reset_eq_fresh (Tape.size_blank length)
  unfold run
  rw [reset_eq_fresh h, hFresh]

end Machine

/--
**A run does not depend on what a machine did before.**  After any session on a
fresh machine, a run of any program on any terminal ends as on a fresh machine of
the same length: with the same outcome and number of steps, the same machine, and
the same calls to the terminal.  And after each call of the session the tape has
its length still, with the pointer within it.
-/
theorem run_after_session (length : TapeLength) (session : List Machine.Request) :
    (∀ (turns : Nat) (program : Program) (script : Script),
      ((Machine.fresh length).after session).run turns program script =
        (Machine.fresh length).run turns program script) ∧
    ∀ count : Nat,
      ((Machine.fresh length).after (session.take count)).tape.size = length.cells ∧
      ((Machine.fresh length).after (session.take count)).tape.pointer < length.cells := by
  have hSize : ∀ calls : List Machine.Request,
      ((Machine.fresh length).after calls).tape.size = length.cells := by
    intro calls
    rw [Machine.size_session]
    exact Tape.size_blank length
  refine ⟨fun turns program script => ?_, fun count => ⟨hSize (session.take count), ?_⟩⟩
  · exact Machine.run_eq_run_fresh (hSize session) turns program script
  · have hPointer := ((Machine.fresh length).after (session.take count)).tape.pointer_lt
    rw [← hSize (session.take count)]
    exact hPointer

end TapeLang
