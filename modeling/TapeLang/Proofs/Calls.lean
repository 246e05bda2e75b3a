import TapeLang.Proofs.Evaluation
import TapeLang.Proofs.Requests
import TapeLang.Proofs.Transitions

/-!
# The calls of a run

The log of a run against a script can be read without the program: it falls into
blocks, one for each write and each read that was carried out, and an ending that
tells how the run ended.  A block is fixed but for its interruptions.  A write is
interrupted some number of times and then delivers its byte.  A read passes on
what was written before it asks for input, is interrupted some number of times,
and then gets a byte or finds the input at its end.

Since every read begins with a flush, no byte is ever held back while a program
waits for input, nor when a run has finished.

## Main results

* `Machine.step_ok_calls`, `Machine.step_error_calls` — the calls of one step.
* `Machine.Steps.served` — the blocks of a chain of steps.
* `ReadsFlushed.append` — what is flushed before reads in two parts of a log is so
  in the whole.
* `run_calls_in_blocks` — the log of a run that ends.
-/

namespace TapeLang

/-! ## Blocks and endings -/

/-- The value that the current cell takes from an answer: its byte, and zero without one. -/
def ReadAnswer.value : ReadAnswer → Cell
  | .byte value => value.toUInt16
  | _ => 0

/-- The calls of one request that was met. -/
inductive Block where
  /-- A write: interruptions, and a byte that was taken. -/
  | write (retries : List Interruption) (byte : UInt8)
  /-- A read: a flush, interruptions, and an answer that is input. -/
  | read (retries : List Interruption) (answer : ReadAnswer) (hInput : answer.isInput = true)

/-- The calls in order. -/
def Block.calls : Block → List Call
  | .write retries byte => refusals retries ++ [.accepted byte]
  | .read retries answer _ => .flushed :: ((lapses retries).map .read ++ [.read answer])

/-- The calls that a run of some outcome ends with. -/
inductive Ending : Outcome → List Call → Prop where
  /-- The program is at its end, and all that was written is passed on. -/
  | finished {steps : UInt64} : Ending (.finished steps) [.flushed]
  /-- A jump may not be taken. -/
  | inconsistent {address : Nat} : Ending (.failed (.inconsistent address)) []
  /-- A write takes nothing, or fails otherwise than by an interruption. -/
  | writeFailed (retries : List Interruption) (fault : WriteFault)
      (hFault : fault.error.kind ≠ .interrupted) :
      Ending (.failed (.stream fault.error)) (refusals retries ++ [.refused fault])
  /-- A flush fails, be it by an interruption. -/
  | flushFailed (error : StreamError) : Ending (.failed (.stream error)) [.flushFailed error]
  /-- A read fails, otherwise than by an interruption or the end of the input. -/
  | readFailed (retries : List Interruption) (error : StreamError)
      (hRetry : error.kind ≠ .interrupted) (hEnd : error.kind ≠ .unexpectedEof) :
      Ending (.failed (.stream error))
        (.flushed :: ((lapses retries).map .read ++ [.read (.fault error)]))

namespace Machine

/-- Whether the step carried out a write or a read. -/
def Transition.isExchange (program : Program) (move : Transition) : Bool :=
  (program.get? move.before.pc).any fun instruction => instruction.operation.isExchange

end Machine

/--
A block holds the calls of a step.  A write delivers the value of the current cell
modulo 256 and leaves the tape alone; a read gives the current cell the value of its
answer.
-/
def Block.Serves (program : Program) (move : Machine.Transition) : Block → Prop
  | .write _ byte =>
      (∃ target : Nat, program.get? move.before.pc = some ⟨.write, target⟩) ∧
        byte.toNat = move.before.tape.get.toNat % 256 ∧ move.after.tape = move.before.tape
  | .read _ answer _ =>
      (∃ target : Nat, program.get? move.before.pc = some ⟨.read, target⟩) ∧
        move.after.tape = move.before.tape.set answer.value

/-- Blocks in the order of the steps, one for each step that is a write or a read. -/
inductive Served (program : Program) : List Machine.Transition → List Block → Prop where
  | done : Served program [] []
  | quiet {move : Machine.Transition} {moves : List Machine.Transition} {blocks : List Block}
      (hQuiet : move.isExchange program = false) (hRest : Served program moves blocks) :
      Served program (move :: moves) blocks
  | exchange {move : Machine.Transition} {moves : List Machine.Transition} {block : Block}
      {blocks : List Block} (hServes : block.Serves program move)
      (hRest : Served program moves blocks) :
      Served program (move :: moves) (block :: blocks)

/-! ## The calls of a step -/

namespace Machine

variable {program : Program} {machine next : Machine} {script script' : Script}

/-- An answer that is input gives the current cell its value. -/
theorem received_byte? (answer : ReadAnswer) : received answer.byte? = answer.value := by
  cases answer <;> rfl

/-- A step that succeeds makes no calls, or is a write or a read and makes those of a block. -/
theorem step_ok_calls (h : machine.step program script = ⟨.ok (), next, script'⟩) :
    ((Transition.mk machine next).isExchange program = false ∧ script' = script) ∨
      ∃ block : Block, block.Serves program ⟨machine, next⟩ ∧
        script'.log.toList = script.log.toList ++ block.calls := by
  have hMoves := moves program machine script
  rw [h] at hMoves
  cases hMoves with
  | proceeds hActs =>
      refine .inl ⟨?_, rfl⟩
      cases hActs with
      | goesOn hAt hQuiet _ _ => simp [Transition.isExchange, hAt, hQuiet]
      | jumps hAt hTaken _ =>
          have hJump := Operation.isJump_of_jumpsAt hTaken
          simp [Transition.isExchange, hAt, Operation.isExchange_eq_false_of_isJump hJump]
  | writes hAt hWrite =>
      obtain ⟨retries, writes, log, rfl, hLog, _⟩ := Script.write_ok hWrite
      refine .inr ⟨.write retries machine.tape.get.toUInt8, ⟨⟨_, hAt⟩, ?_, rfl⟩, hLog⟩
      exact UInt16.toNat_toUInt8 machine.tape.get
  | reads hAt hFlush hRead =>
      obtain ⟨flushes, rfl, _⟩ := Script.flush_ok hFlush
      obtain ⟨retries, answer, reads, log, hInput, rfl, rfl, hLog, _⟩ := Script.read_ok hRead
      refine .inr ⟨.read retries answer hInput, ⟨⟨_, hAt⟩, ?_⟩, by simpa [Block.calls] using hLog⟩
      show machine.tape.set (received answer.byte?) = machine.tape.set answer.value
      rw [received_byte?]

/-- A step that fails makes the calls of an ending. -/
theorem step_error_calls {error : ExecuteError}
    (h : machine.step program script = ⟨.error error, next, script'⟩) :
    ∃ ending : List Call, Ending (.failed error) ending ∧
      script'.log.toList = script.log.toList ++ ending := by
  have hMoves := moves program machine script
  rw [h] at hMoves
  cases hMoves with
  | writeFails hAt hWrite =>
      obtain ⟨retries, fault, writes, log, rfl, hRetry, rfl, hLog, _⟩ := Script.write_error hWrite
      exact ⟨_, .writeFailed retries fault hRetry, hLog⟩
  | flushFails hAt hFlush =>
      obtain ⟨flushes, rfl, _⟩ := Script.flush_error hFlush
      exact ⟨_, .flushFailed _, Array.toList_push⟩
  | readFails hAt hFlush hRead =>
      obtain ⟨flushes, rfl, _⟩ := Script.flush_ok hFlush
      obtain ⟨retries, reads, log, hRetry, hEnd, rfl, hLog, _⟩ := Script.read_error hRead
      exact ⟨_, .readFailed retries _ hRetry hEnd, by simpa using hLog⟩
  | halts _ => exact ⟨[], .inconsistent, (List.append_nil _).symm⟩

/-- The calls of a chain of steps are the blocks of its writes and reads. -/
theorem Steps.served {n : Nat} {last : Machine}
    (h : Steps program n machine script last script') :
    ∃ blocks : List Block, Served program (transitions program n machine script) blocks ∧
      script'.log.toList = script.log.toList ++ blocks.flatMap Block.calls := by
  induction h with
  | refl => exact ⟨[], .done, (List.append_nil _).symm⟩
  | @head n machine next last script script₁ script' hStep _ ih =>
      obtain ⟨blocks, hServed, hLog⟩ := ih
      rw [transitions_ok n hStep]
      obtain ⟨hQuiet, rfl⟩ | ⟨block, hServes, hCalls⟩ := step_ok_calls hStep
      · exact ⟨blocks, .quiet hQuiet hServed, hLog⟩
      · refine ⟨block :: blocks, .exchange hServes hServed, ?_⟩
        rw [hLog, hCalls, List.flatMap_cons, List.append_assoc]

end Machine

/-! ## What is passed on -/

/-- The bytes held back after a call, from those held back before it. -/
def Call.heldBack (bytes : List UInt8) : Call → List UInt8
  | .accepted byte => bytes ++ [byte]
  | .flushed => []
  | _ => bytes

/-- The bytes taken and not passed on after calls: those since the last flush. -/
def unflushed (calls : List Call) : List UInt8 := calls.foldl Call.heldBack []

/-- Whatever calls came before, nothing is held back at a call for input. -/
def ReadsFlushed (calls : List Call) : Prop :=
  ∀ (earlier before after : List Call) (answer : ReadAnswer),
    calls = before ++ .read answer :: after → unflushed (earlier ++ before) = []

/-- Nothing is held back behind a flush and calls for input. -/
theorem unflushed_flushed (earlier : List Call) (answers : List ReadAnswer) :
    unflushed (earlier ++ .flushed :: answers.map .read) = [] := by
  have hReads : (answers.map Call.read).foldl Call.heldBack [] = [] := by
    induction answers with
    | nil => rfl
    | cons answer rest ih => exact ih
  rw [unflushed, List.foldl_append]
  exact hReads

/-- A flush in front of calls for input. -/
theorem readsFlushed_flushed (answers : List ReadAnswer) :
    ReadsFlushed (.flushed :: answers.map .read) := by
  intro earlier before after answer h
  cases before with
  | nil => cases h
  | cons first before =>
      obtain ⟨rfl, hRest⟩ := List.cons_eq_cons.1 h
      obtain ⟨front, _, _, rfl, _⟩ := List.map_eq_append_iff.1 hRest
      exact unflushed_flushed earlier front

/-- Calls among which there is none for input. -/
theorem readsFlushed_of_forall {calls : List Call}
    (h : ∀ answer : ReadAnswer, .read answer ∉ calls) : ReadsFlushed calls := by
  rintro earlier before after answer rfl
  exact absurd (List.mem_append_right before List.mem_cons_self) (h answer)

/-- What is flushed before reads in two parts of a log is so in the whole. -/
theorem ReadsFlushed.append {first second : List Call} (hFirst : ReadsFlushed first)
    (hSecond : ReadsFlushed second) : ReadsFlushed (first ++ second) := by
  intro earlier before after answer h
  obtain ⟨middle, rfl, hSplit⟩ | ⟨middle, rfl, hSplit⟩ := List.append_eq_append_iff.1 h
  · -- the call is in the second part
    rw [← List.append_assoc]
    exact hSecond (earlier ++ first) middle after answer hSplit
  · cases middle with
    | nil =>
        have hHere := hSecond (earlier ++ before) [] after answer hSplit.symm
        rwa [List.append_nil] at hHere
    | cons call middle =>
        obtain ⟨rfl, rfl⟩ := List.cons_eq_cons.1 hSplit
        exact hFirst earlier before middle answer rfl

theorem Block.readsFlushed (block : Block) : ReadsFlushed block.calls := by
  cases block with
  | write retries byte =>
      apply readsFlushed_of_forall
      simp [Block.calls, refusals]
  | read retries answer hInput =>
      have hCalls := readsFlushed_flushed (lapses retries ++ [answer])
      rwa [List.map_append] at hCalls

theorem readsFlushed_blocks (blocks : List Block) : ReadsFlushed (blocks.flatMap Block.calls) := by
  induction blocks with
  | nil => exact readsFlushed_of_forall fun _ => List.not_mem_nil
  | cons block rest ih => exact block.readsFlushed.append ih

theorem Ending.readsFlushed {outcome : Outcome} {ending : List Call} (h : Ending outcome ending) :
    ReadsFlushed ending := by
  cases h with
  | finished => exact readsFlushed_flushed []
  | inconsistent => exact readsFlushed_of_forall fun _ => List.not_mem_nil
  | writeFailed retries fault _ =>
      apply readsFlushed_of_forall
      simp [refusals]
  | flushFailed error =>
      apply readsFlushed_of_forall
      simp
  | readFailed retries error _ _ =>
      have hCalls := readsFlushed_flushed (lapses retries ++ [.fault error])
      rwa [List.map_append] at hCalls

/-! ## The calls of a run -/

/-- What a run that ends adds to the log: the blocks of its steps and an ending. -/
theorem Machine.run_ended_calls {turns : Nat} {program : Program} {machine : Machine}
    {script : Script} (hEnded : (machine.run turns program script).outcome ≠ .unfinished) :
    ∃ (blocks : List Block) (ending : List Call),
      Served program (transitions program turns machine.reset script) blocks ∧
      Ending (machine.run turns program script).outcome ending ∧
      (machine.run turns program script).terminal.log.toList =
        script.log.toList ++ (blocks.flatMap Block.calls ++ ending) := by
  unfold run at hEnded ⊢
  obtain ⟨n, last, script₁, hSteps, hMoves, hEnd⟩ := runFrom_ended turns hEnded
  obtain ⟨blocks, hServed, hLog⟩ := hSteps.served
  have hTail : ∃ ending : List Call,
      Ending (runFrom program turns 0 machine.reset script).outcome ending ∧
        (runFrom program turns 0 machine.reset script).terminal.log.toList =
          script₁.log.toList ++ ending := by
    obtain ⟨_, hRun⟩ | ⟨error, script₂, _, hStep, hRun⟩ := hEnd
    · rw [hRun]
      obtain ⟨_, hFinish, hFlush⟩ | ⟨error, _, hFinish, hFlush⟩ :=
        finish_script (0 + UInt64.ofNat n) last script₁
      · rw [hFinish, hFlush, Array.toList_push]
        exact ⟨[.flushed], .finished, rfl⟩
      · rw [hFinish, hFlush, Array.toList_push]
        exact ⟨[.flushFailed error], .flushFailed error, rfl⟩
    · rw [hRun]
      exact step_error_calls hStep
  obtain ⟨ending, hEnding, hCalls⟩ := hTail
  rw [hMoves]
  exact ⟨blocks, ending, hServed, hEnding, by rw [hCalls, hLog, List.append_assoc]⟩

/--
**The log of a run is a sequence of blocks and an ending.**  There is one block for
each write and each read that the run carried out, in that order; a write delivers
the value of the cell modulo 256, and a read gives the cell the byte it got, or zero.
The ending fits the outcome.  At every call for input, and when the run has finished,
all bytes taken so far have been passed on.
-/
theorem run_calls_in_blocks (turns : Nat) (program : Program) (machine : Machine)
    (script : Script) (hEnded : (machine.run turns program script).outcome ≠ .unfinished) :
    ∃ (blocks : List Block) (ending : List Call),
      (machine.run turns program script).terminal.log.toList =
        script.log.toList ++ (blocks.flatMap Block.calls ++ ending) ∧
      Served program (Machine.transitions program turns machine.reset script) blocks ∧
      Ending (machine.run turns program script).outcome ending ∧
      (∀ (before after : List Call) (answer : ReadAnswer),
        blocks.flatMap Block.calls ++ ending = before ++ .read answer :: after →
          unflushed (script.log.toList ++ before) = []) ∧
      ∀ steps : UInt64, (machine.run turns program script).outcome = .finished steps →
        unflushed (machine.run turns program script).terminal.log.toList = [] := by
  obtain ⟨blocks, ending, hServed, hEnding, hLog⟩ := Machine.run_ended_calls hEnded
  refine ⟨blocks, ending, hLog, hServed, hEnding, ?_, ?_⟩
  · exact (readsFlushed_blocks blocks).append hEnding.readsFlushed script.log.toList
  · intro steps hFinished
    rw [hLog, ← List.append_assoc]
    rw [hFinished] at hEnding
    cases hEnding
    exact unflushed_flushed _ []

/-- One interruption of the read and one of the write. -/
theorem run_calls_in_blocks_echo :
    ((Machine.fresh ⟨1, by decide⟩).run 3 ⟨#[⟨.read, 0⟩, ⟨.write, 0⟩]⟩
      ({ reads := [.fault (.ofKind .interrupted), .byte 65],
         writes := [(0, .failure (.ofKind .interrupted))] } : Script)).outcome = .finished 2 ∧
    ∃ blocks : List Block, blocks.flatMap Block.calls ++ [.flushed] =
      [.flushed, .read (.fault (.ofKind .interrupted)), .read (.byte 65),
        .refused (.failure (.ofKind .interrupted)), .accepted 65, .flushed] := by
  have hOutcome : ((Machine.fresh ⟨1, by decide⟩).run 3 ⟨#[⟨.read, 0⟩, ⟨.write, 0⟩]⟩
      ({ reads := [.fault (.ofKind .interrupted), .byte 65],
         writes := [(0, .failure (.ofKind .interrupted))] } : Script)).outcome =
        .finished 2 := by rfl
  obtain ⟨blocks, ending, hLog, _, hEnding, _⟩ := run_calls_in_blocks 3
    ⟨#[⟨.read, 0⟩, ⟨.write, 0⟩]⟩ (Machine.fresh ⟨1, by decide⟩)
    { reads := [.fault (.ofKind .interrupted), .byte 65],
      writes := [(0, .failure (.ofKind .interrupted))] } (by rw [hOutcome]; exact nofun)
  rw [hOutcome] at hEnding
  cases hEnding
  exact ⟨hOutcome, blocks, hLog.symm⟩

end TapeLang
