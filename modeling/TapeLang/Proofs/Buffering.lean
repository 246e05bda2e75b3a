import TapeLang.CommandLine.Work

/-!
# What a buffer hides

A console holds bytes back before they reach its device.  As long as the device
takes all bytes, nothing that works on the console can tell: every byte that was
written is on the device or waits for it, in the order of writing, and when the
console is closed all of them are there.

For a layout, which is only written, this says what is on the device in the end.
A program also reads, and what it writes depends on what it read.  So its run on a
console is compared with its run on a script that answers the same way and has no
buffer.  No request tells the two apart (`Terminal.Bisimulation`), so no run does.

## Main results

* `Console.close_of_accepts` — closing leaves what was written on the device.
* `CommandLine.showLayout_of_accepts` — a layout is written in full.
* `Terminal.Bisimulation.run` — terminals that no request tells apart are alike for
  every run.
* `Console.run_mirrors` — a run writes to a console what it writes to a script.
-/

namespace TapeLang

/-! ## Writing to a device that takes all bytes -/

namespace Console

variable {console after : Console}

/-- The bytes written so far, be they on the device or waiting for it. -/
def written (console : Console) : List UInt8 := console.delivered.toList ++ console.buffer.toList

/--
Bytes have been written to a console whose device takes all.  Nothing else is
different, but for the number of bytes that wait.
-/
structure Takes (bytes : List UInt8) (console after : Console) : Prop where
  written : after.written = console.written ++ bytes
  refusal : after.refusal = none
  input : after.input = console.input

theorem takes_nil (h : console.refusal = none) : Takes [] console console :=
  ⟨(List.append_nil _).symm, h, rfl⟩

theorem Takes.trans {middle : Console} {first second : List UInt8}
    (hFirst : Takes first console middle) (hSecond : Takes second middle after) :
    Takes (first ++ second) console after := by
  refine ⟨?_, hSecond.refusal, hSecond.input.trans hFirst.input⟩
  rw [hSecond.written, hFirst.written, List.append_assoc]

/-- A flush succeeds, writes nothing and lets nothing wait. -/
theorem flush_of_accepts (h : console.refusal = none) :
    ∃ after : Console, console.flush = (.ok (), after) ∧ Takes [] console after ∧
      after.buffer = #[] := by
  obtain ⟨input, refusal, buffer, delivered⟩ := console
  have hRefusal : refusal = none := h
  subst hRefusal
  by_cases hEmpty : buffer.isEmpty
  · refine ⟨⟨input, none, buffer, delivered⟩, ?_, takes_nil rfl, Array.isEmpty_iff.1 hEmpty⟩
    rw [flush, if_pos hEmpty]
  · refine ⟨⟨input, none, #[], delivered ++ buffer⟩, ?_, ⟨?_, rfl, rfl⟩, rfl⟩
    · rw [flush, if_neg hEmpty]
    · simp [written]

/-- Closing a console brings all that was written to the device. -/
theorem close_of_accepts (h : console.refusal = none) :
    console.close.toList = console.written := by
  obtain ⟨after, hFlush, hTakes, hBuffer⟩ := flush_of_accepts h
  have hWritten : after.delivered.toList = after.written := by simp [written, hBuffer]
  rw [close, hFlush, hWritten, hTakes.written, List.append_nil]

theorem takes_hold (byte : UInt8) (h : console.refusal = none) :
    Takes [byte] console (console.hold byte) :=
  ⟨by simp [written, hold], h, rfl⟩

/-- A byte is taken, also when the buffer is full. -/
theorem write_of_accepts (byte : UInt8) (h : console.refusal = none) :
    ∃ after : Console, console.write byte = (.ok (), after) ∧ Takes [byte] console after := by
  by_cases hRoom : console.buffer.size < capacity
  · refine ⟨console.hold byte, ?_, takes_hold byte h⟩
    rw [write, if_pos hRoom]
  · obtain ⟨flushed, hFlush, hTakes, _⟩ := flush_of_accepts h
    refine ⟨flushed.hold byte, ?_, hTakes.trans (takes_hold byte hTakes.refusal)⟩
    rw [write, if_neg hRoom, hFlush]

theorem writeBytes_of_accepts (bytes : List UInt8) :
    ∀ {console : Console}, console.refusal = none →
      ∃ after : Console, writeBytes bytes console = (.ok (), after) ∧
        Takes bytes console after := by
  induction bytes with
  | nil =>
      intro console h
      exact ⟨console, rfl, takes_nil h⟩
  | cons byte rest ih =>
      intro console h
      obtain ⟨middle, hWrite, hByte⟩ := write_of_accepts byte h
      obtain ⟨after, hRest, hTakes⟩ := ih hByte.refusal
      refine ⟨after, ?_, hByte.trans hTakes⟩
      rw [writeBytes, hWrite]
      exact hRest

/-- The pieces of a text are taken as the text is. -/
theorem writeAll_of_accepts (pieces : List String) :
    ∀ {console : Console}, console.refusal = none →
      ∃ after : Console, Sink.writeAll pieces console = (.ok (), after) ∧
        Takes (String.join pieces).toUTF8.data.toList console after := by
  induction pieces with
  | nil =>
      intro console h
      exact ⟨console, rfl, takes_nil h⟩
  | cons piece rest ih =>
      intro console h
      obtain ⟨middle, hWrite, hPiece⟩ := writeBytes_of_accepts piece.toUTF8.data.toList h
      obtain ⟨after, hRest, hTakes⟩ := ih hPiece.refusal
      have hJoin : (String.join (piece :: rest)).toUTF8.data.toList =
          piece.toUTF8.data.toList ++ (String.join rest).toUTF8.data.toList := by
        simp [String.join_cons]
      refine ⟨after, ?_, ?_⟩
      · have hSink : Sink.write piece console = (.ok (), middle) := hWrite
        rw [Sink.writeAll, hSink]
        exact hRest
      · rw [hJoin]
        exact hPiece.trans hTakes

end Console

/-- A layout that is shown on a device that takes all bytes is shown in full. -/
theorem CommandLine.showLayout_of_accepts (layout : Layout) {console : Console}
    (h : console.refusal = none) :
    ∃ after : Console, showLayout layout console = ⟨.ok (), [], after⟩ ∧
      Console.Takes layout.text.toUTF8.data.toList console after := by
  obtain ⟨middle, hWrite, hPieces⟩ := Console.writeAll_of_accepts layout.pieces h
  obtain ⟨after, hFlush, hTakes, _⟩ := Console.flush_of_accepts hPieces.refusal
  refine ⟨after, ?_, ?_⟩
  · rw [showLayout, hWrite]
    dsimp only
    rw [hFlush]
  · have hBoth := hPieces.trans hTakes
    rw [List.append_nil] at hBoth
    exact hBoth

/-! ## Terminals that no request tells apart -/

section Bisimulation

variable {σ τ : Type}

/-- A request got the same answer from two terminals, which are related after it. -/
inductive Terminal.SameAnswer {α : Type} (Related : σ → τ → Prop) :
    Except StreamError α × σ → Except StreamError α × τ → Prop where
  | intro {answer : Except StreamError α} {after : σ} {after' : τ}
      (hAfter : Related after after') : SameAnswer Related (answer, after) (answer, after')

/-- The same step, but for the terminals, which are related after it. -/
inductive Step.Mirrors (Related : σ → τ → Prop) : Step σ → Step τ → Prop where
  | intro {outcome : Except ExecuteError Unit} {machine : Machine} {after : σ} {after' : τ}
      (hAfter : Related after after') :
      Mirrors Related ⟨outcome, machine, after⟩ ⟨outcome, machine, after'⟩

/-- The same run, but for the terminals, which are related at its end. -/
structure Run.Mirrors (Related : σ → τ → Prop) (run : Run σ) (run' : Run τ) : Prop where
  outcome : run.outcome = run'.outcome
  machine : run.machine = run'.machine
  terminal : Related run.terminal run'.terminal

variable [Terminal σ] [Terminal τ]

/-- A relation of terminals that every request keeps, with the same answer on both sides. -/
structure Terminal.Bisimulation (Related : σ → τ → Prop) : Prop where
  write : ∀ {terminal : σ} {terminal' : τ}, Related terminal terminal' → ∀ byte : UInt8,
    SameAnswer Related (Terminal.write byte terminal) (Terminal.write byte terminal')
  flush : ∀ {terminal : σ} {terminal' : τ}, Related terminal terminal' →
    SameAnswer Related (Terminal.flush terminal) (Terminal.flush terminal')
  read : ∀ {terminal : σ} {terminal' : τ}, Related terminal terminal' →
    SameAnswer Related (Terminal.read terminal) (Terminal.read terminal')

namespace Terminal.Bisimulation

variable {Related : σ → τ → Prop} {terminal : σ} {terminal' : τ}

/-- Each request of a step gets the same answer, so the step comes out the same. -/
theorem step (h : Bisimulation Related) (hRelated : Related terminal terminal')
    (program : Program) (machine : Machine) :
    Step.Mirrors Related (machine.step program terminal) (machine.step program terminal') := by
  unfold Machine.step
  cases machine.act program with
  | proceed machine => exact .intro hRelated
  | write byte machine =>
      have hWrite := h.write hRelated byte
      dsimp only [Machine.writeStep]
      generalize Terminal.write byte terminal = given at hWrite
      generalize Terminal.write byte terminal' = given' at hWrite
      obtain @⟨error | _, after, after', hAfter⟩ := hWrite
      · exact .intro hAfter
      · exact .intro hAfter
  | read machine =>
      have hFlush := h.flush hRelated
      dsimp only [Machine.readStep]
      generalize Terminal.flush terminal = given at hFlush
      generalize Terminal.flush terminal' = given' at hFlush
      obtain @⟨error | _, flushed, flushed', hFlushed⟩ := hFlush
      · exact .intro hFlushed
      · have hRead := h.read hFlushed
        dsimp only
        generalize Terminal.read flushed = given at hRead
        generalize Terminal.read flushed' = given' at hRead
        obtain @⟨error | input, after, after', hAfter⟩ := hRead
        · exact .intro hAfter
        · exact .intro hAfter
  | stuck machine => exact .intro hRelated

theorem finish (h : Bisimulation Related) (hRelated : Related terminal terminal')
    (steps : UInt64) (machine : Machine) :
    Run.Mirrors Related (machine.finish steps terminal) (machine.finish steps terminal') := by
  have hFlush := h.flush hRelated
  unfold Machine.finish
  generalize Terminal.flush terminal = given at hFlush
  generalize Terminal.flush terminal' = given' at hFlush
  obtain @⟨error | _, after, after', hAfter⟩ := hFlush
  · exact ⟨rfl, rfl, hAfter⟩
  · exact ⟨rfl, rfl, hAfter⟩

/-- By induction on the turns: the steps are the same one by one, and then the end is. -/
theorem runFrom (h : Bisimulation Related) (program : Program) (turns : Nat) :
    ∀ {terminal : σ} {terminal' : τ} (steps : UInt64) (machine : Machine),
      Related terminal terminal' →
      Run.Mirrors Related (machine.runFrom program turns steps terminal)
        (machine.runFrom program turns steps terminal') := by
  induction turns with
  | zero =>
      intro terminal terminal' steps machine hRelated
      exact ⟨rfl, rfl, hRelated⟩
  | succ turns ih =>
      intro terminal terminal' steps machine hRelated
      have hStep := h.step hRelated program machine
      rw [Machine.runFrom, Machine.runFrom]
      by_cases hPc : machine.pc < program.size
      · rw [if_pos hPc, if_pos hPc]
        generalize machine.step program terminal = step at hStep
        generalize machine.step program terminal' = step' at hStep
        obtain @⟨error | _, next, after, after', hAfter⟩ := hStep
        · exact ⟨rfl, rfl, hAfter⟩
        · exact ih (steps + 1) next hAfter
      · rw [if_neg hPc, if_neg hPc]
        exact h.finish hRelated steps machine

/-- Terminals that no request tells apart are alike for every run. -/
theorem run (h : Bisimulation Related) (hRelated : Related terminal terminal')
    (turns : Nat) (program : Program) (machine : Machine) :
    Run.Mirrors Related (machine.run turns program terminal)
      (machine.run turns program terminal') :=
  h.runFrom program turns 0 machine.reset hRelated

end Terminal.Bisimulation

end Bisimulation

/-! ## A console and a script -/

/-- What calls for input come to does not depend on the calls before them, and they write nothing. -/
theorem Script.readCalls_eq (answers : List ReadAnswer) :
    ∀ log : Array Call, (readCalls answers log).1 = (readCalls answers #[]).1 ∧
      (readCalls answers log).2.1 = (readCalls answers #[]).2.1 ∧
      (readCalls answers log).2.2.toList.filterMap Call.output? =
        log.toList.filterMap Call.output? := by
  induction answers with
  | nil =>
      intro log
      exact ⟨rfl, rfl, by simp [readCalls, Call.output?]⟩
  | cons answer rest ih =>
      intro log
      cases answer with
      | byte value => exact ⟨rfl, rfl, by simp [readCalls, Call.output?]⟩
      | endOfInput => exact ⟨rfl, rfl, by simp [readCalls, Call.output?]⟩
      | fault error =>
          rw [readCalls, readCalls]
          by_cases hRetry : error.kind = .interrupted
          · rw [if_pos hRetry, if_pos hRetry]
            obtain ⟨hOutcome, hRest, hOutput⟩ := ih (log.push (.read (.fault error)))
            obtain ⟨hBareOutcome, hBareRest, _⟩ := ih (#[].push (.read (.fault error)))
            refine ⟨hOutcome.trans hBareOutcome.symm, hRest.trans hBareRest.symm, ?_⟩
            rw [hOutput]
            simp [Call.output?]
          · rw [if_neg hRetry, if_neg hRetry]
            by_cases hEnd : error.kind = .unexpectedEof
            · rw [if_pos hEnd, if_pos hEnd]
              exact ⟨rfl, rfl, by simp [Call.output?]⟩
            · rw [if_neg hEnd, if_neg hEnd]
              exact ⟨rfl, rfl, by simp [Call.output?]⟩

namespace Console

/-- The same was written to a console and to a script without faults, and they will answer alike. -/
structure Mirrors (console : Console) (script : Script) : Prop where
  refusal : console.refusal = none
  written : console.written = script.output
  reads : console.input.answers = script.reads
  writes : script.writes = []
  flushes : script.flushes = []

variable {console : Console} {script : Script}

theorem Takes.mirrors {after : Console} {bytes : List UInt8} (hTakes : Takes bytes console after)
    (h : console.Mirrors script) {log : Array Call}
    (hLog : log.toList.filterMap Call.output? = script.output ++ bytes) :
    after.Mirrors { script with log := log } := by
  refine ⟨hTakes.refusal, ?_, ?_, h.writes, h.flushes⟩
  · rw [hTakes.written, h.written, ← hLog]
    rfl
  · rw [hTakes.input, h.reads]

theorem Mirrors.write (h : console.Mirrors script) (byte : UInt8) :
    Terminal.SameAnswer Mirrors (console.write byte) (script.write byte) := by
  obtain ⟨after, hWrite, hTakes⟩ := write_of_accepts byte h.refusal
  have hScript : script.write byte =
      (.ok (), { script with log := script.log.push (.accepted byte) }) := by
    obtain ⟨reads, writes, flushes, log⟩ := script
    obtain rfl : writes = [] := h.writes
    rfl
  rw [hWrite, hScript]
  exact .intro (hTakes.mirrors h (by simp [Script.output, Call.output?]))

theorem Mirrors.flush (h : console.Mirrors script) :
    Terminal.SameAnswer Mirrors console.flush script.flush := by
  obtain ⟨after, hFlush, hTakes, _⟩ := flush_of_accepts h.refusal
  have hScript : script.flush = (.ok (), { script with log := script.log.push .flushed }) := by
    obtain ⟨reads, writes, flushes, log⟩ := script
    obtain rfl : flushes = [] := h.flushes
    rfl
  rw [hFlush, hScript]
  exact .intro (hTakes.mirrors h (by simp [Script.output, Call.output?]))

theorem Mirrors.read (h : console.Mirrors script) :
    Terminal.SameAnswer Mirrors console.read script.read := by
  obtain ⟨⟨answers⟩, refusal, buffer, delivered⟩ := console
  obtain ⟨reads, writes, flushes, log⟩ := script
  obtain rfl : answers = reads := h.reads
  obtain ⟨hOutcome, hRest, hOutput⟩ := Script.readCalls_eq answers log
  show Terminal.SameAnswer Mirrors
    ((Script.readCalls answers #[]).1,
      ⟨⟨(Script.readCalls answers #[]).2.1⟩, refusal, buffer, delivered⟩)
    ((Script.readCalls answers log).1,
      ⟨(Script.readCalls answers log).2.1, writes, flushes, (Script.readCalls answers log).2.2⟩)
  rw [hOutcome, hRest]
  exact .intro ⟨h.refusal, h.written.trans hOutput.symm, rfl, h.writes, h.flushes⟩

theorem bisimulation_mirrors : Terminal.Bisimulation Mirrors where
  write h byte := h.write byte
  flush h := h.flush
  read h := h.read

/-- A run on a console and on a script -/
theorem run_mirrors (input : ConsoleInput) (turns : Nat) (program : Program) (machine : Machine) :
    Run.Mirrors Mirrors (machine.run turns program ({ input := input } : Console))
      (machine.run turns program ({ reads := input.answers } : Script)) := by
  have hStart : Mirrors { input := input } { reads := input.answers } := ⟨rfl, rfl, rfl, rfl, rfl⟩
  exact bisimulation_mirrors.run hStart turns program machine

end Console

end TapeLang
