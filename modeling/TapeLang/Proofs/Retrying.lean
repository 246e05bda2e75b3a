import TapeLang.Proofs.Requests
import TapeLang.Proofs.Transitions

/-!
# Trying a failed step again

A step that fails leaves the machine as it was, and no byte has gone either way.
So it can be tried again, and it makes no difference that it failed.  To say so, a
machine is driven by single steps (`Machine.drive`), a step that the terminal
failed being followed by another try, once on a script and once on the same script
without its faults.  The two drives differ in the number of calls and agree in all
else.

The proof relates a script to one without its faults (`Script.Cleared`).  A request
is either met by both scripts alike, or refused by the first one, which has then
fewer faults left (`Script.Matched`); this carries over to steps, and from steps to
drives.  Since the faults are finitely many, a drive gets past them.

## Main results

* `Script.Cleared.write`, `Script.Cleared.flush`, `Script.Cleared.read` — the three
  requests, with and without faults.
* `Machine.step_attempt` — a step, with and without faults.
* `Machine.exists_clean_drive`, `Machine.exists_faulty_drive` — drives, in both
  directions.
* `retrying_is_transparent` — a failed step changes nothing, and trying it again is
  as good as no failure.
-/

namespace TapeLang

/-! ## Bytes in a log -/

-- Calls that were interrupted pass no byte, whatever calls come after them.

theorem filterMap_output?_refusals (retries : List Interruption) (calls : List Call) :
    (refusals retries ++ calls).filterMap Call.output? = calls.filterMap Call.output? := by
  simp [refusals, Call.output?]

theorem filterMap_input?_refusals (retries : List Interruption) (calls : List Call) :
    (refusals retries ++ calls).filterMap Call.input? = calls.filterMap Call.input? := by
  simp [refusals, Call.input?]

theorem filterMap_output?_lapses (retries : List Interruption) (calls : List Call) :
    ((lapses retries).map Call.read ++ calls).filterMap Call.output? =
      calls.filterMap Call.output? := by
  simp [Call.output?]

theorem filterMap_input?_lapses (retries : List Interruption) (calls : List Call) :
    ((lapses retries).map Call.read ++ calls).filterMap Call.input? =
      calls.filterMap Call.input? := by
  simp [lapses, Call.input?]

/-! ## Scripts without faults -/

theorem filter_isInput_lapses (retries : List Interruption) :
    (lapses retries).filter ReadAnswer.isInput = [] := by
  simp only [lapses, List.filter_map, List.map_eq_nil_iff, List.filter_eq_nil_iff]
  rintro ⟨error, hRetry⟩ _
  simp [ReadAnswer.isInput, hRetry]

namespace Script

/--
The script with its faults deleted.  What remains of the answers are bytes, ends of
input, and failures that stand for an end of input.
-/
def withoutFaults (script : Script) : Script :=
  { script with reads := script.reads.filter ReadAnswer.isInput, writes := [], flushes := [] }

/-- The number of faults that are left. -/
def faults (script : Script) : Nat :=
  script.reads.countP (fun answer => !answer.isInput) + script.writes.length +
    script.flushes.length

/--
One script is what is left of another when the faults are deleted, and the same bytes
have passed on both.
-/
structure Cleared (script clean : Script) : Prop where
  reads : clean.reads = script.reads.filter ReadAnswer.isInput
  writes : clean.writes = []
  flushes : clean.flushes = []
  output : clean.output = script.output
  consumed : clean.consumed = script.consumed

variable {script clean : Script}

theorem cleared_withoutFaults (script : Script) : script.Cleared script.withoutFaults :=
  ⟨rfl, rfl, rfl, rfl, rfl⟩

/-- Calls on both scripts keep them related if they pass the same bytes. -/
theorem Cleared.advance {script' clean' : Script} {calls calls' : List Call}
    (h : script.Cleared clean) (hReads : clean'.reads = script'.reads.filter ReadAnswer.isInput)
    (hWrites : clean'.writes = []) (hFlushes : clean'.flushes = [])
    (hLog : script'.log.toList = script.log.toList ++ calls)
    (hLog' : clean'.log.toList = clean.log.toList ++ calls')
    (hOutput : calls.filterMap Call.output? = calls'.filterMap Call.output?)
    (hInput : calls.filterMap Call.input? = calls'.filterMap Call.input?) :
    script'.Cleared clean' := by
  refine ⟨hReads, hWrites, hFlushes, ?_, ?_⟩
  · have hBefore : clean.log.toList.filterMap Call.output? =
        script.log.toList.filterMap Call.output? := h.output
    rw [Script.output, Script.output, hLog, hLog', List.filterMap_append, List.filterMap_append,
      hBefore, hOutput]
  · have hBefore : clean.log.toList.filterMap Call.input? =
        script.log.toList.filterMap Call.input? := h.consumed
    rw [Script.consumed, Script.consumed, hLog, hLog', List.filterMap_append,
      List.filterMap_append, hBefore, hInput]

/-- Calls that pass no byte on one script keep it related to the other. -/
theorem Cleared.wait {script' : Script} {calls : List Call} (h : script.Cleared clean)
    (hReads : script'.reads.filter ReadAnswer.isInput = script.reads.filter ReadAnswer.isInput)
    (hLog : script'.log.toList = script.log.toList ++ calls)
    (hOutput : calls.filterMap Call.output? = []) (hInput : calls.filterMap Call.input? = []) :
    script'.Cleared clean :=
  h.advance (h.reads.trans hReads.symm) h.writes h.flushes hLog (List.append_nil _).symm
    hOutput hInput

/--
A request comes out on a script and on one without its faults: it is met alike by
both, or refused by the first, which has fewer faults then.
-/
inductive Matched {α : Type} (ask : Script → Except StreamError α × Script)
    (script clean : Script) : Prop where
  | met {value : α} {script' clean' : Script} (hMet : ask script = (.ok value, script'))
      (hClean : ask clean = (.ok value, clean')) (hCleared : script'.Cleared clean')
      (hFaults : script'.faults ≤ script.faults)
  | refused {error : StreamError} {script' : Script}
      (hRefused : ask script = (.error error, script')) (hCleared : script'.Cleared clean)
      (hFaults : script'.faults < script.faults)

/-! ## The three requests -/

theorem Cleared.write (h : script.Cleared clean) (byte : UInt8) :
    Matched (Script.write byte) script clean := by
  rcases hWrite : script.write byte with ⟨error | _, script'⟩
  · obtain ⟨retries, fault, writes, log, _, _, rfl, hLog, hLess⟩ := write_error hWrite
    refine .refused hWrite (h.wait rfl hLog ?_ ?_) ?_
    · exact filterMap_output?_refusals retries _
    · exact filterMap_input?_refusals retries _
    · simp only [faults]
      omega
  · obtain ⟨retries, writes, log, rfl, hLog, hLess⟩ := write_ok hWrite
    have hClean : clean.write byte =
        (.ok (), { clean with log := clean.log.push (.accepted byte) }) := by
      obtain ⟨reads, writes, flushes, log⟩ := clean
      obtain rfl : writes = [] := h.writes
      rfl
    refine .met hWrite hClean
      (h.advance h.reads h.writes h.flushes hLog Array.toList_push ?_ ?_) ?_
    · exact filterMap_output?_refusals retries _
    · exact filterMap_input?_refusals retries _
    · simp only [faults]
      omega

/-- Without faults a flush succeeds and is only one more call. -/
theorem Cleared.flush_clean (h : script.Cleared clean) :
    clean.flush = (.ok (), { clean with log := clean.log.push .flushed }) := by
  obtain ⟨reads, writes, flushes, log⟩ := clean
  obtain rfl : flushes = [] := h.flushes
  rfl

/-- That call passes no byte. -/
theorem Cleared.of_flushed
    (h : script.Cleared { clean with log := clean.log.push .flushed }) : script.Cleared clean := by
  refine ⟨h.reads, h.writes, h.flushes, ?_, ?_⟩
  · rw [← h.output, Script.output, Script.output, Array.toList_push, List.filterMap_append]
    exact (List.append_nil _).symm
  · rw [← h.consumed, Script.consumed, Script.consumed, Array.toList_push, List.filterMap_append]
    exact (List.append_nil _).symm

theorem Cleared.flush (h : script.Cleared clean) : Matched Script.flush script clean := by
  rcases hFlush : script.flush with ⟨error | _, script'⟩
  · obtain ⟨flushes, rfl, hLess⟩ := flush_error hFlush
    refine .refused hFlush (h.wait rfl Array.toList_push rfl rfl) ?_
    simp only [faults]
    omega
  · obtain ⟨flushes, rfl, hLess⟩ := flush_ok hFlush
    refine .met hFlush h.flush_clean
      (h.advance h.reads h.writes h.flushes Array.toList_push Array.toList_push rfl rfl) ?_
    simp only [faults]
    omega

/-- An answer that is input meets a request at once. -/
theorem read_of_isInput {answer : ReadAnswer} {rest : List ReadAnswer}
    (hReads : script.reads = answer :: rest) (hInput : answer.isInput = true) :
    script.read = (.ok answer.byte?,
      { script with reads := rest, log := script.log.push (.read answer) }) := by
  obtain ⟨reads, writes, flushes, log⟩ := script
  obtain rfl : reads = answer :: rest := hReads
  cases answer with
  | byte value => rfl
  | endOfInput => rfl
  | fault error =>
      have hEnd : error.kind = .unexpectedEof := by simpa [ReadAnswer.isInput] using hInput
      simp [read, readCalls, hEnd, ReadAnswer.byte?]

/-- Behind its last answer a script is at the end of the input. -/
theorem read_of_nil (hReads : script.reads = []) :
    script.read = (.ok none, { script with log := script.log.push (.read .endOfInput) }) := by
  obtain ⟨reads, writes, flushes, log⟩ := script
  obtain rfl : reads = [] := hReads
  rfl

theorem Cleared.read (h : script.Cleared clean) : Matched Script.read script clean := by
  rcases hRead : script.read with ⟨error | input, script'⟩
  · obtain ⟨retries, reads, log, _, hEnd, rfl, hLog, hReads⟩ := read_error hRead
    have hFault : (ReadAnswer.fault error).isInput = false := by simp [ReadAnswer.isInput, hEnd]
    refine .refused hRead (h.wait ?_ hLog ?_ ?_) ?_
    · rw [hReads, List.filter_append, filter_isInput_lapses,
        List.filter_cons_of_neg (by simp [hFault])]
      rfl
    · exact filterMap_output?_lapses retries _
    · exact filterMap_input?_lapses retries _
    · simp only [faults, hReads, List.countP_append, List.countP_cons, hFault, Bool.not_false,
        if_true]
      omega
  · obtain ⟨retries, answer, reads, log, hInput, rfl, rfl, hLog, hReads⟩ := read_ok hRead
    obtain hReads | ⟨hReads, rfl, rfl⟩ := hReads
    · have hClean : clean.reads = answer :: reads.filter ReadAnswer.isInput := by
        rw [h.reads, hReads, List.filter_append, filter_isInput_lapses,
          List.filter_cons_of_pos hInput]
        rfl
      refine .met hRead (read_of_isInput hClean hInput)
        (h.advance rfl h.writes h.flushes hLog Array.toList_push ?_ ?_) ?_
      · exact filterMap_output?_lapses retries _
      · exact filterMap_input?_lapses retries _
      · simp only [faults, hReads, List.countP_append, List.countP_cons]
        omega
    · have hClean : clean.reads = [] := by rw [h.reads, hReads, filter_isInput_lapses]
      refine .met hRead (read_of_nil hClean)
        (h.advance hClean h.writes h.flushes hLog Array.toList_push ?_ ?_) ?_
      · exact filterMap_output?_lapses retries _
      · exact filterMap_input?_lapses retries _
      · simp only [faults, List.countP_nil]
        omega

end Script

namespace Machine

/-! ## Single steps -/

/--
A step comes out on a script and on one without its faults: it succeeds alike on both,
or the first script refuses it and has fewer faults then, or it is not possible.
-/
inductive Attempt (program : Program) (machine : Machine) (script clean : Script) : Prop where
  | succeeds {next : Machine} {script' clean' : Script}
      (hStep : machine.step program script = ⟨.ok (), next, script'⟩)
      (hClean : machine.step program clean = ⟨.ok (), next, clean'⟩)
      (hCleared : script'.Cleared clean') (hFaults : script'.faults ≤ script.faults)
  | refused {error : StreamError} {script' : Script}
      (hStep : machine.step program script = ⟨.error (.stream error), machine, script'⟩)
      (hCleared : script'.Cleared clean) (hFaults : script'.faults < script.faults)
  | inconsistent
      (hStep : machine.step program script =
        ⟨.error (.inconsistent machine.pc), machine, script⟩)
      (hClean : machine.step program clean = ⟨.error (.inconsistent machine.pc), machine, clean⟩)

section Requests

variable {program : Program} {machine : Machine} {script clean : Script}

theorem attempt_write {byte : UInt8} (hAct : machine.act program = .write byte machine)
    (h : script.Cleared clean) : Attempt program machine script clean := by
  have hStep (terminal : Script) :
      machine.step program terminal = machine.writeStep byte terminal := by rw [step, hAct]
  dsimp only [writeStep, Terminal.write] at hStep
  cases h.write byte with
  | @met _ script' clean' hMet hClean hCleared hFaults =>
      have hDone : machine.step program script = ⟨.ok (), machine.next id, script'⟩ := by
        rw [hStep, hMet]
      have hDoneClean : machine.step program clean = ⟨.ok (), machine.next id, clean'⟩ := by
        rw [hStep, hClean]
      exact .succeeds hDone hDoneClean hCleared hFaults
  | @refused error script' hRefused hCleared hFaults =>
      have hFailed : machine.step program script =
          ⟨.error (.stream error), machine, script'⟩ := by rw [hStep, hRefused]
      exact .refused hFailed hCleared hFaults

/-- Either of the two requests of a read can be refused. -/
theorem attempt_read (hAct : machine.act program = .read machine) (h : script.Cleared clean) :
    Attempt program machine script clean := by
  have hStep (terminal : Script) :
      machine.step program terminal = machine.readStep terminal := by rw [step, hAct]
  dsimp only [readStep, Terminal.flush, Terminal.read] at hStep
  cases h.flush with
  | @refused error script' hRefused hCleared hFaults =>
      have hFailed : machine.step program script =
          ⟨.error (.stream error), machine, script'⟩ := by rw [hStep, hRefused]
      exact .refused hFailed hCleared hFaults
  | met hFlush hFlushClean hFlushed hFewer =>
      cases hFlushed.read with
      | @met input script' clean' hMet hClean hCleared hFaults =>
          have hDone : machine.step program script =
              ⟨.ok (), machine.next (·.set (received input)), script'⟩ := by
            simp only [hStep, hFlush, hMet]
          have hDoneClean : machine.step program clean =
              ⟨.ok (), machine.next (·.set (received input)), clean'⟩ := by
            simp only [hStep, hFlushClean, hClean]
          exact .succeeds hDone hDoneClean hCleared (Nat.le_trans hFaults hFewer)
      | @refused error script' hRefused hCleared hFaults =>
          have hFailed : machine.step program script =
              ⟨.error (.stream error), machine, script'⟩ := by
            simp only [hStep, hFlush, hRefused]
          -- the other script is taken back to before its flush
          rw [h.flush_clean] at hFlushClean
          cases hFlushClean
          exact .refused hFailed hCleared.of_flushed (Nat.lt_of_lt_of_le hFaults hFewer)

end Requests

theorem step_attempt (program : Program) (machine : Machine) {script clean : Script}
    (h : script.Cleared clean) : Attempt program machine script clean := by
  -- what the instruction asks for does not depend on the script
  have hActs := acts program machine
  generalize hAct : machine.act program = action at hActs
  have hDone (next : Machine) (hNext : action = .proceed next) (terminal : Script) :
      machine.step program terminal = ⟨.ok (), next, terminal⟩ := by rw [step, hAct, hNext]
  have hStuck (hStays : action = .stuck machine) (terminal : Script) :
      machine.step program terminal = ⟨.error (.inconsistent machine.pc), machine, terminal⟩ := by
    rw [step, hAct, hStays]
  cases hActs with
  | goesOn => exact .succeeds (hDone _ rfl script) (hDone _ rfl clean) h (Nat.le_refl _)
  | jumps => exact .succeeds (hDone _ rfl script) (hDone _ rfl clean) h (Nat.le_refl _)
  | writes => exact attempt_write hAct h
  | reads => exact attempt_read hAct h
  | outside => exact .inconsistent (hStuck rfl script) (hStuck rfl clean)
  | blocked => exact .inconsistent (hStuck rfl script) (hStuck rfl clean)

/-! ## Driving a machine by single steps -/

/-- How far a drive has come. -/
inductive Standing where
  /-- There is more to do. -/
  | underway
  /-- The program is at its end. -/
  | ended
  /-- The next step is not possible. -/
  | inconsistent (address : Nat)
  deriving DecidableEq, Repr

/-- What is left of a drive. -/
structure Drive where
  /-- The machine after each step that succeeded, in order. -/
  trail : List Machine
  /-- How far the drive has come. -/
  standing : Standing
  /-- The machine at last. -/
  machine : Machine
  /-- The script at last. -/
  script : Script

/-- Puts a machine at the front of the trail. -/
def Drive.record (machine : Machine) (drive : Drive) : Drive :=
  { drive with trail := machine :: drive.trail }

/--
Calls for single steps, up to a number of them, until the program is at its end or a
step is not possible.  A step that the terminal failed is called for again.
-/
def drive (program : Program) : (calls : Nat) → Machine → Script → Drive
  | 0, machine, script => ⟨[], .underway, machine, script⟩
  | calls + 1, machine, script =>
    if machine.pc < program.size then
      match machine.step program script with
      | ⟨.ok (), machine, script⟩ => (drive program calls machine script).record machine
      | ⟨.error (.stream _), machine, script⟩ => drive program calls machine script
      | ⟨.error (.inconsistent address), machine, script⟩ =>
        ⟨[], .inconsistent address, machine, script⟩
    else
      ⟨[], .ended, machine, script⟩

/-- Two drives have the same trail and standing, the same machine at last, and the same bytes. -/
structure Drive.Agrees (drive other : Drive) : Prop where
  trail : drive.trail = other.trail
  standing : drive.standing = other.standing
  machine : drive.machine = other.machine
  output : drive.script.output = other.script.output
  consumed : drive.script.consumed = other.script.consumed

theorem Drive.Agrees.record {drive other : Drive} (h : drive.Agrees other) (machine : Machine) :
    (drive.record machine).Agrees (other.record machine) :=
  ⟨congrArg (machine :: ·) h.trail, h.standing, h.machine, h.output, h.consumed⟩

section Equations

variable {program : Program} {machine next : Machine} {script script' : Script} (calls : Nat)

theorem drive_ok (h : machine.step program script = ⟨.ok (), next, script'⟩) :
    drive program (calls + 1) machine script = (drive program calls next script').record next := by
  rw [drive, if_pos (pc_lt_of_step h), h]

theorem drive_retry {error : StreamError}
    (h : machine.step program script = ⟨.error (.stream error), machine, script'⟩) :
    drive program (calls + 1) machine script = drive program calls machine script' := by
  have hPc : machine.pc < program.size := by
    apply pc_lt_of_outcome machine script
    rw [h]
    exact nofun
  rw [drive, if_pos hPc, h]

theorem drive_inconsistent {address : Nat} (hPc : machine.pc < program.size)
    (h : machine.step program script = ⟨.error (.inconsistent address), machine, script⟩) :
    drive program (calls + 1) machine script = ⟨[], .inconsistent address, machine, script⟩ := by
  rw [drive, if_pos hPc, h]

theorem drive_ended (hPc : ¬machine.pc < program.size) :
    drive program (calls + 1) machine script = ⟨[], .ended, machine, script⟩ := by
  rw [drive, if_neg hPc]

end Equations

/-! ## Drives with and without faults -/

variable {program : Program}

/-- However far a drive has come, a drive without the faults comes as far with no more calls. -/
theorem exists_clean_drive (calls : Nat) :
    ∀ (machine : Machine) {script clean : Script}, script.Cleared clean →
      ∃ calls' ≤ calls,
        (drive program calls machine script).Agrees (drive program calls' machine clean) := by
  induction calls with
  | zero =>
      intro machine script clean h
      exact ⟨0, Nat.le_refl 0, rfl, rfl, rfl, h.output.symm, h.consumed.symm⟩
  | succ calls ih =>
      intro machine script clean h
      by_cases hPc : machine.pc < program.size
      · cases step_attempt program machine h with
        | @succeeds next script' clean' hStep hClean hCleared _ =>
            obtain ⟨calls', hCalls, hAgrees⟩ := ih next hCleared
            refine ⟨calls' + 1, by omega, ?_⟩
            rw [drive_ok calls hStep, drive_ok calls' hClean]
            exact hAgrees.record next
        | refused hStep hCleared _ =>
            obtain ⟨calls', hCalls, hAgrees⟩ := ih machine hCleared
            refine ⟨calls', by omega, ?_⟩
            rw [drive_retry calls hStep]
            exact hAgrees
        | inconsistent hStep hClean =>
            refine ⟨calls + 1, Nat.le_refl _, ?_⟩
            rw [drive_inconsistent calls hPc hStep, drive_inconsistent calls hPc hClean]
            exact ⟨rfl, rfl, rfl, h.output.symm, h.consumed.symm⟩
      · refine ⟨calls + 1, Nat.le_refl _, ?_⟩
        rw [drive_ended calls hPc, drive_ended calls hPc]
        exact ⟨rfl, rfl, rfl, h.output.symm, h.consumed.symm⟩

/--
However far a drive without the faults has come, a drive comes as far with at most one
more call for each fault.
-/
theorem exists_faulty_drive (calls : Nat) :
    ∀ (machine : Machine) {script clean : Script}, script.Cleared clean →
      ∃ retries ≤ script.faults,
        (drive program (calls + retries) machine script).Agrees
          (drive program calls machine clean) := by
  induction calls with
  | zero =>
      intro machine script clean h
      exact ⟨0, Nat.zero_le _, rfl, rfl, rfl, h.output.symm, h.consumed.symm⟩
  | succ calls ih =>
      intro machine script clean h
      by_cases hPc : machine.pc < program.size
      · -- until the step succeeds every call uses up a fault
        induction hCount : script.faults using Nat.strongRecOn generalizing script with
        | ind count ihFaults =>
            cases step_attempt program machine h with
            | @succeeds next script' clean' hStep hClean hCleared hFaults =>
                obtain ⟨retries, hRetries, hAgrees⟩ := ih next hCleared
                refine ⟨retries, by omega, ?_⟩
                rw [Nat.add_right_comm, drive_ok _ hStep, drive_ok _ hClean]
                exact hAgrees.record next
            | @refused _ script' hStep hCleared hFaults =>
                obtain ⟨retries, hRetries, hAgrees⟩ :=
                  ihFaults script'.faults (by omega) hCleared rfl
                refine ⟨retries + 1, by omega, ?_⟩
                rw [← Nat.add_assoc, drive_retry _ hStep]
                exact hAgrees
            | inconsistent hStep hClean =>
                refine ⟨0, Nat.zero_le _, ?_⟩
                rw [Nat.add_zero, drive_inconsistent _ hPc hStep, drive_inconsistent _ hPc hClean]
                exact ⟨rfl, rfl, rfl, h.output.symm, h.consumed.symm⟩
      · refine ⟨0, Nat.zero_le _, ?_⟩
        rw [Nat.add_zero, drive_ended _ hPc, drive_ended _ hPc]
        exact ⟨rfl, rfl, rfl, h.output.symm, h.consumed.symm⟩

/-- A drive without faults that is underway has made a step with every call. -/
theorem length_trail_of_underway (calls : Nat) :
    ∀ {machine : Machine} {script : Script}, script.faults = 0 →
      (drive program calls machine script).standing = .underway →
        (drive program calls machine script).trail.length = calls := by
  induction calls with
  | zero => intro machine script _ _; rfl
  | succ calls ih =>
      intro machine script hFaults h
      by_cases hPc : machine.pc < program.size
      · cases step_attempt program machine script.cleared_withoutFaults with
        | succeeds hStep _ _ hFewer =>
            rw [drive_ok calls hStep] at h ⊢
            have hRest := ih (by omega) h
            simp only [Drive.record, List.length_cons, hRest]
        | refused _ _ hFewer => omega
        | inconsistent hStep _ =>
            rw [drive_inconsistent calls hPc hStep] at h
            cases h
      · rw [drive_ended calls hPc] at h
        cases h

end Machine

/--
**Trying a failed step again is as good as no failure.**  A step that fails leaves the
machine as it was, takes no byte from the input, of which all but faults is still to
come, and delivers none to the output.  So a machine driven by single steps, each tried
again when the terminal fails it, passes through the same machines as on the script
without its faults, to the same end of the program or the same inconsistency, and the
same bytes pass.  Without the faults no more calls are needed, and every one of them is a
step until the drive is over; with them, at most one more for each.
-/
theorem retrying_is_transparent (program : Program) (machine : Machine) (script : Script) :
    (∀ (error : ExecuteError) (machine' : Machine) (script' : Script),
      machine.step program script = ⟨.error error, machine', script'⟩ →
        machine' = machine ∧ script'.consumed = script.consumed ∧
          script'.output = script.output ∧
          script'.withoutFaults.reads = script.withoutFaults.reads) ∧
    (∀ calls : Nat, ∃ calls' ≤ calls,
      (Machine.drive program calls machine script).Agrees
        (Machine.drive program calls' machine script.withoutFaults)) ∧
    (∀ calls : Nat, ∃ retries ≤ script.faults,
      (Machine.drive program (calls + retries) machine script).Agrees
        (Machine.drive program calls machine script.withoutFaults)) ∧
    ∀ calls : Nat,
      (Machine.drive program calls machine script.withoutFaults).standing = .underway →
        (Machine.drive program calls machine script.withoutFaults).trail.length = calls := by
  have hCleared := script.cleared_withoutFaults
  refine ⟨?_, fun calls => Machine.exists_clean_drive calls machine hCleared,
    fun calls => Machine.exists_faulty_drive calls machine hCleared, fun calls => ?_⟩
  · intro error machine' script' hFailed
    cases Machine.step_attempt program machine hCleared with
    | succeeds hStep =>
        rw [hFailed] at hStep
        cases hStep
    | refused hStep hLeft _ =>
        rw [hFailed] at hStep
        cases hStep
        exact ⟨rfl, hLeft.consumed.symm, hLeft.output.symm, hLeft.reads.symm⟩
    | inconsistent hStep _ =>
        rw [hFailed] at hStep
        cases hStep
        exact ⟨rfl, rfl, rfl, rfl⟩
  · apply Machine.length_trail_of_underway
    simp [Script.faults, Script.withoutFaults, List.countP_eq_zero]

/-- The flush, the read and the write each fail once. -/
theorem retrying_is_transparent_echo :
    ∃ retries ≤ 3,
      (Machine.drive ⟨#[⟨.read, 0⟩, ⟨.write, 0⟩]⟩ (3 + retries) (Machine.fresh ⟨1, by decide⟩)
        { reads := [.fault (.ofKind .timedOut), .byte 65], writes := [(0, .nothing)],
          flushes := [(0, .ofKind .brokenPipe)] }).standing = .ended ∧
      (Machine.drive ⟨#[⟨.read, 0⟩, ⟨.write, 0⟩]⟩ (3 + retries) (Machine.fresh ⟨1, by decide⟩)
        { reads := [.fault (.ofKind .timedOut), .byte 65], writes := [(0, .nothing)],
          flushes := [(0, .ofKind .brokenPipe)] }).script.output = [65] := by
  obtain ⟨_, _, hFaulty, _⟩ := retrying_is_transparent ⟨#[⟨.read, 0⟩, ⟨.write, 0⟩]⟩
    (Machine.fresh ⟨1, by decide⟩)
    { reads := [.fault (.ofKind .timedOut), .byte 65], writes := [(0, .nothing)],
      flushes := [(0, .ofKind .brokenPipe)] }
  obtain ⟨retries, hRetries, hAgrees⟩ := hFaulty 3
  exact ⟨retries, hRetries, hAgrees.standing, hAgrees.output⟩

end TapeLang
