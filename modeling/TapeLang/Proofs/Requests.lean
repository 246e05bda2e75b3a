import TapeLang.Stream.Script

/-!
# The calls of one request

A machine makes three kinds of requests, and a scripted terminal may need several
calls to settle one.  Here is what those calls are.  A write and a read are tried
again as long as they are interrupted, and the next call settles them; a flush is
a single call.  For each request there is one lemma for success and one for
failure.  It says which calls were added to the log, how much of the script they
used up, and that nothing else changed.

## Main results

* `Script.write_ok`, `Script.write_error` — the calls of a write.
* `Script.flush_ok`, `Script.flush_error` — the call of a flush.
* `Script.read_ok`, `Script.read_error` — the calls of a read.
-/

namespace TapeLang

/-! ## Calls that settle nothing -/

/-- A failure after which a call is made again. -/
abbrev Interruption := { error : StreamError // error.kind = .interrupted }

/-- Write calls that were interrupted. -/
def refusals (retries : List Interruption) : List Call :=
  retries.map fun retry => .refused (.failure retry.val)

/-- The answers of calls for input that were interrupted. -/
def lapses (retries : List Interruption) : List ReadAnswer :=
  retries.map fun retry => .fault retry.val

/-- The failure that a write request ends with at a call that is not made again. -/
def WriteFault.error : WriteFault → StreamError
  | .nothing => .wroteNothing
  | .failure error => error

namespace ReadAnswer

/-- Whether the answer is input, be it a byte or the end. -/
def isInput : ReadAnswer → Bool
  | .fault error => error.kind == .unexpectedEof
  | _ => true

/-- The byte that the answer brings, if it does. -/
def byte? : ReadAnswer → Option UInt8
  | .byte value => some value
  | _ => none

end ReadAnswer

namespace Script

variable {script script' : Script} {byte : UInt8} {error : StreamError}

/-! ## Writing -/

/-- Interrupted calls, and then one that takes the byte or one that fails for good. -/
private theorem writeCalls_cases (byte : UInt8) (faults : Schedule WriteFault) :
    ∀ log : Array Call, ∃ (retries : List Interruption) (rest : Schedule WriteFault)
      (log' : Array Call),
      (writeCalls byte faults log = (.ok (), rest, log') ∧
        log'.toList = log.toList ++ (refusals retries ++ [.accepted byte]) ∧
        rest.length ≤ faults.length) ∨
      ∃ fault : WriteFault, fault.error.kind ≠ .interrupted ∧
        writeCalls byte faults log = (.error fault.error, rest, log') ∧
        log'.toList = log.toList ++ (refusals retries ++ [.refused fault]) ∧
        rest.length < faults.length := by
  induction faults with
  | nil =>
      intro log
      exact ⟨[], [], _, .inl ⟨rfl, Array.toList_push, Nat.le_refl _⟩⟩
  | cons head rest ih =>
      intro log
      obtain ⟨_ | count, fault⟩ := head
      · cases fault with
        | nothing =>
            exact ⟨[], rest, _, .inr ⟨.nothing, by decide, rfl, Array.toList_push, by simp⟩⟩
        | failure error =>
            by_cases hRetry : error.kind = .interrupted
            · obtain ⟨retries, left, log', hCases⟩ := ih (log.push (.refused (.failure error)))
              refine ⟨⟨error, hRetry⟩ :: retries, left, log', ?_⟩
              rw [writeCalls, if_pos hRetry]
              obtain ⟨hCalls, hLog, hLeft⟩ | ⟨fault, hFault, hCalls, hLog, hLeft⟩ := hCases
              · exact .inl ⟨hCalls, by simpa [refusals] using hLog, by simp; omega⟩
              · exact .inr ⟨fault, hFault, hCalls, by simpa [refusals] using hLog, by simp; omega⟩
            · refine ⟨[], rest, _, .inr ⟨.failure error, hRetry, ?_, Array.toList_push, by simp⟩⟩
              rw [writeCalls, if_neg hRetry]
              rfl
      · exact ⟨[], (count, fault) :: rest, _, .inl ⟨rfl, Array.toList_push, Nat.le_refl _⟩⟩

theorem write_ok (h : script.write byte = (.ok (), script')) :
    ∃ (retries : List Interruption) (writes : Schedule WriteFault) (log : Array Call),
      script' = { script with writes := writes, log := log } ∧
      log.toList = script.log.toList ++ (refusals retries ++ [.accepted byte]) ∧
      writes.length ≤ script.writes.length := by
  obtain ⟨reads, writes, flushes, log⟩ := script
  obtain ⟨retries, rest, log', ⟨hCalls, hLog, hRest⟩ | ⟨fault, _, hCalls, _⟩⟩ :=
    writeCalls_cases byte writes log
  · rw [write, hCalls] at h
    cases h
    exact ⟨retries, rest, log', rfl, hLog, hRest⟩
  · rw [write, hCalls] at h
    cases h

theorem write_error (h : script.write byte = (.error error, script')) :
    ∃ (retries : List Interruption) (fault : WriteFault) (writes : Schedule WriteFault)
      (log : Array Call),
      fault.error = error ∧ error.kind ≠ .interrupted ∧
      script' = { script with writes := writes, log := log } ∧
      log.toList = script.log.toList ++ (refusals retries ++ [.refused fault]) ∧
      writes.length < script.writes.length := by
  obtain ⟨reads, writes, flushes, log⟩ := script
  obtain ⟨retries, rest, log', ⟨hCalls, _⟩ | ⟨fault, hFault, hCalls, hLog, hRest⟩⟩ :=
    writeCalls_cases byte writes log
  · rw [write, hCalls] at h
    cases h
  · rw [write, hCalls] at h
    cases h
    exact ⟨retries, fault, rest, log', rfl, hFault, rfl, hLog, hRest⟩

/-! ## Flushing -/

theorem flush_ok (h : script.flush = (.ok (), script')) :
    ∃ flushes : Schedule StreamError,
      script' = { script with flushes := flushes, log := script.log.push .flushed } ∧
      flushes.length ≤ script.flushes.length := by
  obtain ⟨reads, writes, flushes, log⟩ := script
  match flushes, h with
  | [], h => cases h; exact ⟨[], rfl, Nat.le_refl _⟩
  | (count + 1, fault) :: rest, h => cases h; exact ⟨(count, fault) :: rest, rfl, Nat.le_refl _⟩

theorem flush_error (h : script.flush = (.error error, script')) :
    ∃ flushes : Schedule StreamError,
      script' = { script with flushes := flushes, log := script.log.push (.flushFailed error) } ∧
      flushes.length < script.flushes.length := by
  obtain ⟨reads, writes, flushes, log⟩ := script
  match flushes, h with
  | (0, fault) :: rest, h => cases h; exact ⟨rest, rfl, Nat.lt_succ_self _⟩

/-! ## Reading -/

/--
Interrupted calls, and then one that brings input or one that fails for good.  The
answers come from the script as long as it has any.
-/
private theorem readCalls_cases (answers : List ReadAnswer) :
    ∀ log : Array Call, ∃ (retries : List Interruption) (rest : List ReadAnswer)
      (log' : Array Call),
      (∃ answer : ReadAnswer, answer.isInput = true ∧
        readCalls answers log = (.ok answer.byte?, rest, log') ∧
        log'.toList = log.toList ++ ((lapses retries).map .read ++ [.read answer]) ∧
        (answers = lapses retries ++ answer :: rest ∨
          answers = lapses retries ∧ answer = .endOfInput ∧ rest = [])) ∨
      ∃ error : StreamError, error.kind ≠ .interrupted ∧ error.kind ≠ .unexpectedEof ∧
        readCalls answers log = (.error error, rest, log') ∧
        log'.toList = log.toList ++ ((lapses retries).map .read ++ [.read (.fault error)]) ∧
        answers = lapses retries ++ .fault error :: rest := by
  induction answers with
  | nil =>
      intro log
      exact ⟨[], [], _, .inl ⟨.endOfInput, rfl, rfl, Array.toList_push, .inr ⟨rfl, rfl, rfl⟩⟩⟩
  | cons answer rest ih =>
      intro log
      cases answer with
      | byte value =>
          exact ⟨[], rest, _, .inl ⟨.byte value, rfl, rfl, Array.toList_push, .inl rfl⟩⟩
      | endOfInput =>
          exact ⟨[], rest, _, .inl ⟨.endOfInput, rfl, rfl, Array.toList_push, .inl rfl⟩⟩
      | fault error =>
          by_cases hRetry : error.kind = .interrupted
          · obtain ⟨retries, left, log', hCases⟩ := ih (log.push (.read (.fault error)))
            refine ⟨⟨error, hRetry⟩ :: retries, left, log', ?_⟩
            rw [readCalls, if_pos hRetry]
            obtain ⟨answer, hInput, hCalls, hLog, hAnswers⟩ |
              ⟨failure, hFailure, hEnd, hCalls, hLog, hAnswers⟩ := hCases
            · refine .inl ⟨answer, hInput, hCalls, by simpa [lapses] using hLog, ?_⟩
              obtain hAnswers | ⟨hAnswers, hLast⟩ := hAnswers
              · exact .inl (by rw [hAnswers]; rfl)
              · exact .inr ⟨by rw [hAnswers]; rfl, hLast⟩
            · exact .inr ⟨failure, hFailure, hEnd, hCalls, by simpa [lapses] using hLog,
                by rw [hAnswers]; rfl⟩
          · by_cases hEnd : error.kind = .unexpectedEof
            · refine ⟨[], rest, _, .inl ⟨.fault error, by simp [ReadAnswer.isInput, hEnd], ?_,
                Array.toList_push, .inl rfl⟩⟩
              rw [readCalls, if_neg hRetry, if_pos hEnd]
              rfl
            · refine ⟨[], rest, _, .inr ⟨error, hRetry, hEnd, ?_, Array.toList_push, rfl⟩⟩
              rw [readCalls, if_neg hRetry, if_neg hEnd]

theorem read_ok {input : Option UInt8} (h : script.read = (.ok input, script')) :
    ∃ (retries : List Interruption) (answer : ReadAnswer) (reads : List ReadAnswer)
      (log : Array Call),
      answer.isInput = true ∧ answer.byte? = input ∧
      script' = { script with reads := reads, log := log } ∧
      log.toList = script.log.toList ++ ((lapses retries).map .read ++ [.read answer]) ∧
      (script.reads = lapses retries ++ answer :: reads ∨
        script.reads = lapses retries ∧ answer = .endOfInput ∧ reads = []) := by
  obtain ⟨reads, writes, flushes, log⟩ := script
  obtain ⟨retries, rest, log', ⟨answer, hInput, hCalls, hLog, hReads⟩ | ⟨_, _, _, hCalls, _⟩⟩ :=
    readCalls_cases reads log
  · rw [read, hCalls] at h
    cases h
    exact ⟨retries, answer, rest, log', hInput, rfl, rfl, hLog, hReads⟩
  · rw [read, hCalls] at h
    cases h

theorem read_error (h : script.read = (.error error, script')) :
    ∃ (retries : List Interruption) (reads : List ReadAnswer) (log : Array Call),
      error.kind ≠ .interrupted ∧ error.kind ≠ .unexpectedEof ∧
      script' = { script with reads := reads, log := log } ∧
      log.toList = script.log.toList ++ ((lapses retries).map .read ++ [.read (.fault error)]) ∧
      script.reads = lapses retries ++ .fault error :: reads := by
  obtain ⟨reads, writes, flushes, log⟩ := script
  obtain ⟨retries, rest, log', ⟨_, _, hCalls, _⟩ |
    ⟨failure, hFailure, hEnd, hCalls, hLog, hReads⟩⟩ := readCalls_cases reads log
  · rw [read, hCalls] at h
    cases h
  · rw [read, hCalls] at h
    cases h
    exact ⟨retries, rest, log', hFailure, hEnd, rfl, hLog, hReads⟩

end Script

end TapeLang
