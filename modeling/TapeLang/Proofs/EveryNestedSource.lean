import TapeLang.Proofs.NestedSources
import TapeLang.Proofs.SuppliedChoices

/-!
# Every well-nested source can be generated

The generator of nested sources leaves little to choice: of its four states only one
draws which bracket comes next, and it stops early when there is nothing left to draw
from.  Still no well-nested source is out of its reach.

The choices for a given source are found from its end to its beginning.  What is still
to be written, the loops that are open and the loops that may be opened go together
(`Generate.Remaining`): if exactly as many loops may be opened as are still to be, then
a forced bracket is always the one wanted.  The induction is over what is still to be
written.  It collects the operations up to the next bracket, since they make one
segment, and puts the choices for the segment and the bracket before those for the
rest.

## Main results

* `Generate.Remaining.opening`, `Generate.Remaining.closing` — what is left after one
  more bracket.
* `Generate.turn_opens`, `Generate.turn_closes` — one round of the generator, for given
  choices.
* `Generate.exists_yields` — choices for all that is still to be written.
* `generated_sources_are_the_nested` — the sources that can be generated from bytes.
-/

namespace TapeLang

namespace Generate

/-! ## What is still to be written -/

/--
Operations that go on from a number of open loops, close them all, close nothing that
is not open, and open a number of loops of their own.
-/
structure Remaining (loops opened : Nat) (operations : List Operation) : Prop where
  loops_eq : loops = openings operations
  settled : opened + openings operations = closings operations
  closings_le : ∀ start, start <+: operations → closings start ≤ opened + openings start

namespace Remaining

variable {loops opened : Nat} {rest : List Operation}

theorem start {operations : List Operation} (h : Nested operations) :
    Remaining (openings operations) 0 operations where
  loops_eq := rfl
  settled := by
    rw [Nat.zero_add]
    exact h.settled
  closings_le := by
    intro start hStart
    rw [Nat.zero_add]
    exact h.closings_le start hStart

/-- At the end no loop is open, and none is to be opened. -/
theorem nil (h : Remaining loops opened []) : loops = 0 ∧ opened = 0 := by
  have hLoops := h.loops_eq
  have hSettled := h.settled
  rw [openings_nil] at hLoops hSettled
  rw [closings_nil] at hSettled
  omega

theorem simple {simple : SimpleOperation} (h : Remaining loops opened (simple.operation :: rest)) :
    Remaining loops opened rest where
  loops_eq := by
    have hLoops := h.loops_eq
    rwa [openings_simple] at hLoops
  settled := by
    have hSettled := h.settled
    rwa [openings_simple, closings_simple] at hSettled
  closings_le := by
    intro start hStart
    have hLe := h.closings_le (simple.operation :: start) (List.cons_prefix_cons.2 ⟨rfl, hStart⟩)
    rwa [openings_simple, closings_simple] at hLe

/-- An opening jump is still to be written, so a loop may still be opened. -/
theorem opening (h : Remaining loops opened (.jumpIfZero :: rest)) :
    ∃ fewer : Nat, loops = fewer + 1 ∧ Remaining fewer (opened + 1) rest := by
  have hLoops := h.loops_eq
  have hSettled := h.settled
  rw [openings_opening] at hLoops hSettled
  rw [closings_opening] at hSettled
  refine ⟨openings rest, hLoops, rfl, by omega, ?_⟩
  intro start hStart
  have hLe := h.closings_le (.jumpIfZero :: start) (List.cons_prefix_cons.2 ⟨rfl, hStart⟩)
  rw [openings_opening, closings_opening] at hLe
  omega

/-- A closing jump is still to be written, so a loop is open. -/
theorem closing (h : Remaining loops opened (.jumpIfNonZero :: rest)) :
    ∃ fewer : Nat, opened = fewer + 1 ∧ Remaining loops fewer rest := by
  have hLoops := h.loops_eq
  have hSettled := h.settled
  have hOpen := h.closings_le [.jumpIfNonZero] (List.cons_prefix_cons.2 ⟨rfl, List.nil_prefix⟩)
  rw [openings_closing] at hLoops
  rw [openings_closing, closings_closing] at hSettled hOpen
  rw [openings_nil, closings_nil] at hOpen
  refine ⟨opened - 1, by omega, hLoops, by omega, ?_⟩
  intro start hStart
  have hLe := h.closings_le (.jumpIfNonZero :: start) (List.cons_prefix_cons.2 ⟨rfl, hStart⟩)
  rw [openings_closing, closings_closing] at hLe
  omega

end Remaining

/-! ## One round for given choices -/

/-- A text with the symbols of operations written behind it. -/
def written (alphabet : Alphabet) (text : String) (operations : List Operation) : String :=
  operations.foldl (fun text operation => text.push (alphabet.symbol operation)) text

theorem written_append (alphabet : Alphabet) (text : String) (first second : List Operation) :
    written alphabet text (first ++ second) =
      written alphabet (written alphabet text first) second :=
  List.foldl_append

theorem toList_written (alphabet : Alphabet) (operations : List Operation) :
    ∀ text : String, (written alphabet text operations).toList =
      text.toList ++ operations.map alphabet.symbol := by
  induction operations with
  | nil => intro text; exact (List.append_nil _).symm
  | cons operation rest ih =>
      intro text
      show (written alphabet (text.push (alphabet.symbol operation)) rest).toList = _
      rw [ih, String.toList_push, List.append_assoc, List.map_cons, List.singleton_append]

section Round

variable {σ : Type} [Chooser σ] {alphabet : Alphabet} {loops opened : Nat}
  {text drawn : String} {source middle rest : σ}

/-- A segment that is neither in a loop nor before one is the last. -/
theorem turn_ends (hLeft : 0 < Chooser.left source)
    (hSegment : drawSegment alphabet (fun _ _ => false) text source = some (drawn, rest)) :
    turn alphabet (fun _ _ => false) ⟨0, 0, text, source⟩ = .error (.written drawn rest) := by
  rw [turn, if_pos hLeft, hSegment]
  rfl

/-- A loop is opened after a segment, by force if none is open and by a toss otherwise. -/
theorem turn_opens (hLeft : 0 < Chooser.left source)
    (hSegment : drawSegment alphabet (fun _ _ => false) text source = some (drawn, middle))
    (hBracket : opened = 0 ∧ middle = rest ∨ opened ≠ 0 ∧ Chooser.toss middle = (false, rest)) :
    turn alphabet (fun _ _ => false) ⟨loops + 1, opened, text, source⟩ =
      .ok ⟨loops, opened + 1, drawn.push (alphabet.symbol .jumpIfZero), rest⟩ := by
  rw [turn, if_pos hLeft, hSegment]
  obtain ⟨rfl, rfl⟩ | ⟨hSome, hToss⟩ := hBracket
  · rfl
  · simp only [Stage.bracket, hSome, hToss]
    rfl

/-- A loop is closed after a segment, by force if none may be opened and by a toss otherwise. -/
theorem turn_closes (hLeft : 0 < Chooser.left source)
    (hSegment : drawSegment alphabet (fun _ _ => false) text source = some (drawn, middle))
    (hBracket : loops = 0 ∧ middle = rest ∨ loops ≠ 0 ∧ Chooser.toss middle = (true, rest)) :
    turn alphabet (fun _ _ => false) ⟨loops, opened + 1, text, source⟩ =
      .ok ⟨loops, opened, drawn.push (alphabet.symbol .jumpIfNonZero), rest⟩ := by
  rw [turn, if_pos hLeft, hSegment]
  obtain ⟨rfl, rfl⟩ | ⟨hSome, hToss⟩ := hBracket
  · rfl
  · simp only [Stage.bracket, hSome, hToss]
    rfl

/-- The rounds from a stage on come out with a text, given enough turns. -/
def Stage.Yields (alphabet : Alphabet) (stage : Stage σ) (text : String) : Prop :=
  ∀ turns : Nat, Chooser.left stage.source < turns →
    ∃ rest : σ, loop alphabet (fun _ _ => false) turns stage = some (.written text rest)

theorem Stage.yields_of_error {stage : Stage σ}
    (h : turn alphabet (fun _ _ => false) stage = .error (.written text rest)) :
    stage.Yields alphabet text := by
  intro turns hTurns
  cases turns with
  | zero => exact absurd hTurns (Nat.not_lt_zero _)
  | succ turns => exact ⟨rest, by rw [loop, h]⟩

/-- A round needs one turn, and leaves enough of them for the rounds after it. -/
theorem Stage.yields_of_ok {stage next : Stage σ}
    (h : turn alphabet (fun _ _ => false) stage = .ok next) (hNext : next.Yields alphabet text) :
    stage.Yields alphabet text := by
  intro turns hTurns
  have hLess := left_turn_lt h
  cases turns with
  | zero => exact absurd hTurns (Nat.not_lt_zero _)
  | succ turns =>
      obtain ⟨rest, hRest⟩ := hNext turns (by omega)
      refine ⟨rest, ?_⟩
      rw [loop, h]
      exact hRest

/-! ## Choices for a round -/

/-- Choices for a number of operations, with their cost in hand. -/
theorem exists_drawOperations_eq (hSupplies : Chooser.Supplies σ) (alphabet : Alphabet) (rest : σ)
    (run : List Operation) :
    ∀ text : String, (∀ operation ∈ run, operation.isJump = false) →
      ∃ source : σ, operationCost * run.length ≤ Chooser.left source ∧
        Chooser.left rest ≤ Chooser.left source ∧
        drawOperations alphabet (fun _ _ => false) run.length text source =
          some (written alphabet text run, rest) := by
  induction run with
  | nil =>
      intro text _
      exact ⟨rest, Nat.zero_le _, Nat.le_refl _, rfl⟩
  | cons operation run ih =>
      intro text hPlain
      obtain ⟨later, hCost, hMore, hAdded⟩ := ih (text.push (alphabet.symbol operation))
        fun other hOther => hPlain other (List.mem_cons_of_mem _ hOther)
      obtain ⟨source, hLeft, hDrawn⟩ :=
        hSupplies.operation operation later (hPlain operation List.mem_cons_self)
      refine ⟨source, ?_, by omega, ?_⟩
      · rw [List.length_cons, Nat.mul_succ]
        omega
      · rw [List.length_cons, drawOperations, hDrawn]
        exact hAdded

/-- Choices for a segment. -/
theorem exists_segment_eq (hSupplies : Chooser.Supplies σ) (alphabet : Alphabet)
    (run : List Operation) (hPlain : ∀ operation ∈ run, operation.isJump = false) (text : String)
    (rest : σ) :
    ∃ source : σ, Chooser.left rest < Chooser.left source ∧
      drawSegment alphabet (fun _ _ => false) text source =
        some (written alphabet text run, rest) := by
  obtain ⟨later, hCost, hMore, hAdded⟩ :=
    exists_drawOperations_eq hSupplies alphabet rest run text hPlain
  obtain ⟨source, hPos, hSize⟩ := hSupplies.size (operationCost * run.length) later hCost
  have hLess := Chooser.left_size_lt source hPos
  rw [hSize] at hLess
  refine ⟨source, Nat.lt_of_le_of_lt hMore hLess, ?_⟩
  have hCount : operationCost * run.length / operationCost = run.length :=
    Nat.mul_div_cancel_left _ (by decide)
  rw [drawSegment, hSize, if_neg Bool.false_ne_true]
  simp only [hCount, hAdded]

/-- Choices for a bracket: a toss, unless it is forced. -/
theorem exists_bracket_eq (hSupplies : Chooser.Supplies σ) (counter : Nat) (way : Bool) (rest : σ) :
    ∃ middle : σ, Chooser.left rest ≤ Chooser.left middle ∧
      (counter = 0 ∧ middle = rest ∨ counter ≠ 0 ∧ Chooser.toss middle = (way, rest)) := by
  by_cases hZero : counter = 0
  · exact ⟨rest, Nat.le_refl _, .inl ⟨hZero, rfl⟩⟩
  · obtain ⟨middle, hLess, hToss⟩ := hSupplies.toss way rest
    exact ⟨middle, Nat.le_of_lt hLess, .inr ⟨hZero, hToss⟩⟩

/-! ## Choices for all the rest -/

/--
Choices for what is still to be written: operations without a bracket that stand
before the rest, and the rest.
-/
theorem exists_yields (hSupplies : Chooser.Supplies σ) (state : σ) (alphabet : Alphabet)
    (rest : List Operation) :
    ∀ (run : List Operation) (loops opened : Nat) (text : String),
      (∀ operation ∈ run, operation.isJump = false) → Remaining loops opened rest →
        ∃ source : σ, loops < Chooser.left source ∧
          Stage.Yields alphabet ⟨loops, opened, text, source⟩
            (written alphabet text (run ++ rest)) := by
  induction rest with
  | nil =>
      intro run loops opened text hPlain hRemaining
      obtain ⟨rfl, rfl⟩ := hRemaining.nil
      obtain ⟨source, hLess, hSegment⟩ := exists_segment_eq hSupplies alphabet run hPlain text state
      refine ⟨source, Nat.zero_lt_of_lt hLess, ?_⟩
      rw [List.append_nil]
      exact Stage.yields_of_error (turn_ends (Nat.zero_lt_of_lt hLess) hSegment)
  | cons operation rest ih =>
      intro run loops opened text hPlain hRemaining
      obtain ⟨simple, rfl⟩ | rfl | rfl := operation.simple_or_jump
      · -- no bracket yet: the operation goes to those that stand before the rest
        have hLonger : ∀ operation ∈ run ++ [simple.operation], operation.isJump = false := by
          intro operation hOperation
          cases List.mem_append.1 hOperation with
          | inl hRun => exact hPlain operation hRun
          | inr hLast =>
              rw [List.mem_singleton.1 hLast]
              exact simple.isJump_operation
        rw [List.append_cons]
        exact ih (run ++ [simple.operation]) loops opened text hLonger hRemaining.simple
      · obtain ⟨fewer, rfl, hRest⟩ := hRemaining.opening
        obtain ⟨later, hLater, hText⟩ := ih [] fewer (opened + 1)
          ((written alphabet text run).push (alphabet.symbol .jumpIfZero)) nofun hRest
        obtain ⟨middle, hMiddle, hBracket⟩ := exists_bracket_eq hSupplies opened false later
        obtain ⟨source, hLess, hSegment⟩ :=
          exists_segment_eq hSupplies alphabet run hPlain text middle
        refine ⟨source, by omega, ?_⟩
        rw [written_append]
        exact Stage.yields_of_ok (turn_opens (Nat.zero_lt_of_lt hLess) hSegment hBracket) hText
      · obtain ⟨fewer, rfl, hRest⟩ := hRemaining.closing
        obtain ⟨later, hLater, hText⟩ := ih [] loops fewer
          ((written alphabet text run).push (alphabet.symbol .jumpIfNonZero)) nofun hRest
        obtain ⟨middle, hMiddle, hBracket⟩ := exists_bracket_eq hSupplies loops true later
        obtain ⟨source, hLess, hSegment⟩ :=
          exists_segment_eq hSupplies alphabet run hPlain text middle
        refine ⟨source, by omega, ?_⟩
        rw [written_append]
        exact Stage.yields_of_ok (turn_closes (Nat.zero_lt_of_lt hLess) hSegment hBracket) hText

/-- Whatever supplies all choices can be made to generate any nested sequence of operations. -/
theorem exists_nested_eq (hSupplies : Chooser.Supplies σ) (state : σ) (alphabet : Alphabet)
    {operations : List Operation} (hNested : Nested operations) :
    ∃ source : σ, (nested alphabet source).1 = written alphabet "" operations := by
  obtain ⟨later, hLater, hText⟩ := exists_yields hSupplies state alphabet operations []
    (openings operations) 0 "" nofun (Remaining.start hNested)
  obtain ⟨source, _, hSize⟩ := hSupplies.size (openings operations) later (Nat.le_of_lt hLater)
  obtain ⟨rest, hLoop⟩ := hText (Chooser.left later + 1) (Nat.lt_succ_self _)
  refine ⟨source, ?_⟩
  have hRounds := rounds_eq_nested alphabet source
  rw [rounds, hSize, if_neg Bool.false_ne_true] at hRounds
  dsimp only at hRounds
  rw [hLoop] at hRounds
  injection hRounds with hExit
  injection hExit with hWritten
  exact hWritten.symm

end Round

end Generate

/-- A text made of symbols is what its operations spell. -/
theorem Alphabet.map_symbol_recognise {alphabet : Alphabet} {text : List Char}
    (h : ∀ c ∈ text, ∃ operation : Operation, alphabet.symbol operation = c) :
    (alphabet.recognise text).map alphabet.symbol = text := by
  induction text with
  | nil => rfl
  | cons c rest ih =>
      obtain ⟨operation, hSymbol⟩ := h c List.mem_cons_self
      have hRest := ih fun other hOther => h other (List.mem_cons_of_mem _ hOther)
      rw [recognise_cons (lookup_eq_some_iff.2 hSymbol), List.map_cons, hSymbol, hRest]

open Generate in
/--
**The sources that can be generated from bytes are the well-nested ones, all of them.**
A text comes out of the generator for some buffer of bytes if and only if it is made of
symbols of the alphabet, no beginning of it closes more loops than it opens, and all
loops opened in it are closed.
-/
theorem generated_sources_are_the_nested (alphabet : Alphabet) (text : String) :
    (∃ bytes : List UInt8, (nested alphabet (⟨bytes⟩ : ByteSource)).1 = text) ↔
      (∀ c ∈ text.toList, ∃ operation : Operation, alphabet.symbol operation = c) ∧
        Nested (alphabet.recognise text.toList) := by
  constructor
  · rintro ⟨bytes, rfl⟩
    have hWell := wellNested_nested alphabet (⟨bytes⟩ : ByteSource)
    obtain ⟨program, hCompile, _⟩ := hWell.compiles
    obtain ⟨code, hCode, _⟩ := compile_eq_ok_iff.1 hCompile
    refine ⟨hWell.symbols, ?_⟩
    rw [hCode]
    exact code.nested_operations
  · rintro ⟨hSymbols, hNested⟩
    obtain ⟨source, hText⟩ := exists_nested_eq ByteSource.supplies ⟨[]⟩ alphabet hNested
    refine ⟨source.bytes, ?_⟩
    rw [hText, ← String.toList_inj, toList_written, Alphabet.map_symbol_recognise hSymbols]
    rfl

open Generate in
/-- A loop in a loop, with operations before, between and behind the brackets. -/
theorem generated_sources_are_the_nested_two_deep :
    ∃ bytes : List UInt8, (nested .zeroWidth (⟨bytes⟩ : ByteSource)).1 =
      "\u200d\u202b\u202b\u202c\u200e\u202c\u200f" := by
  rw [generated_sources_are_the_nested]
  constructor
  · have hSpelled : "\u200d\u202b\u202b\u202c\u200e\u202c\u200f".toList =
        [.increment, .jumpIfZero, .jumpIfZero, .jumpIfNonZero, .decrement, .jumpIfNonZero,
          .write].map Alphabet.zeroWidth.symbol := by rfl
    intro c hc
    rw [hSpelled, List.mem_map] at hc
    obtain ⟨operation, _, hSymbol⟩ := hc
    exact ⟨operation, hSymbol⟩
  · exact Code.nested_operations (.simple .increment
      (.loop (.loop .done (.simple .decrement .done)) (.simple .write .done)))

end TapeLang
