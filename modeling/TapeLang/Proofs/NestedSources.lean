import TapeLang.Generate.ByteSource
import TapeLang.Generate.Nested
import TapeLang.Proofs.ControlFlow
import TapeLang.Proofs.Diagnosis

/-!
# Generated sources are well nested

The generator of well-nested sources keeps two counters, of the loops that it may
still open and of those that are open, and it takes from one of them in every round.
Neither is ever taken from at zero, whatever is drawn and whatever is refused.

What carries the proof is that the text so far and the counters go together
(`Underway`): nothing in the text was closed too early, as many loops are open in it
as the one counter says, and it has opened as many as are missing from the other.
Each case of what a round can come to (`Turns`) keeps this or ends as it should, and
so do all the rounds together.

## Main results

* `Generate.Underway.push` — what one more symbol does to the counters.
* `Generate.inOrder_turn`, `Generate.inOrder_rounds` — what a round keeps, and all
  rounds together.
* `nested_sources_compile` — every generated source compiles.
-/

namespace TapeLang

namespace Generate

/-! ## The text and the counters -/

/--
A text on the way: it is made of symbols, closes nothing too early, leaves a number
of loops open, and of a number of loops in all it has left some for later.
-/
structure Underway (alphabet : Alphabet) (bound loops opened : Nat) (text : String) : Prop where
  symbols : ∀ c ∈ text.toList, ∃ operation : Operation, alphabet.symbol operation = c
  closings_le : ∀ start, start <+: alphabet.recognise text.toList →
    closings start ≤ openings start
  openings_eq : openings (alphabet.recognise text.toList) =
    closings (alphabet.recognise text.toList) + opened
  loops_eq : openings (alphabet.recognise text.toList) + loops = bound

/-- What a text made for a number of loops has to be. -/
structure WellNested (alphabet : Alphabet) (bound : Nat) (text : String) : Prop where
  symbols : ∀ c ∈ text.toList, ∃ operation : Operation, alphabet.symbol operation = c
  loops_le : alphabet.openingSymbols text.toList ≤ bound
  compiles : ∃ program : Program, compile alphabet text = .ok program ∧ program.AllJoined

namespace Underway

variable {alphabet : Alphabet} {bound loops opened : Nat} {text : String}

theorem start (alphabet : Alphabet) (bound : Nat) : Underway alphabet bound bound 0 "" where
  symbols := by
    intro c hc
    cases hc
  closings_le := by
    intro start hStart
    rw [List.prefix_nil.1 hStart]
    exact Nat.le_refl 0
  openings_eq := rfl
  loops_eq := Nat.zero_add bound

/-- One more symbol, with the counters moved as its operation asks. -/
theorem push (h : Underway alphabet bound loops opened text) {operation : Operation}
    {loops' opened' : Nat}
    (hOpened : openings [operation] + opened = closings [operation] + opened')
    (hLoops : openings [operation] + loops' = loops) :
    Underway alphabet bound loops' opened' (text.push (alphabet.symbol operation)) := by
  have hRead : alphabet.recognise (text.push (alphabet.symbol operation)).toList =
      alphabet.recognise text.toList ++ [operation] := by
    rw [String.toList_push, Alphabet.recognise_append,
      Alphabet.recognise_cons (alphabet.lookup_symbol operation)]
    rfl
  have hBefore := h.openings_eq
  have hBound := h.loops_eq
  have hCount : openings (alphabet.recognise text.toList ++ [operation]) =
      closings (alphabet.recognise text.toList ++ [operation]) + opened' := by
    rw [openings_append, closings_append]
    omega
  constructor
  case symbols =>
    intro c hc
    rw [String.toList_push, List.mem_append, List.mem_singleton] at hc
    cases hc with
    | inl hText => exact h.symbols c hText
    | inr hLast => exact ⟨operation, hLast.symm⟩
  case closings_le =>
    intro start hStart
    rw [hRead, List.prefix_concat_iff] at hStart
    cases hStart with
    | inl hWhole =>
        rw [hWhole]
        omega
    | inr hText => exact h.closings_le start hText
  case openings_eq => rw [hRead, hCount]
  case loops_eq =>
    rw [hRead, openings_append]
    omega

theorem plain (h : Underway alphabet bound loops opened text) {operation : Operation}
    (hPlain : operation.isJump = false) :
    Underway alphabet bound loops opened (text.push (alphabet.symbol operation)) := by
  apply h.push
  · cases operation with
    | jumpIfZero => cases hPlain
    | jumpIfNonZero => cases hPlain
    | _ => rfl
  · cases operation with
    | jumpIfZero => cases hPlain
    | jumpIfNonZero => cases hPlain
    | _ => exact Nat.zero_add loops

theorem opening (h : Underway alphabet bound (loops + 1) opened text) :
    Underway alphabet bound loops (opened + 1) (text.push (alphabet.symbol .jumpIfZero)) := by
  apply h.push
  · show 1 + opened = 0 + (opened + 1)
    omega
  · exact Nat.add_comm 1 loops

theorem closing (h : Underway alphabet bound loops (opened + 1) text) :
    Underway alphabet bound loops opened (text.push (alphabet.symbol .jumpIfNonZero)) := by
  apply h.push
  · show 0 + (opened + 1) = 1 + opened
    omega
  · exact Nat.zero_add loops

theorem closeAll (opened : Nat) :
    ∀ {text : String}, Underway alphabet bound loops opened text →
      Underway alphabet bound loops 0 (Generate.closeAll alphabet opened text) := by
  induction opened with
  | zero => intro text h; exact h
  | succ opened ih => intro text h; exact ih h.closing

/-- A text that leaves no loop open is a source that compiles. -/
theorem wellNested (h : Underway alphabet bound loops 0 text) :
    WellNested alphabet bound text := by
  have hNested : Nested (alphabet.recognise text.toList) := ⟨h.closings_le, h.openings_eq⟩
  obtain ⟨code, hCode⟩ := hNested.exists_code
  have hCompile : compile alphabet text = .ok code.program :=
    compile_eq_ok_iff.2 ⟨code, hCode.symm, rfl⟩
  have hBound := h.loops_eq
  rw [Alphabet.openings_recognise] at hBound
  exact ⟨h.symbols, by omega, code.program, hCompile, compile_allJoined hCompile⟩

end Underway

/-! ## What the rounds keep -/

section Rounds

variable {σ : Type} [Chooser σ] {alphabet : Alphabet} {refuses : Draw → σ → Bool}
  {stage : Stage σ} {bound : Nat}

/-- A round has left text and counters in order, or has ended as it should. -/
def InOrder (alphabet : Alphabet) (bound : Nat) : Except (Exit σ) (Stage σ) → Prop
  | .ok stage => Underway alphabet bound stage.loops stage.opened stage.text
  | .error (.written text _) => WellNested alphabet bound text
  | .error .refused => True
  | .error .exhausted => False

theorem isJump_plainOperation (source : σ) : (plainOperation source).1.isJump = false := by
  have hPlain : ∀ choice : Fin 6,
      (Operation.ofIndex (choice.castLE (by decide))).isJump = false := by decide
  exact hPlain _

theorem Underway.drawOperations {loops opened : Nat} {text' : String} {source' : σ} (count : Nat) :
    ∀ {text : String} {source : σ}, Underway alphabet bound loops opened text →
      drawOperations alphabet refuses count text source = some (text', source') →
        Underway alphabet bound loops opened text' := by
  induction count with
  | zero =>
      intro text source h hDrawn
      cases hDrawn
      exact h
  | succ count ih =>
      intro text source h hDrawn
      rw [Generate.drawOperations] at hDrawn
      split at hDrawn
      · cases hDrawn
      · exact ih (h.plain (isJump_plainOperation source)) hDrawn

theorem Underway.drawSegment {loops opened : Nat} {text text' : String} {source source' : σ}
    (h : Underway alphabet bound loops opened text)
    (hDrawn : drawSegment alphabet refuses text source = some (text', source')) :
    Underway alphabet bound loops opened text' := by
  rw [Generate.drawSegment] at hDrawn
  split at hDrawn
  · cases hDrawn
  · exact h.drawOperations _ hDrawn

/-- A round keeps all in order, or ends as it should. -/
theorem inOrder_turn (h : InOrder alphabet bound (.ok stage)) :
    InOrder alphabet bound (turn alphabet refuses stage) := by
  have hUnderway : Underway alphabet bound stage.loops stage.opened stage.text := h
  have hTurns : Turns alphabet refuses stage (turn alphabet refuses stage) := turns stage
  generalize turn alphabet refuses stage = result at hTurns
  cases hTurns with
  | usedUp => exact (hUnderway.closeAll stage.opened).wellNested
  | refused => trivial
  | ends hSegment hOpened =>
      rw [hOpened] at hUnderway
      exact (hUnderway.drawSegment hSegment).wellNested
  | opens hSegment hLoops =>
      rw [hLoops] at hUnderway
      exact (hUnderway.drawSegment hSegment).opening
  | closes hSegment hOpened =>
      rw [hOpened] at hUnderway
      exact (hUnderway.drawSegment hSegment).closing

/-- However many rounds are made, they end as they should. -/
theorem inOrder_loop (turns : Nat) :
    ∀ {stage : Stage σ} {exit : Exit σ}, InOrder alphabet bound (.ok stage) →
      loop alphabet refuses turns stage = some exit → InOrder alphabet bound (.error exit) := by
  induction turns with
  | zero => intro stage exit _ hLoop; cases hLoop
  | succ turns ih =>
      intro stage exit h hLoop
      have hTurn : InOrder alphabet bound (turn alphabet refuses stage) := inOrder_turn h
      rw [loop] at hLoop
      split at hLoop
      · next next hNext =>
          rw [hNext] at hTurn
          exact ih hTurn hLoop
      · next ended hEnded =>
          rw [hEnded] at hTurn
          cases hLoop
          exact hTurn

/-- The generator draws the bound on the number of loops, and then ends as it should. -/
theorem inOrder_rounds {turns : Nat} {source : σ} {exit : Exit σ}
    (h : rounds alphabet refuses turns source = some exit) :
    InOrder alphabet (Chooser.size source).1 (.error exit) := by
  have hStart : InOrder alphabet (Chooser.size source).1
      (.ok ⟨(Chooser.size source).1, 0, "", (Chooser.size source).2⟩) :=
    Underway.start alphabet (Chooser.size source).1
  rw [rounds] at h
  split at h
  · cases h
    trivial
  · exact inOrder_loop turns hStart h

/-- The source that comes out if nothing is refused is well nested. -/
theorem wellNested_nested (alphabet : Alphabet) (source : σ) :
    WellNested alphabet (Chooser.size source).1 (nested alphabet source).1 :=
  inOrder_rounds (rounds_eq_nested alphabet source)

end Rounds

end Generate

open Generate in
/--
**A generated source compiles, whatever is drawn.**  The rounds come to an end, there
being at most one more of them than there is left to draw from, and no counter is
ever taken from at zero, also if draws may be refused.  Whenever a text comes out it
is made of symbols of the alphabet, has no more loops than were drawn at first, and
compiles to a program in which every jump is joined with its partner.  If nothing is
refused, a text does come out, and it is the one of the generator.
-/
theorem nested_sources_compile {σ : Type} [Chooser σ] (alphabet : Alphabet) (source : σ) :
    (∀ refuses : Draw → σ → Bool,
      rounds alphabet refuses (Chooser.left (Chooser.size source).2 + 1) source ≠ none ∧
      ∀ (turns : Nat) (exit : Exit σ), rounds alphabet refuses turns source = some exit →
        exit ≠ .exhausted ∧
        ∀ (text : String) (rest : σ), exit = .written text rest →
          WellNested alphabet (Chooser.size source).1 text) ∧
    rounds alphabet (fun _ _ => false) (Chooser.left (Chooser.size source).2 + 1) source =
      some (.written (nested alphabet source).1 (nested alphabet source).2) ∧
    WellNested alphabet (Chooser.size source).1 (nested alphabet source).1 := by
  refine ⟨fun refuses => ⟨?_, fun turns exit hExit => ?_⟩, rounds_eq_nested alphabet source,
    wellNested_nested alphabet source⟩
  · rw [rounds]
    split
    · exact Option.some_ne_none _
    · exact loop_ne_none _ (Nat.lt_succ_self _)
  · have hOrder := inOrder_rounds hExit
    constructor
    · rintro rfl
      exact hOrder
    · rintro text rest rfl
      exact hOrder

open Generate in
/-- Eight bytes: the last one allows two loops, and a parity puts the second inside the first. -/
theorem nested_sources_compile_from_bytes :
    (nested .zeroWidth (⟨[0, 0, 0, 0x60, 0, 1, 4, 2]⟩ : ByteSource)).1 =
      "\u200d\u202b\u202b\u202c\u202c" ∧
    WellNested .zeroWidth 2 "\u200d\u202b\u202b\u202c\u202c" := by
  have hText : (nested .zeroWidth (⟨[0, 0, 0, 0x60, 0, 1, 4, 2]⟩ : ByteSource)).1 =
      "\u200d\u202b\u202b\u202c\u202c" := by decide +kernel
  have hNested := (nested_sources_compile .zeroWidth
    (⟨[0, 0, 0, 0x60, 0, 1, 4, 2]⟩ : ByteSource)).2.2
  rw [hText] at hNested
  exact ⟨hText, hNested⟩

end TapeLang
