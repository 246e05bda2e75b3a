import TapeLang.Alphabet
import TapeLang.Generate.Chooser

/-!
# Well-nested sources

A source whose brackets always match. The generator draws a bound on the
number of loops first. Then it works in rounds, as long as there is anything
left to draw from: a segment of operations that are no jumps, then a bracket.
If both brackets are possible it draws which one; if no bracket is, it stops.
In the end it closes all loops that are still open.

It keeps two counters, of the loops that it may still open and of those that
are open, and every bracket takes from one of them; a counter that is at zero
then has run out. A draw may be refused, which ends the work without a text.
Which draws are refused is up to whoever supplies the choices, so it is a
parameter, and `nested` is the generator to which nothing is refused.

Like a run, the rounds are given a number of turns. They never need more turns
than there is left to draw from, and one to find nothing left.

## Main results

* `Generate.turns` — what a round can come to: no counter runs out in it.
* `Generate.left_turn_lt` — a round uses up some of the chooser.
* `Generate.exists_loop_eq_written` — if nothing is refused, a text comes out.
-/

namespace TapeLang.Generate

/-- The draws that the generator makes. -/
inductive Draw where
  /-- A size, of a segment or of the whole. -/
  | size
  /-- An operation that is no jump. -/
  | operation
  /-- One of the two brackets. -/
  | bracket
  deriving DecidableEq, Repr

/-- Where the generator stands before a round. -/
structure Stage (σ : Type) where
  /-- The number of loops that may still be opened. -/
  loops : Nat
  /-- The number of loops that are open. -/
  opened : Nat
  /-- The text so far. -/
  text : String
  /-- What choices are drawn from. -/
  source : σ

/-- How the generator comes to an end. -/
inductive Exit (σ : Type) where
  /-- With a text, and with what is left to draw from. -/
  | written (text : String) (source : σ)
  /-- Without a text, since a draw was refused. -/
  | refused
  /-- A counter was to go below zero. -/
  | exhausted

/-- The text that came out, and what is left to draw from. -/
def Exit.written? {σ : Type} : Exit σ → Option (String × σ)
  | .written text source => some (text, source)
  | .refused | .exhausted => none

/-- The amount that an operation takes. -/
def operationCost : Nat := 4

/-- Closes a number of loops. -/
def closeAll (alphabet : Alphabet) : Nat → String → String
  | 0, text => text
  | count + 1, text => closeAll alphabet count (text.push (alphabet.symbol .jumpIfNonZero))

section Brackets

variable {σ : Type} (alphabet : Alphabet) (stage : Stage σ)

/-- Opens a loop and takes it from those that may still be opened. -/
def Stage.opening : Except (Exit σ) (Stage σ) :=
  match stage.loops with
  | 0 => .error .exhausted
  | loops + 1 =>
    .ok ⟨loops, stage.opened + 1, stage.text.push (alphabet.symbol .jumpIfZero), stage.source⟩

/-- Closes a loop and takes it from those that are open. -/
def Stage.closing : Except (Exit σ) (Stage σ) :=
  match stage.opened with
  | 0 => .error .exhausted
  | opened + 1 =>
    .ok ⟨stage.loops, opened, stage.text.push (alphabet.symbol .jumpIfNonZero), stage.source⟩

end Brackets

/-! ## Rounds -/

section Rounds

variable {σ : Type} [Chooser σ] (alphabet : Alphabet) (refuses : Draw → σ → Bool)

/-- Draws an operation that is no jump. -/
def plainOperation (source : σ) : Operation × σ :=
  match Chooser.choose 6 (by decide) source with
  | (choice, source) => (.ofIndex (choice.castLE (by decide)), source)

/-- Adds the symbols of a number of operations that are no jumps, unless one is refused. -/
def drawOperations : Nat → String → σ → Option (String × σ)
  | 0, text, source => some (text, source)
  | count + 1, text, source =>
    if refuses .operation source then none
    else
      match plainOperation source with
      | (operation, source) =>
        drawOperations count (text.push (alphabet.symbol operation)) source

/-- Adds a segment of operations that are no jumps, of a size that is drawn. -/
def drawSegment (text : String) (source : σ) : Option (String × σ) :=
  if refuses .size source then none
  else
    match Chooser.size source with
    | (size, source) => drawOperations alphabet refuses (size / operationCost) text source

/-- Adds a bracket after a segment, or comes to the end if no bracket is possible. -/
def Stage.bracket (stage : Stage σ) : Except (Exit σ) (Stage σ) :=
  if stage.loops = 0 ∧ stage.opened = 0 then .error (.written stage.text stage.source)
  else if stage.loops = 0 then stage.closing alphabet
  else if stage.opened = 0 then stage.opening alphabet
  else if refuses .bracket stage.source then .error .refused
  else
    match Chooser.toss stage.source with
    | (true, source) => { stage with source := source }.closing alphabet
    | (false, source) => { stage with source := source }.opening alphabet

/-- One round: a segment and a bracket, as long as there is anything to draw from. -/
def turn (stage : Stage σ) : Except (Exit σ) (Stage σ) :=
  if 0 < Chooser.left stage.source then
    match drawSegment alphabet refuses stage.text stage.source with
    | none => .error .refused
    | some (text, source) =>
      Stage.bracket alphabet refuses ⟨stage.loops, stage.opened, text, source⟩
  else .error (.written (closeAll alphabet stage.opened stage.text) stage.source)

/-- Rounds up to the end, unless there are more of them than turns. -/
def loop : (turns : Nat) → Stage σ → Option (Exit σ)
  | 0, _ => none
  | turns + 1, stage =>
    match turn alphabet refuses stage with
    | .ok next => loop turns next
    | .error exit => some exit

/-- The whole generator: the bound on the number of loops is drawn, then the rounds are made. -/
def rounds (turns : Nat) (source : σ) : Option (Exit σ) :=
  if refuses .size source then some .refused
  else
    match Chooser.size source with
    | (loops, source) => loop alphabet refuses turns ⟨loops, 0, "", source⟩

/-! ## What a round can come to -/

/--
What a round can come to. A bracket is taken from a counter that is not zero,
so neither counter runs out.
-/
inductive Turns (stage : Stage σ) : Except (Exit σ) (Stage σ) → Prop where
  | usedUp (hLeft : ¬0 < Chooser.left stage.source) :
      Turns stage (.error (.written (closeAll alphabet stage.opened stage.text) stage.source))
  | refused {draw : Draw} {source : σ} (hRefused : refuses draw source = true) :
      Turns stage (.error .refused)
  | ends {text : String} {source : σ}
      (hSegment : drawSegment alphabet refuses stage.text stage.source = some (text, source))
      (hOpened : stage.opened = 0) : Turns stage (.error (.written text source))
  | opens {loops : Nat} {text : String} {middle source : σ}
      (hSegment : drawSegment alphabet refuses stage.text stage.source = some (text, middle))
      (hLoops : stage.loops = loops + 1)
      (hLeft : Chooser.left source < Chooser.left stage.source) :
      Turns stage
        (.ok ⟨loops, stage.opened + 1, text.push (alphabet.symbol .jumpIfZero), source⟩)
  | closes {opened : Nat} {text : String} {middle source : σ}
      (hSegment : drawSegment alphabet refuses stage.text stage.source = some (text, middle))
      (hOpened : stage.opened = opened + 1)
      (hLeft : Chooser.left source < Chooser.left stage.source) :
      Turns stage
        (.ok ⟨stage.loops, opened, text.push (alphabet.symbol .jumpIfNonZero), source⟩)

variable {alphabet refuses} {stage next : Stage σ}

theorem exists_refused_of_drawOperations (count : Nat) :
    ∀ {text : String} {source : σ}, drawOperations alphabet refuses count text source = none →
      ∃ (draw : Draw) (source : σ), refuses draw source = true := by
  induction count with
  | zero => intro text source h; cases h
  | succ count ih =>
      intro text source h
      rw [drawOperations] at h
      split at h
      · next hRefused => exact ⟨.operation, source, hRefused⟩
      · exact ih h

/-- A segment is missing only if a draw was refused. -/
theorem exists_refused_of_drawSegment {text : String} {source : σ}
    (h : drawSegment alphabet refuses text source = none) :
    ∃ (draw : Draw) (source : σ), refuses draw source = true := by
  rw [drawSegment] at h
  split at h
  · next hRefused => exact ⟨.size, source, hRefused⟩
  · exact exists_refused_of_drawOperations _ h

theorem left_drawOperations_le (count : Nat) {text' : String} {source' : σ} :
    ∀ {text : String} {source : σ},
      drawOperations alphabet refuses count text source = some (text', source') →
        Chooser.left source' ≤ Chooser.left source := by
  induction count with
  | zero =>
      intro text source h
      cases h
      exact Nat.le_refl _
  | succ count ih =>
      intro text source h
      rw [drawOperations] at h
      split at h
      · cases h
      · exact Nat.le_trans (ih h) (Chooser.left_choose_le 6 _ source)

theorem left_drawSegment_lt {text text' : String} {source source' : σ}
    (hLeft : 0 < Chooser.left source)
    (h : drawSegment alphabet refuses text source = some (text', source')) :
    Chooser.left source' < Chooser.left source := by
  rw [drawSegment] at h
  split at h
  · cases h
  · exact Nat.lt_of_le_of_lt (left_drawOperations_le _ h) (Chooser.left_size_lt source hLeft)

section Segment

variable {text : String} {middle source : σ}
  (hSegment : drawSegment alphabet refuses stage.text stage.source = some (text, middle))

include hSegment

theorem turns_opening (hLoops : stage.loops ≠ 0)
    (hLeft : Chooser.left source < Chooser.left stage.source) :
    Turns alphabet refuses stage
      (Stage.opening alphabet ⟨stage.loops, stage.opened, text, source⟩) := by
  obtain ⟨loops, hSucc⟩ := Nat.exists_eq_succ_of_ne_zero hLoops
  simp only [Stage.opening, hSucc]
  exact .opens hSegment hSucc hLeft

theorem turns_closing (hOpened : stage.opened ≠ 0)
    (hLeft : Chooser.left source < Chooser.left stage.source) :
    Turns alphabet refuses stage
      (Stage.closing alphabet ⟨stage.loops, stage.opened, text, source⟩) := by
  obtain ⟨opened, hSucc⟩ := Nat.exists_eq_succ_of_ne_zero hOpened
  simp only [Stage.closing, hSucc]
  exact .closes hSegment hSucc hLeft

/-- After a segment, the counters decide which brackets are possible. -/
theorem turns_bracket (hLeft : Chooser.left middle < Chooser.left stage.source) :
    Turns alphabet refuses stage
      (Stage.bracket alphabet refuses ⟨stage.loops, stage.opened, text, middle⟩) := by
  have hToss := Chooser.left_toss_le middle
  unfold Stage.bracket
  by_cases hLoops : stage.loops = 0
  · by_cases hOpened : stage.opened = 0
    · rw [if_pos ⟨hLoops, hOpened⟩]
      exact .ends hSegment hOpened
    · rw [if_neg fun hEnd => hOpened hEnd.2, if_pos hLoops]
      exact turns_closing hSegment hOpened hLeft
  · rw [if_neg fun hEnd => hLoops hEnd.1, if_neg hLoops]
    by_cases hOpened : stage.opened = 0
    · rw [if_pos hOpened]
      exact turns_opening hSegment hLoops hLeft
    · rw [if_neg hOpened]
      split
      · next hRefused => exact .refused hRefused
      · split
        · next source hTossed =>
            rw [hTossed] at hToss
            exact turns_closing hSegment hOpened (Nat.lt_of_le_of_lt hToss hLeft)
        · next source hTossed =>
            rw [hTossed] at hToss
            exact turns_opening hSegment hLoops (Nat.lt_of_le_of_lt hToss hLeft)

end Segment

/-- The cases are all there are. -/
theorem turns (stage : Stage σ) : Turns alphabet refuses stage (turn alphabet refuses stage) := by
  unfold turn
  by_cases hLeft : 0 < Chooser.left stage.source
  · rw [if_pos hLeft]
    split
    · next hNone =>
        obtain ⟨draw, source, hRefused⟩ := exists_refused_of_drawSegment hNone
        exact .refused hRefused
    · next text middle hSegment =>
        exact turns_bracket hSegment (left_drawSegment_lt hLeft hSegment)
  · rw [if_neg hLeft]
    exact .usedUp hLeft

/-! ## The rounds come to an end -/

/-- A round uses up some of the chooser. -/
theorem left_turn_lt (h : turn alphabet refuses stage = .ok next) :
    Chooser.left next.source < Chooser.left stage.source := by
  have hTurns : Turns alphabet refuses stage (turn alphabet refuses stage) := turns stage
  rw [h] at hTurns
  cases hTurns with
  | opens _ _ hLeft => exact hLeft
  | closes _ _ hLeft => exact hLeft

/-- There are no more rounds than there is left to draw from, and one to find nothing left. -/
theorem loop_ne_none (turns : Nat) :
    ∀ {stage : Stage σ}, Chooser.left stage.source < turns →
      loop alphabet refuses turns stage ≠ none := by
  induction turns with
  | zero => intro stage h; exact absurd h (Nat.not_lt_zero _)
  | succ turns ih =>
      intro stage h
      rw [loop]
      split
      · next next hTurn =>
          have hLess := left_turn_lt hTurn
          exact ih (by omega)
      · exact Option.some_ne_none _

/-- The rounds end as one of them does. -/
theorem exists_turn_of_loop (turns : Nat) {exit : Exit σ} :
    ∀ {stage : Stage σ}, loop alphabet refuses turns stage = some exit →
      ∃ last : Stage σ, turn alphabet refuses last = .error exit := by
  induction turns with
  | zero => intro stage h; cases h
  | succ turns ih =>
      intro stage h
      rw [loop] at h
      split at h
      · exact ih h
      · next hTurn =>
          cases h
          exact ⟨stage, hTurn⟩

/-- If nothing is refused, a text comes out. -/
theorem exists_loop_eq_written (alphabet : Alphabet) {turns : Nat} (stage : Stage σ)
    (h : Chooser.left stage.source < turns) :
    ∃ (text : String) (source : σ),
      loop alphabet (fun _ _ => false) turns stage = some (.written text source) := by
  obtain ⟨exit, hLoop⟩ := Option.ne_none_iff_exists'.1 (loop_ne_none turns h)
  obtain ⟨last, hTurn⟩ := exists_turn_of_loop turns hLoop
  have hTurns : Turns alphabet (fun _ _ => false) last (turn alphabet (fun _ _ => false) last) :=
    Generate.turns last
  rw [hTurn] at hTurns
  rw [hLoop]
  cases hTurns with
  | usedUp => exact ⟨_, _, rfl⟩
  | ends => exact ⟨_, _, rfl⟩
  | refused hRefused => cases hRefused

/-! ## The generator to which nothing is refused -/

theorem exists_rounds_eq_written (alphabet : Alphabet) (source : σ) :
    ∃ (text : String) (rest : σ),
      rounds alphabet (fun _ _ => false) (Chooser.left (Chooser.size source).2 + 1) source =
        some (.written text rest) :=
  exists_loop_eq_written alphabet ⟨(Chooser.size source).1, 0, "", (Chooser.size source).2⟩
    (Nat.lt_succ_self _)

theorem isSome_rounds (alphabet : Alphabet) (source : σ) :
    ((rounds alphabet (fun _ _ => false) (Chooser.left (Chooser.size source).2 + 1) source).bind
      Exit.written?).isSome = true := by
  obtain ⟨text, rest, hRounds⟩ := exists_rounds_eq_written alphabet source
  rw [hRounds]
  rfl

/-- A well-nested source. -/
def nested (alphabet : Alphabet) (source : σ) : String × σ :=
  ((rounds alphabet (fun _ _ => false) (Chooser.left (Chooser.size source).2 + 1) source).bind
    Exit.written?).get (isSome_rounds alphabet source)

/-- The source is what the rounds come out with. -/
theorem rounds_eq_nested (alphabet : Alphabet) (source : σ) :
    rounds alphabet (fun _ _ => false) (Chooser.left (Chooser.size source).2 + 1) source =
      some (.written (nested alphabet source).1 (nested alphabet source).2) := by
  obtain ⟨text, rest, hRounds⟩ := exists_rounds_eq_written alphabet source
  have hNested : nested alphabet source = (text, rest) := by
    apply Option.get_of_eq_some
    rw [hRounds]
    rfl
  rw [hRounds, hNested]

end Rounds

end TapeLang.Generate
