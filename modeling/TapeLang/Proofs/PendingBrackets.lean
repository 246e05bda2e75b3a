import TapeLang.Proofs.Diagnosis

/-!
# The assembler between two characters

The assembler writes into instructions that it emitted long before: when a closing
symbol comes, the opening jump whose address lies on top of the stack gets its
target.  That this write is never out of range, and never hits anything but that
jump, rests on how the stack, the instructions and the source go together at every
moment.

`Assembler.Invariant` says how.  It is read off the description of such moments by
trees (`Assembler.Reached`), along its construction: a moment at which a loop is open
consists of the moment before the loop's symbol, the opening jump, and whole code
after it.  What is pending lies in the first two parts, and a linked pair lies within
the first or within the third, so it never encloses anything that is pending.

## Main results

* `Assembler.Reached.pending_lt`, `Assembler.Reached.jump_cases` — where pending
  brackets stand, and what the other jumps are.
* `Assembler.Scanned.invariant` — the invariant, whenever a text was taken in.
* `Assembler.Invariant.closesInnermost` — what closing a loop does to the instructions.
* `pending_brackets_stay_nested` — the invariant for every part of a source that has been
  read, and what a closing symbol does to it.
-/

namespace TapeLang

/-- Every jump of a layout is one of the two ends of a loop. -/
theorem Code.exists_loopAt_of_jump (code : Code) {base i : Nat} {jump : Instruction}
    (h : (code.instructions base)[i]? = some jump) (hJump : jump.operation.isJump = true) :
    ∃ (opening : Nat) (body : Code), code.LoopAt opening body ∧
      (i = opening ∨ i = opening + body.size + 1) := by
  obtain ⟨simple, hSimple⟩ | hOpening | hClosing := jump.operation.simple_or_jump
  · rw [hSimple, SimpleOperation.isJump_operation] at hJump
    cases hJump
  · obtain ⟨body, hBody⟩ := code.exists_loopAt_of_opening base i jump h hOpening
    exact ⟨i, body, hBody, .inl rfl⟩
  · obtain ⟨opening, body, hBody, hEnd⟩ := code.exists_loopAt_of_closing base i jump h hClosing
    exact ⟨opening, body, hBody, .inr hEnd⟩

namespace Assembler

/-! ## Linked pairs -/

/-- An opening jump and a later closing jump that name each other. -/
structure LinkedPair (instructions : List Instruction) (opening closing : Nat) : Prop where
  lt : opening < closing
  opens : instructions[opening]? = some ⟨.jumpIfZero, closing⟩
  closes : instructions[closing]? = some ⟨.jumpIfNonZero, opening⟩

theorem LinkedPair.lt_length {instructions : List Instruction} {opening closing : Nat}
    (h : LinkedPair instructions opening closing) : closing < instructions.length :=
  (List.getElem?_eq_some_iff.1 h.closes).1

/-- What comes later leaves a linked pair as it is. -/
theorem LinkedPair.append {instructions : List Instruction} {opening closing : Nat}
    (h : LinkedPair instructions opening closing) (more : List Instruction) :
    LinkedPair (instructions ++ more) opening closing where
  lt := h.lt
  opens := by
    rw [List.getElem?_append_left (Nat.lt_trans h.lt h.lt_length), h.opens]
  closes := by
    rw [List.getElem?_append_left h.lt_length, h.closes]

/-- A loop of code that stands behind other instructions is a linked pair. -/
theorem linkedPair_of_loopAt {code body : Code} {k : Nat} (h : code.LoopAt k body)
    (before : List Instruction) :
    LinkedPair (before ++ code.instructions before.length) (before.length + k)
      (before.length + (k + body.size + 1)) where
  lt := by omega
  opens := by
    rw [List.getElem?_append_right (Nat.le_add_right _ _), Nat.add_sub_cancel_left,
      h.opening before.length]
  closes := by
    rw [List.getElem?_append_right (Nat.le_add_right _ _), Nat.add_sub_cancel_left,
      h.closing before.length]

/-- Behind other instructions, a jump of code is one of the two ends of a linked pair. -/
theorem exists_linkedPair {code : Code} {before : List Instruction} {i : Nat} {jump : Instruction}
    (hi : before.length ≤ i)
    (h : (before ++ code.instructions before.length)[i]? = some jump)
    (hJump : jump.operation.isJump = true) :
    ∃ opening closing : Nat,
      LinkedPair (before ++ code.instructions before.length) opening closing ∧
        before.length ≤ opening ∧ (i = opening ∨ i = closing) := by
  rw [List.getElem?_append_right hi] at h
  obtain ⟨k, body, hBody, hEnd⟩ := code.exists_loopAt_of_jump h hJump
  exact ⟨_, _, linkedPair_of_loopAt hBody before, Nat.le_add_right _ _, by omega⟩

/-! ## Between two characters -/

section Reached

variable {alphabet : Alphabet} {text : List Char} {instructions : List Instruction}
  {pending : List OpenBracket}

/-- The instructions are those that the text spells. -/
theorem Reached.map_operation (h : Reached alphabet text instructions pending) :
    instructions.map Instruction.operation = alphabet.recognise text := by
  induction h with
  | @outermost text code h => rw [Code.map_operation_instructions, h]
  | @within before after symbol code instructions pending _ hSymbol hAfter ih =>
      rw [List.map_append, List.map_cons, Code.map_operation_instructions, ih,
        Alphabet.recognise_append, Alphabet.recognise_cons hSymbol, hAfter]

theorem Reached.length_recognise (h : Reached alphabet text instructions pending) :
    (alphabet.recognise text).length = instructions.length := by
  rw [← h.map_operation, List.length_map]

/-- What is pending was emitted and read before. -/
theorem Reached.pending_lt (h : Reached alphabet text instructions pending) :
    ∀ bracket ∈ pending,
      bracket.address < instructions.length ∧ bracket.start < byteLength text := by
  induction h with
  | outermost _ => intro bracket hBracket; cases hBracket
  | @within before after symbol code instructions pending _ _ _ ih =>
      intro bracket hBracket
      have hSize := symbol.utf8Size_pos
      rw [List.length_append, List.length_cons, byteLength_append, byteLength_cons]
      cases List.mem_cons.1 hBracket with
      | inl hInnermost =>
          rw [hInnermost]
          constructor <;> dsimp only <;> omega
      | inr hOuter =>
          have hLess := ih bracket hOuter
          omega

/-- Further in is further on, in the program and in the source. -/
theorem Reached.pairwise_pending (h : Reached alphabet text instructions pending) :
    pending.Pairwise fun inner outer =>
      outer.address < inner.address ∧ outer.start < inner.start := by
  induction h with
  | outermost _ => exact .nil
  | within hBefore _ _ ih => exact .cons hBefore.pending_lt ih

/-- A pending bracket has no target yet, and was emitted for the symbol at its start. -/
theorem Reached.pending_opens (h : Reached alphabet text instructions pending) :
    ∀ bracket ∈ pending, instructions[bracket.address]? = some ⟨.jumpIfZero, 0⟩ ∧
      ∃ before after : List Char, text = before ++ alphabet.symbol .jumpIfZero :: after ∧
        bracket.start = byteLength before ∧
        bracket.address = (alphabet.recognise before).length := by
  induction h with
  | outermost _ => intro bracket hBracket; cases hBracket
  | @within before after symbol code instructions pending hBefore hSymbol _ ih =>
      intro bracket hBracket
      cases List.mem_cons.1 hBracket with
      | inl hInnermost =>
          rw [hInnermost, ← Alphabet.lookup_eq_some_iff.1 hSymbol]
          refine ⟨?_, before, after, rfl, rfl, hBefore.length_recognise.symm⟩
          rw [List.getElem?_append_right (Nat.le_refl _), Nat.sub_self, List.getElem?_cons_zero]
      | inr hOuter =>
          obtain ⟨hOpens, earlier, later, hText, hStart, hAddress⟩ := ih bracket hOuter
          refine ⟨?_, earlier, later ++ symbol :: after, ?_, hStart, hAddress⟩
          · rw [List.getElem?_append_left (hBefore.pending_lt bracket hOuter).1, hOpens]
          · rw [hText, List.append_assoc, List.cons_append]

/--
A jump is pending, or it is an end of a linked pair that encloses nothing pending.
-/
theorem Reached.jump_cases (h : Reached alphabet text instructions pending) :
    ∀ (i : Nat) (jump : Instruction), instructions[i]? = some jump →
      jump.operation.isJump = true →
        (∃ bracket ∈ pending, bracket.address = i) ∨
        ∃ opening closing : Nat, LinkedPair instructions opening closing ∧
          (i = opening ∨ i = closing) ∧
          ∀ bracket ∈ pending, bracket.address < opening ∨ closing < bracket.address := by
  induction h with
  | @outermost text code _ =>
      intro i jump hAt hJump
      obtain ⟨opening, closing, hPair, _, hEnd⟩ :=
        @exists_linkedPair code [] i jump (Nat.zero_le i) hAt hJump
      exact .inr ⟨opening, closing, hPair, hEnd, nofun⟩
  | @within before after symbol code instructions pending hBefore _ _ ih =>
      intro i jump hAt hJump
      rcases Nat.lt_trichotomy i instructions.length with hLess | hEq | hGreater
      · -- before the innermost loop nothing has changed, and its opening jump comes later
        rw [List.getElem?_append_left hLess] at hAt
        obtain ⟨bracket, hBracket, hAddress⟩ | ⟨opening, closing, hPair, hEnd, hApart⟩ :=
          ih i jump hAt hJump
        · exact .inl ⟨bracket, List.mem_cons_of_mem _ hBracket, hAddress⟩
        · refine .inr ⟨opening, closing, hPair.append _, hEnd, ?_⟩
          intro bracket hBracket
          cases List.mem_cons.1 hBracket with
          | inl hInnermost =>
              rw [hInnermost]
              exact .inr hPair.lt_length
          | inr hOuter => exact hApart bracket hOuter
      · exact .inl ⟨_, List.mem_cons_self, hEq.symm⟩
      · -- behind its opening jump all is whole code, and nothing there is pending
        have hLength : (instructions ++ [(⟨.jumpIfZero, 0⟩ : Instruction)]).length =
            instructions.length + 1 := by
          rw [List.length_append, List.length_singleton]
        rw [List.append_cons, ← hLength] at hAt ⊢
        obtain ⟨opening, closing, hPair, hBehind, hEnd⟩ :=
          exists_linkedPair (by omega) hAt hJump
        refine .inr ⟨opening, closing, hPair, hEnd, ?_⟩
        intro bracket hBracket
        cases List.mem_cons.1 hBracket with
        | inl hInnermost =>
            rw [hInnermost]
            left
            dsimp only
            omega
        | inr hOuter =>
            have hLess := (hBefore.pending_lt bracket hOuter).1
            omega

end Reached

/-! ## The invariant -/

/--
How the stack, the instructions and the source go together when a text has been
taken in without an error.
-/
structure Invariant (alphabet : Alphabet) (text : List Char) (assembler : Assembler) : Prop where
  increasing : assembler.pending.Pairwise fun inner outer =>
    outer.address < inner.address ∧ outer.start < inner.start
  pending_lt : ∀ bracket ∈ assembler.pending, bracket.address < assembler.instructions.size
  pending_opens : ∀ bracket ∈ assembler.pending,
    assembler.instructions[bracket.address]? = some ⟨.jumpIfZero, 0⟩ ∧
      ∃ before after : List Char, text = before ++ alphabet.symbol .jumpIfZero :: after ∧
        bracket.start = byteLength before ∧
        bracket.address = (alphabet.recognise before).length
  others_linked : ∀ (i : Nat) (jump : Instruction), assembler.instructions[i]? = some jump →
    jump.operation.isJump = true → (∀ bracket ∈ assembler.pending, bracket.address ≠ i) →
      ∃ opening closing : Nat, LinkedPair assembler.instructions.toList opening closing ∧
        (i = opening ∨ i = closing) ∧
        ∀ bracket ∈ assembler.pending, bracket.address < opening ∨ closing < bracket.address
  depth : alphabet.openingSymbols text =
    alphabet.closingSymbols text + assembler.pending.length

variable {alphabet : Alphabet}

theorem Scanned.invariant {text : List Char} {assembler : Assembler}
    (h : Scanned alphabet text assembler) : Invariant alphabet text assembler where
  increasing := h.pairwise_pending
  pending_lt := by
    intro bracket hBracket
    exact (h.pending_lt bracket hBracket).1
  pending_opens := by
    intro bracket hBracket
    rw [← Array.getElem?_toList]
    exact h.pending_opens bracket hBracket
  others_linked := by
    intro i jump hAt hJump hOther
    rw [← Array.getElem?_toList] at hAt
    cases h.jump_cases i jump hAt hJump with
    | inl hPending =>
        obtain ⟨bracket, hBracket, hAddress⟩ := hPending
        exact absurd hAddress (hOther bracket hBracket)
    | inr hLinked => exact hLinked
  depth := by
    rw [← Alphabet.openings_recognise, ← Alphabet.closings_recognise]
    exact h.openings_eq

/-! ## What is read goes on from what was read -/

theorem absorb_append {first second : List Char} :
    ∀ {before : List Char} {assembler next : Assembler},
      absorb alphabet assembler (byteLength before) first = (.ok (), next) →
        absorb alphabet assembler (byteLength before) (first ++ second) =
          absorb alphabet next (byteLength (before ++ first)) second := by
  induction first with
  | nil =>
      intro before assembler next h
      cases h
      rw [List.nil_append, List.append_nil]
  | cons c first ih =>
      intro before assembler next h
      rw [absorb, ← byteLength_concat] at h
      rw [List.cons_append, absorb, List.append_cons, ← byteLength_concat]
      split at h
      · exact ih h
      · split at h
        · exact ih h
        · cases (Prod.mk.inj h).1

/-! ## Closing a loop -/

/-- The instructions after a loop was closed: one more, and one with a new target. -/
theorem getElem?_closeLoop (instructions : Array Instruction) (bracket : OpenBracket)
    (pending : List OpenBracket) (i : Nat) :
    (closeLoop instructions bracket pending).instructions[i]? =
      if bracket.address = i then
        (instructions.push ⟨.jumpIfNonZero, bracket.address⟩)[i]?.map fun jump =>
          { jump with target := instructions.size }
      else (instructions.push ⟨.jumpIfNonZero, bracket.address⟩)[i]? := by
  rw [closeLoop, Array.getElem?_modify]

/--
From one state to the next the bracket on top of the stack is closed: within the range
of the instructions its target is written, a closing jump is added that names it, and
everything else stays as it was.
-/
structure ClosesInnermost (state : Assembler) (bracket : OpenBracket) (next : Assembler) :
    Prop where
  in_range : bracket.address < state.instructions.size
  without_target : state.instructions[bracket.address]? = some ⟨.jumpIfZero, 0⟩
  pending_eq : state.pending = bracket :: next.pending
  size_eq : next.instructions.size = state.instructions.size + 1
  opens : next.instructions[bracket.address]? = some ⟨.jumpIfZero, state.instructions.size⟩
  closes : next.instructions[state.instructions.size]? =
    some ⟨.jumpIfNonZero, bracket.address⟩
  others_eq : ∀ i : Nat, i < state.instructions.size → i ≠ bracket.address →
    next.instructions[i]? = state.instructions[i]?

theorem Invariant.closesInnermost {text : List Char} {state : Assembler} {bracket : OpenBracket}
    {pending : List OpenBracket} (h : Invariant alphabet text state)
    (hPending : state.pending = bracket :: pending) :
    ClosesInnermost state bracket (closeLoop state.instructions bracket pending) := by
  have hTop : bracket ∈ state.pending := by
    rw [hPending]
    exact List.mem_cons_self
  have hLess := h.pending_lt bracket hTop
  have hOpens := (h.pending_opens bracket hTop).1
  constructor
  case in_range => exact hLess
  case without_target => exact hOpens
  case pending_eq => exact hPending
  case size_eq => simp [closeLoop]
  case opens =>
    rw [getElem?_closeLoop, if_pos rfl, Array.getElem?_push, if_neg (Nat.ne_of_lt hLess), hOpens]
    rfl
  case closes =>
    rw [getElem?_closeLoop, if_neg (Nat.ne_of_lt hLess), Array.getElem?_push_size]
  case others_eq =>
    intro i hi hNe
    rw [getElem?_closeLoop, if_neg hNe.symm, Array.getElem?_push, if_neg (Nat.ne_of_lt hi)]

theorem feed_closing {state : Assembler} {bracket : OpenBracket} {pending : List OpenBracket}
    (hPending : state.pending = bracket :: pending) (start : Nat) :
    state.feed .jumpIfNonZero start = (.ok (), closeLoop state.instructions bracket pending) := by
  cases state
  cases hPending
  rfl

end Assembler

open Assembler in
/--
**What is pending stays nested, whatever has been read.**  Take any part of a source
from its beginning that the assembler takes in without an error.  Then the pending
brackets, from the bottom of the stack to its top, stand at increasing addresses and
offsets; each is an opening jump without a target that was emitted for the opening
symbol at its offset; every other jump is linked with a partner that has been emitted,
and nothing pending lies between the two; and as many are pending as were opened and
not closed.  The assembler goes on from there with the rest of the source.  A closing
symbol, if anything is pending, then writes within the range of the instructions, and
all it changes in them is the target of the innermost pending jump.
-/
theorem pending_brackets_stay_nested (alphabet : Alphabet) (assembler : Assembler)
    (source : String) (text rest : List Char) (hSource : source.toList = text ++ rest)
    (state : Assembler) (hRead : absorb alphabet assembler.reset 0 text = (.ok (), state)) :
    Invariant alphabet text state ∧
    absorb alphabet assembler.reset 0 source.toList =
      absorb alphabet state (byteLength text) rest ∧
    ∀ (bracket : OpenBracket) (pending : List OpenBracket), state.pending = bracket :: pending →
      ∃ next : Assembler, state.feed .jumpIfNonZero (byteLength text) = (.ok (), next) ∧
        ClosesInnermost state bracket next := by
  have hInvariant : Invariant alphabet text state := by
    have hScanned := Scanned.absorb text scanned_empty hRead
    rw [List.nil_append] at hScanned
    exact hScanned.invariant
  refine ⟨hInvariant, ?_, ?_⟩
  · rw [hSource, ← byteLength_nil, absorb_append hRead, List.nil_append]
  · intro bracket pending hPending
    exact ⟨_, feed_closing hPending _, hInvariant.closesInnermost hPending⟩

open Assembler in
/-- One loop is closed, and the loops around it and behind it are open: no open one lies in it. -/
theorem pending_brackets_stay_nested_around_loop :
    absorb .ascii Assembler.empty.reset 0 "[é[]+[".toList = (.ok (),
      ⟨#[⟨.jumpIfZero, 0⟩, ⟨.jumpIfZero, 2⟩, ⟨.jumpIfNonZero, 1⟩, ⟨.increment, 0⟩,
        ⟨.jumpIfZero, 0⟩], [⟨4, 6⟩, ⟨0, 0⟩]⟩) ∧
    ∃ opening closing : Nat,
      LinkedPair [⟨.jumpIfZero, 0⟩, ⟨.jumpIfZero, 2⟩, ⟨.jumpIfNonZero, 1⟩, ⟨.increment, 0⟩,
        ⟨.jumpIfZero, 0⟩] opening closing ∧ (1 = opening ∨ 1 = closing) ∧
        ∀ bracket ∈ [(⟨4, 6⟩ : OpenBracket), ⟨0, 0⟩],
          bracket.address < opening ∨ closing < bracket.address := by
  have hRead : absorb .ascii Assembler.empty.reset 0 "[é[]+[".toList = (.ok (),
      ⟨#[⟨.jumpIfZero, 0⟩, ⟨.jumpIfZero, 2⟩, ⟨.jumpIfNonZero, 1⟩, ⟨.increment, 0⟩,
        ⟨.jumpIfZero, 0⟩], [⟨4, 6⟩, ⟨0, 0⟩]⟩) := by rfl
  have hInvariant := (pending_brackets_stay_nested .ascii .empty "[é[]+[]]" "[é[]+[".toList
    "]]".toList rfl _ hRead).1
  exact ⟨hRead, hInvariant.others_linked 1 ⟨.jumpIfZero, 2⟩ rfl rfl (by decide)⟩

end TapeLang
