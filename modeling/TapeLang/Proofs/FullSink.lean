import TapeLang.Proofs.ListedProgram
import TapeLang.Proofs.Requests
import TapeLang.Stream.Sink

/-!
# Writing where there is no room

A sink takes a number of bytes and no more.  A text goes to it in pieces, a piece in
calls that each take some bytes, and the end of the room may fall anywhere: in a number,
between two tabs, within a symbol of several bytes, before the end of a line.  None of
this can be seen afterwards.  How much room there was and what the whole text is settle
what the sink holds and how the writing came out (`Filled`), and this passes from calls
to pieces and from pieces to texts.

A program is shown while its instructions are gone through, and the lines that an
instruction adds are written before the next one is looked at.  Since lines are only
added at the end, that is the same as to make the whole layout first and write it then.

## Main results

* `BoundedSink.fills_writeAll` — what a sink holds after pieces of text.
* `BoundedSink.takesAll_iff` — and so it is call by call, however the text is cut.
* `Program.emitListing_eq`, `Program.emitSource_eq` — writing along the way.
* `full_sink_holds_prefix` — both texts on a sink that is too small.
-/

namespace TapeLang

/-! ## What is held in the end -/

/-- The bytes of a text. -/
def textBytes (text : String) : List UInt8 := text.toUTF8.data.toList

@[simp] theorem textBytes_join_cons (piece : String) (rest : List String) :
    textBytes (String.join (piece :: rest)) = textBytes piece ++ textBytes (String.join rest) := by
  simp [textBytes, String.join_cons]

/--
Bytes were offered where there was room for a number of them.  All were taken if there
was room for all, and otherwise as many as there was room for, and then it failed.
-/
structure Filled (room : Nat) (error : StreamError) (bytes : List UInt8)
    (outcome : Except StreamError Unit) (held : List UInt8) : Prop where
  ok_iff : outcome = .ok () ↔ bytes.length ≤ room
  of_ok : outcome = .ok () → held = bytes
  of_not_ok : outcome ≠ .ok () → outcome = .error error ∧ held = bytes.take room

namespace Filled

variable {room : Nat} {error : StreamError} {bytes first second held : List UInt8}
  {outcome : Except StreamError Unit}

theorem of_le (h : bytes.length ≤ room) : Filled room error bytes (.ok ()) bytes :=
  ⟨⟨fun _ => h, fun _ => rfl⟩, fun _ => rfl, fun hNot => absurd rfl hNot⟩

theorem of_lt (h : room < bytes.length) :
    Filled room error bytes (.error error) (bytes.take room) where
  ok_iff := by
    constructor
    · intro hOk
      cases hOk
    · intro hLe
      omega
  of_ok hOk := by cases hOk
  of_not_ok _ := ⟨rfl, rfl⟩

/-- There are two ways in which it can come out. -/
theorem cases (h : Filled room error bytes outcome held) :
    (bytes.length ≤ room ∧ outcome = .ok () ∧ held = bytes) ∨
      (room < bytes.length ∧ outcome = .error error ∧ held = bytes.take room) := by
  by_cases hRoom : bytes.length ≤ room
  · have hOk := h.ok_iff.2 hRoom
    exact .inl ⟨hRoom, hOk, h.of_ok hOk⟩
  · have hNot : outcome ≠ .ok () := fun hOk => hRoom (h.ok_iff.1 hOk)
    exact .inr ⟨by omega, h.of_not_ok hNot⟩

/-- What was taken leaves less room for what comes after it. -/
theorem append (h : Filled room error first (.ok ()) first)
    (h' : Filled (room - first.length) error second outcome held) :
    Filled room error (first ++ second) outcome (first ++ held) := by
  have hFirst := h.ok_iff.1 rfl
  obtain ⟨hLe, rfl, rfl⟩ | ⟨hLt, rfl, rfl⟩ := h'.cases
  · apply of_le
    rw [List.length_append]
    omega
  · have hTake : first ++ second.take (room - first.length) = (first ++ second).take room := by
      rw [List.take_append, List.take_of_length_le hFirst]
    rw [hTake]
    apply of_lt
    rw [List.length_append]
    omega

/-- What comes after a failure is not tried. -/
theorem stop (h : Filled room error first outcome held) (hNot : outcome ≠ .ok ()) :
    Filled room error (first ++ second) outcome held := by
  obtain ⟨_, rfl, _⟩ | ⟨hLt, rfl, rfl⟩ := h.cases
  · exact absurd rfl hNot
  · have hTake : first.take room = (first ++ second).take room :=
      (List.take_append_of_le_length (by omega)).symm
    rw [hTake]
    apply of_lt
    rw [List.length_append]
    omega

end Filled

/-! ## A sink and the pieces it is given -/

namespace BoundedSink

variable {sink after : BoundedSink} {bytes first second : List UInt8}
  {outcome : Except StreamError Unit}

/-- The number of bytes that a sink can still take. -/
def room (sink : BoundedSink) : Nat := sink.capacity - sink.accepted.size

/-- The sink with more bytes. -/
def hold (sink : BoundedSink) (bytes : List UInt8) : BoundedSink :=
  { sink with accepted := sink.accepted ++ bytes.toArray }

/-- Bytes were offered to a sink, which has taken what it had room for. -/
def Fills (bytes : List UInt8) (sink : BoundedSink) (outcome : Except StreamError Unit)
    (after : BoundedSink) : Prop :=
  ∃ held : List UInt8, after = sink.hold held ∧ Filled sink.room sink.refusal bytes outcome held

theorem room_hold (sink : BoundedSink) (bytes : List UInt8) :
    (sink.hold bytes).room = sink.room - bytes.length := by
  simp [room, hold, Nat.sub_sub]

theorem hold_append (sink : BoundedSink) (first second : List UInt8) :
    (sink.hold first).hold second = sink.hold (first ++ second) := by
  simp [hold]

@[simp] theorem hold_nil (sink : BoundedSink) : sink.hold [] = sink := by
  simp [hold]

theorem fills_nil (sink : BoundedSink) : Fills [] sink (.ok ()) sink :=
  ⟨[], sink.hold_nil.symm, .of_le (Nat.zero_le _)⟩

/-- Bytes for which there is room are taken, and the others are offered then. -/
theorem fills_hold (hRoom : first.length ≤ sink.room)
    (h : Fills second (sink.hold first) outcome after) :
    Fills (first ++ second) sink outcome after := by
  obtain ⟨held, rfl, hFilled⟩ := h
  rw [room_hold] at hFilled
  exact ⟨first ++ held, sink.hold_append first held, (Filled.of_le hRoom).append hFilled⟩

theorem Fills.append {middle : BoundedSink} (h : Fills first sink (.ok ()) middle)
    (h' : Fills second middle outcome after) : Fills (first ++ second) sink outcome after := by
  obtain ⟨held, rfl, hFilled⟩ := h
  obtain rfl : held = first := hFilled.of_ok rfl
  exact fills_hold (hFilled.ok_iff.1 rfl) h'

theorem Fills.stop {error : StreamError} (h : Fills first sink (.error error) after)
    (second : List UInt8) : Fills (first ++ second) sink (.error error) after := by
  obtain ⟨held, rfl, hFilled⟩ := h
  exact ⟨held, rfl, hFilled.stop (by simp)⟩

/-- How it comes out is settled. -/
theorem Fills.unique {outcome' : Except StreamError Unit} {after' : BoundedSink}
    (h : Fills bytes sink outcome after) (h' : Fills bytes sink outcome' after') :
    outcome = outcome' ∧ after = after' := by
  obtain ⟨held, rfl, hFilled⟩ := h
  obtain ⟨held', rfl, hFilled'⟩ := h'
  obtain ⟨hLe, rfl, rfl⟩ | ⟨hLt, rfl, rfl⟩ := hFilled.cases
  · obtain ⟨_, rfl, rfl⟩ | ⟨hLt, _, _⟩ := hFilled'.cases
    · exact ⟨rfl, rfl⟩
    · omega
  · obtain ⟨hLe, _, _⟩ | ⟨_, rfl, rfl⟩ := hFilled'.cases
    · omega
    · exact ⟨rfl, rfl⟩

theorem fills_write (piece : String) (sink : BoundedSink) :
    Fills (textBytes piece) sink (sink.write piece).1 (sink.write piece).2 := by
  obtain ⟨capacity, refusal, accepted⟩ := sink
  rw [write]
  split
  · next hRoom =>
      exact ⟨textBytes piece, by simp [hold, textBytes], .of_le hRoom⟩
  · next hRoom =>
      have hTake : piece.toUTF8.data.take (capacity - accepted.size) =
          ((textBytes piece).take (capacity - accepted.size)).toArray := by
        apply Array.toList_inj.1
        simp [textBytes]
      refine ⟨_, ?_, .of_lt (Nat.lt_of_not_le hRoom)⟩
      show BoundedSink.mk _ _ (accepted ++ piece.toUTF8.data.take _) = _
      rw [hTake]
      rfl

/-- Pieces that are written are offered one after the other. -/
theorem fills_writeAll (pieces : List String) :
    ∀ sink : BoundedSink, Fills (textBytes (String.join pieces)) sink
      (Sink.writeAll pieces sink).1 (Sink.writeAll pieces sink).2 := by
  induction pieces with
  | nil => intro sink; exact sink.fills_nil
  | cons piece rest ih =>
      intro sink
      have hPiece : Fills (textBytes piece) sink (Sink.write piece sink).1
          (Sink.write piece sink).2 := sink.fills_write piece
      rw [textBytes_join_cons, Sink.writeAll]
      generalize Sink.write piece sink = written at hPiece
      obtain ⟨error | _, middle⟩ := written
      · exact hPiece.stop _
      · exact hPiece.append (ih middle)

/-! ## Call by call -/

/--
A request to write bytes, call by call.  A call takes some of the bytes that are left, as
far as there is room.  Where there is none it meets the fault, and that ends the request,
unless the call was only interrupted.
-/
inductive Takes (fault : WriteFault) :
    List UInt8 → BoundedSink → Except StreamError Unit → BoundedSink → Prop where
  | done {sink : BoundedSink} : Takes fault [] sink (.ok ()) sink
  | call {first rest : List UInt8} {sink after : BoundedSink} {outcome : Except StreamError Unit}
      (hFirst : first ≠ []) (hRoom : first.length ≤ sink.room)
      (hRest : Takes fault rest (sink.hold first) outcome after) :
      Takes fault (first ++ rest) sink outcome after
  | refused {bytes : List UInt8} {sink : BoundedSink} (hBytes : bytes ≠ []) (hFull : sink.room = 0)
      (hFault : fault.error.kind ≠ .interrupted) : Takes fault bytes sink (.error fault.error) sink

/-- Pieces of text that are written by such requests, up to the first that fails. -/
inductive TakesAll (fault : WriteFault) :
    List String → BoundedSink → Except StreamError Unit → BoundedSink → Prop where
  | done {sink : BoundedSink} : TakesAll fault [] sink (.ok ()) sink
  | piece {piece : String} {rest : List String} {sink middle after : BoundedSink}
      {outcome : Except StreamError Unit}
      (hPiece : Takes fault (textBytes piece) sink (.ok ()) middle)
      (hRest : TakesAll fault rest middle outcome after) :
      TakesAll fault (piece :: rest) sink outcome after
  | stop {piece : String} {rest : List String} {sink after : BoundedSink} {error : StreamError}
      (hPiece : Takes fault (textBytes piece) sink (.error error) after) :
      TakesAll fault (piece :: rest) sink (.error error) after

variable {fault : WriteFault} {pieces : List String}

theorem Takes.fills (h : Takes fault bytes sink outcome after)
    (hRefusal : sink.refusal = fault.error) : Fills bytes sink outcome after := by
  induction h with
  | @done sink => exact sink.fills_nil
  | call _ hRoom _ ih => exact fills_hold hRoom (ih hRefusal)
  | @refused bytes sink hBytes hFull _ =>
      have hLess : sink.room < bytes.length := by
        rw [hFull]
        exact List.length_pos_iff.2 hBytes
      rw [← hRefusal]
      refine ⟨bytes.take sink.room, ?_, .of_lt hLess⟩
      rw [hFull, List.take_zero, hold_nil]

theorem takes_hold (hRoom : first.length ≤ sink.room)
    (h : Takes fault second (sink.hold first) outcome after) :
    Takes fault (first ++ second) sink outcome after := by
  by_cases hFirst : first = []
  · rw [hFirst, hold_nil] at h
    rw [hFirst]
    exact h
  · exact .call hFirst hRoom h

/-- A request comes to an end, since a fault that is no interruption ends it. -/
theorem exists_takes (bytes : List UInt8) (sink : BoundedSink)
    (hFault : fault.error.kind ≠ .interrupted) :
    ∃ (outcome : Except StreamError Unit) (after : BoundedSink),
      Takes fault bytes sink outcome after := by
  have hTaken : (bytes.take sink.room).length ≤ sink.room := List.length_take_le _ _
  rw [← List.take_append_drop sink.room bytes]
  by_cases hRoom : bytes.length ≤ sink.room
  · refine ⟨.ok (), sink.hold (bytes.take sink.room), takes_hold hTaken ?_⟩
    rw [List.drop_eq_nil_of_le hRoom]
    exact .done
  · refine ⟨.error fault.error, _, takes_hold hTaken (.refused ?_ ?_ hFault)⟩
    · intro hNil
      have hLength := List.drop_eq_nil_iff.1 hNil
      omega
    · rw [room_hold, List.length_take]
      omega

theorem Takes.refusal (h : Takes fault bytes sink outcome after) :
    after.refusal = sink.refusal := by
  induction h with
  | done => rfl
  | call _ _ _ ih => exact ih
  | refused => rfl

theorem TakesAll.fills (h : TakesAll fault pieces sink outcome after)
    (hRefusal : sink.refusal = fault.error) :
    Fills (textBytes (String.join pieces)) sink outcome after := by
  induction h with
  | @done sink => exact sink.fills_nil
  | piece hPiece _ ih =>
      rw [textBytes_join_cons]
      exact (hPiece.fills hRefusal).append (ih (hPiece.refusal.trans hRefusal))
  | stop hPiece =>
      rw [textBytes_join_cons]
      exact (hPiece.fills hRefusal).stop _

theorem exists_takesAll (pieces : List String) (hFault : fault.error.kind ≠ .interrupted) :
    ∀ sink : BoundedSink, ∃ (outcome : Except StreamError Unit) (after : BoundedSink),
      TakesAll fault pieces sink outcome after := by
  induction pieces with
  | nil => intro sink; exact ⟨_, sink, .done⟩
  | cons piece rest ih =>
      intro sink
      obtain ⟨error | _, middle, hPiece⟩ := exists_takes (textBytes piece) sink hFault
      · exact ⟨_, middle, .stop hPiece⟩
      · obtain ⟨outcome, after, hRest⟩ := ih middle
        exact ⟨outcome, after, .piece hPiece hRest⟩

/-- However a text is cut and whatever each call takes, it comes out as for its pieces. -/
theorem takesAll_iff (hRefusal : sink.refusal = fault.error)
    (hFault : fault.error.kind ≠ .interrupted) {cut : List String}
    (hCut : String.join cut = String.join pieces) :
    TakesAll fault cut sink outcome after ↔ Sink.writeAll pieces sink = (outcome, after) := by
  have hPieces := fills_writeAll pieces sink
  rw [← hCut] at hPieces
  constructor
  · intro h
    obtain ⟨hOutcome, hAfter⟩ := hPieces.unique (h.fills hRefusal)
    exact Prod.ext hOutcome hAfter
  · intro h
    obtain ⟨outcome', after', hTakes⟩ := exists_takesAll cut hFault sink
    obtain ⟨hOutcome, hAfter⟩ := hPieces.unique (hTakes.fills hRefusal)
    rw [h] at hOutcome hAfter
    obtain ⟨rfl, rfl⟩ : outcome = outcome' ∧ after = after' := ⟨hOutcome, hAfter⟩
    exact hTakes

end BoundedSink

/-! ## Writing along the way -/

section Emission

variable {σ τ : Type} [Sink σ]

/-- Where one list of pieces could be written, another is written after it. -/
theorem Sink.writeAll_append (first second : List String) :
    ∀ sink : σ, writeAll (first ++ second) sink =
      match writeAll first sink with
      | (.ok (), sink) => writeAll second sink
      | (.error error, sink) => (.error error, sink) := by
  induction first with
  | nil => intro sink; rfl
  | cons piece rest ih =>
      intro sink
      rw [List.cons_append, writeAll, writeAll]
      rcases write piece sink with ⟨error | _, middle⟩
      · rfl
      · exact ih middle

/-- The pieces of the lines that a layout has more than an earlier one. -/
def Layout.newPieces (earlier later : Layout) : List String :=
  (later.lines.toList.drop earlier.lines.size).flatMap Line.pieces

/-- A layout goes on from an earlier one. -/
def Layout.Continues (earlier later : Layout) : Prop := earlier.lines.toList <+: later.lines.toList

theorem Layout.newPieces_self (layout : Layout) : layout.newPieces layout = [] := by
  rw [newPieces, ← Array.length_toList, List.drop_length, List.flatMap_nil]

theorem Layout.newPieces_append {first second third : Layout} (h : first.Continues second)
    (h' : second.Continues third) :
    first.newPieces third = first.newPieces second ++ second.newPieces third := by
  obtain ⟨more, hMore⟩ := h
  obtain ⟨rest, hRest⟩ := h'
  rw [newPieces, newPieces, newPieces, ← hRest, ← hMore]
  simp [← Array.length_toList, ← hMore]

/--
Takes in instructions one after the other, and writes the lines that each of them adds
before it looks at the next.
-/
def emit (feed : τ → Instruction → τ) (layout : τ → Layout) :
    List Instruction → τ → σ → Except StreamError τ × σ
  | [], state, sink => (.ok state, sink)
  | instruction :: rest, state, sink =>
    match Sink.writeAll ((layout state).newPieces (layout (feed state instruction))) sink with
    | (.ok (), sink) => emit feed layout rest (feed state instruction) sink
    | (.error error, sink) => (.error error, sink)

theorem continues_foldl {feed : τ → Instruction → τ} {layout : τ → Layout}
    (h : ∀ state instruction, (layout state).Continues (layout (feed state instruction)))
    (instructions : List Instruction) :
    ∀ state : τ, (layout state).Continues (layout (instructions.foldl feed state)) := by
  induction instructions with
  | nil => intro state; exact List.prefix_refl _
  | cons instruction rest ih => intro state; exact (h state instruction).trans (ih _)

/-- If lines are only added, all that is written is what the last layout has more than the first. -/
theorem emit_eq {feed : τ → Instruction → τ} {layout : τ → Layout}
    (h : ∀ state instruction, (layout state).Continues (layout (feed state instruction)))
    (instructions : List Instruction) :
    ∀ (state : τ) (sink : σ), emit feed layout instructions state sink =
      match Sink.writeAll ((layout state).newPieces (layout (instructions.foldl feed state)))
        sink with
      | (.ok (), sink) => (.ok (instructions.foldl feed state), sink)
      | (.error error, sink) => (.error error, sink) := by
  induction instructions with
  | nil =>
      intro state sink
      rw [List.foldl_nil, Layout.newPieces_self]
      rfl
  | cons instruction rest ih =>
      intro state sink
      rw [emit, List.foldl_cons, Layout.newPieces_append (h state instruction)
        (continues_foldl h rest _), Sink.writeAll_append]
      rcases Sink.writeAll ((layout state).newPieces (layout (feed state instruction))) sink
        with ⟨error | _, middle⟩
      · rfl
      · exact ih _ middle

/-- Shows a program as a listing, instruction by instruction. -/
def Program.emitListing (program : Program) (sink : σ) : Except StreamError Unit × σ :=
  match emit Listing.State.feed Listing.State.layout program.instructions.toList {} sink with
  | (.ok _, sink) => (.ok (), sink)
  | (.error error, sink) => (.error error, sink)

/-- Shows a program as source, instruction by instruction, and the line begun in the end. -/
def Program.emitSource (alphabet : Alphabet) (program : Program) (sink : σ) :
    Except StreamError Unit × σ :=
  match emit (Source.State.feed alphabet) Source.State.layout program.instructions.toList {} sink with
  | (.ok state, sink) => Sink.writeAll (state.layout.newPieces state.endLine.layout) sink
  | (.error error, sink) => (.error error, sink)

theorem Layout.continues_push (layout : Layout) (line : Line) :
    layout.Continues (layout.push line) :=
  ⟨[line], Array.toList_push.symm⟩

theorem Listing.continues_feed (state : State) (instruction : Instruction) :
    state.layout.Continues (state.feed instruction).layout := by
  obtain ⟨layout, n, level⟩ := state
  rw [feed_eq]
  exact layout.continues_push _

theorem Source.State.continues_endLine (state : State) :
    state.layout.Continues state.endLine.layout := by
  obtain ⟨layout, pending, level⟩ := state
  rw [endLine]
  split
  · exact List.prefix_refl _
  · exact layout.continues_push _

theorem Source.State.continues_bracket (state : State) (symbol : Char) :
    state.layout.Continues (state.bracket symbol).layout := by
  rw [bracket_eq]
  exact state.continues_endLine.trans (state.endLine.layout.continues_push _)

theorem Source.State.continues_feed (alphabet : Alphabet) (state : State)
    (instruction : Instruction) :
    state.layout.Continues (state.feed alphabet instruction).layout := by
  obtain ⟨operation, target⟩ := instruction
  cases operation with
  | jumpIfZero => exact state.continues_bracket _
  | jumpIfNonZero =>
      exact state.continues_endLine.trans (state.endLine.outdent.continues_bracket _)
  | _ => exact List.prefix_refl _

/-- A listing that is written along the way is written as one that was made before. -/
theorem Program.emitListing_eq (program : Program) (sink : σ) :
    program.emitListing sink = Sink.writeAll program.listing.pieces sink := by
  have hPieces : Layout.newPieces {} program.listing = program.listing.pieces := rfl
  rw [emitListing, emit_eq Listing.continues_feed, ← hPieces, listing]
  rcases Sink.writeAll (Layout.newPieces {} (program.instructions.toList.foldl
    Listing.State.feed {}).layout) sink with ⟨error | _, after⟩ <;> rfl

/-- A source that is written along the way is written as one that was made before. -/
theorem Program.emitSource_eq (alphabet : Alphabet) (program : Program) (sink : σ) :
    program.emitSource alphabet sink = Sink.writeAll (program.source alphabet).pieces sink := by
  have hContinues := continues_foldl (Source.State.continues_feed alphabet)
    program.instructions.toList {}
  have hPieces : Layout.newPieces {} (program.source alphabet) =
      (program.source alphabet).pieces := rfl
  rw [emitSource, emit_eq (Source.State.continues_feed alphabet), ← hPieces, source,
    Layout.newPieces_append hContinues (Source.State.continues_endLine _), Sink.writeAll_append]
  rcases Sink.writeAll (Layout.newPieces {} (program.instructions.toList.foldl
    (Source.State.feed alphabet) {}).layout) sink with ⟨error | _, after⟩ <;> rfl

end Emission

/--
A text is written to a sink that takes `n` bytes and meets every call beyond with a
fault.  The sink comes to hold what it has room for, and so it does call by call, into
whatever pieces the text is cut and however many bytes each call takes.
-/
structure WritesPrefix (n : Nat) (fault : WriteFault) (text : String)
    (write : BoundedSink → Except StreamError Unit × BoundedSink) : Prop where
  filled : Filled n fault.error (textBytes text) (write ⟨n, fault.error, #[]⟩).1
    (write ⟨n, fault.error, #[]⟩).2.accepted.toList
  calls : ∀ pieces : List String, String.join pieces = text →
    ∀ (outcome : Except StreamError Unit) (sink : BoundedSink),
      BoundedSink.TakesAll fault pieces ⟨n, fault.error, #[]⟩ outcome sink ↔
        write ⟨n, fault.error, #[]⟩ = (outcome, sink)

theorem writesPrefix_writeAll (n : Nat) {fault : WriteFault}
    (hFault : fault.error.kind ≠ .interrupted) (layout : Layout) :
    WritesPrefix n fault layout.text (Sink.writeAll layout.pieces) where
  filled := by
    obtain ⟨held, hAfter, hFilled⟩ :=
      BoundedSink.fills_writeAll layout.pieces ⟨n, fault.error, #[]⟩
    have hHeld : (BoundedSink.hold ⟨n, fault.error, #[]⟩ held).accepted.toList = held := by
      simp [BoundedSink.hold]
    rw [hAfter, hHeld]
    exact hFilled
  calls _ hPieces _ _ := BoundedSink.takesAll_iff rfl hFault hPieces

/--
**A sink that is too small holds an exact beginning.**  A sink takes the first `n` bytes that
it is offered.  Every call beyond takes nothing or fails, and is not just interrupted.

A program is written to it as a listing or as source in any alphabet, line by line as the
instructions are gone through; to write a layout made before would come to the same.
The writing succeeds if and only if the text has at most `n` bytes, and then the sink holds
all of it.  Otherwise it fails with the failure of the sink, and the sink holds exactly
the first `n` bytes of the text, wherever that falls.
-/
theorem full_sink_holds_prefix (program : Program) (alphabet : Alphabet) (n : Nat)
    (fault : WriteFault) (hFault : fault.error.kind ≠ .interrupted) :
    WritesPrefix n fault program.listing.text program.emitListing ∧
    WritesPrefix n fault (program.source alphabet).text (program.emitSource alphabet) ∧
    (∀ sink : BoundedSink,
      program.emitListing sink = Sink.writeAll program.listing.pieces sink) ∧
    ∀ sink : BoundedSink,
      program.emitSource alphabet sink =
        Sink.writeAll (program.source alphabet).pieces sink := by
  refine ⟨?_, ?_, program.emitListing_eq, program.emitSource_eq alphabet⟩
  · rw [funext program.emitListing_eq]
    exact writesPrefix_writeAll n hFault program.listing
  · rw [funext (program.emitSource_eq alphabet)]
    exact writesPrefix_writeAll n hFault (program.source alphabet)

/-- The room ends after two of the three bytes of a symbol. -/
theorem full_sink_holds_prefix_within_symbol :
    textBytes (Program.source .zeroWidth ⟨#[⟨.increment, 0⟩]⟩).text = [226, 128, 141, 10] ∧
    (Program.emitSource .zeroWidth ⟨#[⟨.increment, 0⟩]⟩
      (⟨2, .wroteNothing, #[]⟩ : BoundedSink)).1 = .error .wroteNothing ∧
    (Program.emitSource .zeroWidth ⟨#[⟨.increment, 0⟩]⟩
      (⟨2, .wroteNothing, #[]⟩ : BoundedSink)).2.accepted.toList = [226, 128] := by
  have hText : textBytes (Program.source .zeroWidth ⟨#[⟨.increment, 0⟩]⟩).text =
      [226, 128, 141, 10] := by decide
  obtain ⟨_, hSource, _⟩ := full_sink_holds_prefix ⟨#[⟨.increment, 0⟩]⟩ .zeroWidth 2 .nothing
    (by decide)
  have hFilled := hSource.filled
  rw [hText] at hFilled
  have hNot := mt hFilled.ok_iff.1 (by decide)
  exact ⟨hText, hFilled.of_not_ok hNot⟩

end TapeLang
