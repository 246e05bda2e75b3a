import Mathlib.Algebra.GroupWithZero.Nat
import TapeLang.Proofs.RawScan
import TapeLang.Proofs.Stages

/-!
# Where a reported bracket stands in the file

The offset of a reported bracket counts bytes of the decoded text, not of the
file.  This module finds the bracket in the file and compares the two.  Bytes
that are well formed are as long as their text; a broken piece has one to three
bytes and its replacement three, so each broken piece before the bracket moves
the offset on by what it lacks to three bytes.

## Main results

* `Text.byteLength_decode` — how long the text of bytes is.
* `Text.exists_cut` — a character of the text that is no replacement stands in
  the bytes, and what is before and after it is read as before.
* `exists_bracket_of_error` — the bracket of an error, in the bytes.
* `reported_offset_counts_replacements` — the bracket in the file and its offset;
  `reported_offset_behind_file` shows that the two can differ.
-/

namespace TapeLang

namespace Text

/-- The text of bytes is longer than they are by the growth of their pieces. -/
theorem byteLength_decode (bytes : List UInt8) :
    byteLength (decode bytes).toList =
      bytes.length + ((pieces bytes).map Piece.growth).sum := by
  rw [toList_decode]
  induction bytes using pieces_induction with
  | nil => simp
  | whole c after ih =>
      rw [pieces_encode, List.map_cons, List.map_cons, List.sum_cons, byteLength_cons, ih,
        List.length_append, String.length_utf8EncodeChar]
      simp only [Piece.char, Piece.growth]
      omega
  | broken lead trailing after hBroken ih =>
      have hLength := hBroken.length_le
      have hSize : replacement.utf8Size = 3 := by decide
      rw [hBroken.pieces_eq, List.map_cons, List.map_cons, List.sum_cons, byteLength_cons, ih,
        List.length_cons, List.length_append]
      simp only [Piece.char, Piece.growth, hSize, List.length_cons]
      omega

/-- The pieces do not grow exactly if those that are broken have three bytes each. -/
theorem sum_growth_eq_zero_iff (contents : List UInt8) :
    ((pieces contents).map Piece.growth).sum = 0 ↔
      ∀ bytes : List UInt8, Piece.broken bytes ∈ pieces contents → bytes.length = 3 := by
  rw [List.sum_eq_zero_iff_forall_eq_nat, List.forall_mem_map]
  constructor
  · intro h bytes hBytes
    have hGrowth : 3 - bytes.length = 0 := h _ hBytes
    have hLength := length_of_broken_mem contents bytes hBytes
    omega
  · intro h piece hPiece
    cases piece with
    | whole char => rfl
    | broken bytes =>
        show 3 - bytes.length = 0
        rw [h bytes hPiece]

/-- The bytes of characters are read as these characters. -/
theorem pieces_flatMap_encode (text : List Char) :
    pieces (text.flatMap String.utf8EncodeChar) = text.map .whole := by
  induction text with
  | nil => simp
  | cons c text ih => rw [List.flatMap_cons, pieces_encode, ih, List.map_cons]

/-- A character of the text that is no replacement stands in the bytes. -/
theorem exists_cut {contents : List UInt8} {before after : List Char} {c : Char}
    (hText : (decode contents).toList = before ++ c :: after) (hc : c ≠ replacement) :
    ∃ first second : List UInt8, contents = first ++ String.utf8EncodeChar c ++ second ∧
      (decode first).toList = before ∧ (decode second).toList = after := by
  rw [toList_decode] at hText
  obtain ⟨first, rest, hPieces, hBefore, hRest⟩ := List.map_eq_append_iff.1 hText
  obtain ⟨piece, second, rfl, hChar, hAfter⟩ := List.map_eq_cons_iff.1 hRest
  have hWhole : piece = .whole c := by
    cases piece with
    | whole char => exact congrArg Piece.whole hChar
    | broken bytes => exact absurd hChar.symm hc
  subst hWhole
  have hContents := flatMap_pieces contents
  rw [hPieces, List.flatMap_append, List.flatMap_cons] at hContents
  -- the pieces up to the character and those after it are read as before
  obtain ⟨hFirst, _⟩ := pieces_of_pieces_eq_append hPieces
  rw [List.append_cons] at hPieces
  obtain ⟨_, hSecond⟩ := pieces_of_pieces_eq_append hPieces
  refine ⟨first.flatMap Piece.bytes, second.flatMap Piece.bytes, ?_, ?_, ?_⟩
  · rw [← hContents, List.append_assoc]
    rfl
  · rw [toList_decode, hFirst, hBefore]
  · rw [toList_decode, hSecond, hAfter]

end Text

/-! ## The bracket of an error -/

/-- The operation whose symbol an error is about. -/
def CompileError.bracket : CompileError → Operation
  | .unmatchedOpen _ => .jumpIfZero
  | .unmatchedClose _ => .jumpIfNonZero

/--
What makes the bracket between two parts of the bytes the offending one.  A
closing bracket has nothing left to close: all before it is properly nested. An
opening bracket is the innermost of those never closed: all after it is
properly nested, and before it nothing was closed too early.
-/
def Alphabet.Offending (alphabet : Alphabet) (before after : List UInt8) : CompileError → Prop
  | .unmatchedClose _ => Nested (alphabet.scan before)
  | .unmatchedOpen _ => Nested (alphabet.scan after) ∧ ¬Overclosing (alphabet.scan before)

/-- An error of decoded bytes is about a bracket that is spelled out in them. -/
theorem exists_bracket_of_error {alphabet : Alphabet}
    (hReplacement : alphabet.lookup Text.replacement = none) {contents : List UInt8}
    {error : CompileError} (h : compile alphabet (Text.decode contents) = .error error) :
    ∃ before after : List UInt8,
      contents = before ++ String.utf8EncodeChar (alphabet.symbol error.bracket) ++ after ∧
      alphabet.Offending before after error ∧
      error.start = byteLength (Text.decode before).toList := by
  have hSymbol : ∀ {c : Char} {operation : Operation}, alphabet.lookup c = some operation →
      c ≠ Text.replacement ∧ c = alphabet.symbol operation := by
    intro c operation hLookup
    refine ⟨?_, (Alphabet.lookup_eq_some_iff.1 hLookup).symm⟩
    intro hc
    rw [hc, hReplacement] at hLookup
    cases hLookup
  obtain ⟨code, hCode, hOk⟩ | ⟨before, symbol, after, code, hSplit, hBefore, hClose, hError⟩ |
    ⟨before, symbol, after, code, hSplit, hOpen, hAfter, hNever, _, hError⟩ :=
      Assembler.compile_cases .empty alphabet (Text.decode contents)
  · rw [compile, hOk] at h
    cases h
  · rw [compile, hError] at h
    cases h
    obtain ⟨hc, rfl⟩ := hSymbol hClose
    obtain ⟨first, second, hContents, rfl, _⟩ := Text.exists_cut hSplit hc
    refine ⟨first, second, hContents, ?_, rfl⟩
    show Nested (alphabet.scan first)
    rw [← Alphabet.recognise_decode hReplacement, hBefore]
    exact code.nested_operations
  · rw [compile, hError] at h
    cases h
    obtain ⟨hc, rfl⟩ := hSymbol hOpen
    obtain ⟨first, second, hContents, rfl, rfl⟩ := Text.exists_cut hSplit hc
    refine ⟨first, second, hContents, ⟨?_, ?_⟩, rfl⟩
    · rw [← Alphabet.recognise_decode hReplacement, hAfter]
      exact code.nested_operations
    · intro hOver
      rw [← Alphabet.recognise_decode hReplacement] at hOver
      apply hOver.not_closings_le
      intro start hStart
      apply hNever
      rw [hSplit, Alphabet.recognise_append]
      exact hStart.trans (List.prefix_append _ _)

open CommandLine in
/--
**The offset of a reported bracket is its place in the file, moved on by the
replacements before it.**  If the work fails with a compile error, the bracket
that the error is about is spelled out in the one file, and it is the offending
one.  The offset reported is the number of bytes before it, and for each broken
piece among these what the piece lacks to three bytes.  So the offset is the
bracket's place in the file if and only if every broken piece before it has
three bytes, and always if the bytes before it are well formed.
-/
theorem reported_offset_counts_replacements {line : List String} {arguments : Arguments}
    {turns : Nat} {files : String → Except StreamError (List UInt8)} {memory : Memory}
    {console : Console} {result : Result} {error : CompileError}
    (hLine : Request.parse line = .ok (.work arguments))
    (hResult : arguments.perform turns files memory console = some result)
    (hOutcome : result.outcome = .error (.compile error)) :
    ∃ (path : String) (before after : List UInt8),
      arguments.paths = [path] ∧
      files path = .ok
        (before ++ String.utf8EncodeChar (arguments.encoding.symbol error.bracket) ++ after) ∧
      arguments.encoding.Offending before after error ∧
      error.start = before.length + ((Text.pieces before).map Text.Piece.growth).sum ∧
      (error.start = before.length ↔
        ∀ bytes : List UInt8, Text.Piece.broken bytes ∈ Text.pieces before → bytes.length = 3) ∧
      ∀ text : List Char, before = text.flatMap String.utf8EncodeChar →
        error.start = before.length := by
  have hNamed := named_of_parse hLine
  obtain ⟨path, contents, hPaths, hFile, hCompile⟩ :=
    Arguments.perform_compile_error hResult hOutcome
  obtain ⟨before, after, rfl, hOffending, hStart⟩ :=
    exists_bracket_of_error hNamed.lookup_replacement hCompile
  rw [Text.byteLength_decode] at hStart
  have hIff : error.start = before.length ↔
      ∀ bytes : List UInt8, Text.Piece.broken bytes ∈ Text.pieces before → bytes.length = 3 := by
    rw [← Text.sum_growth_eq_zero_iff, hStart]
    omega
  refine ⟨path, before, after, hPaths, hFile, hOffending, hStart, hIff, ?_⟩
  intro text hText
  apply hIff.2
  intro bytes hBytes
  rw [hText, Text.pieces_flatMap_encode] at hBytes
  simp at hBytes

open CommandLine in
/-- Two bytes of a character that breaks off before a bracket count as three. -/
theorem reported_offset_counts_replacements_cut_off :
    ∃ before after : List UInt8,
      [0xe2, 0x80, 0x5b, 0xff, 0x2b] = before ++ String.utf8EncodeChar '[' ++ after ∧
      Alphabet.ascii.Offending before after (.unmatchedOpen 3) ∧
      3 = before.length + ((Text.pieces before).map Text.Piece.growth).sum := by
  have hLine : Request.parse ["-e", "ascii", "s.b"] =
      .ok (.work { paths := ["s.b"], encoding := .ascii }) := rfl
  have hText : Text.decode [0xe2, 0x80, 0x5b, 0xff, 0x2b] = "\ufffd[\ufffd+" := by decide +kernel
  have hCompile : compile .ascii (Text.decode [0xe2, 0x80, 0x5b, 0xff, 0x2b]) =
      .error (.unmatchedOpen 3) := by
    rw [hText]
    rfl
  have hCourse : ({ paths := ["s.b"], encoding := .ascii } : Arguments).Course
      (fun _ => .ok [0xe2, 0x80, 0x5b, 0xff, 0x2b]) ⟨fun _ => true⟩
        (.error (.compile (.unmatchedOpen 3))) := .refused ⟨"s.b", rfl, rfl⟩ hCompile
  have hResult := Arguments.perform_of_error hCourse.prepare 0 { input := .bytes [] }
  obtain ⟨_, before, after, _, hFile, hOffending, hStart, _⟩ :=
    reported_offset_counts_replacements hLine hResult rfl
  exact ⟨before, after, Except.ok.inj hFile, hOffending, hStart⟩

open CommandLine in
/-- The offset that is reported may lie behind the end of the file. -/
theorem reported_offset_behind_file :
    Request.parse ["-e", "ascii", "s.b"] =
      .ok (.work { paths := ["s.b"], encoding := .ascii }) ∧
    (({ paths := ["s.b"], encoding := .ascii } : Arguments).perform 0
      (fun _ => .ok [0xe9, 0x5d]) ⟨fun _ => true⟩ { input := .bytes [] }).map Result.outcome =
        some (.error (.compile (.unmatchedClose 3))) ∧
    ¬String.utf8EncodeChar (Alphabet.ascii.symbol .jumpIfNonZero) <+:
      ([0xe9, 0x5d] : List UInt8).drop 3 := by
  have hText : Text.decode [0xe9, 0x5d] = "\ufffd]" := by decide +kernel
  have hCompile : compile .ascii (Text.decode [0xe9, 0x5d]) = .error (.unmatchedClose 3) := by
    rw [hText]
    rfl
  have hCourse : ({ paths := ["s.b"], encoding := .ascii } : Arguments).Course
      (fun _ => .ok [0xe9, 0x5d]) ⟨fun _ => true⟩ (.error (.compile (.unmatchedClose 3))) :=
    .refused ⟨"s.b", rfl, rfl⟩ hCompile
  refine ⟨rfl, ?_, by decide⟩
  rw [Arguments.perform_of_error hCourse.prepare, Option.map_some]

end TapeLang
