import TapeLang.Operation
import TapeLang.Text.Quoted

/-!
# Alphabets

An alphabet gives each operation a symbol, and no symbol to two operations.
Characters outside the alphabet mean nothing, so a source may be spread
through any other text.

Two alphabets have names: the invisible one of zero-width characters and the
usual one of ASCII punctuation.

## Main results

* `Alphabet.lookup_eq_some_iff` — looking a character up is the inverse of
  taking an operation's symbol.
* `Alphabet.clash?_eq_none_iff` — eight characters have no clash exactly if
  they are pairwise distinct.
* `Alphabet.named_iff` — the alphabets that have a name.
-/

namespace TapeLang

/-- Why there is no alphabet. -/
inductive AlphabetError where
  /-- Two operations have the same symbol. -/
  | duplicateSymbol (symbol : Char) (first second : Operation)
  /-- The name is not that of an alphabet. -/
  | unknownEncoding (name : String)
  deriving DecidableEq, Repr

/-- The wording of an error. -/
def AlphabetError.message : AlphabetError → String
  | .duplicateSymbol symbol first second =>
    "symbol " ++ Text.quoted symbol ++ " is assigned to both `" ++ first.mnemonic ++ "` and `" ++
      second.mnemonic ++ "`"
  | .unknownEncoding name =>
    "unknown encoding `" ++ name ++ "`, expected `zero-width` or `ascii`"

/-- One symbol for each operation, no two alike. -/
structure Alphabet where
  /-- The symbols, in the listing order of the operations. -/
  symbols : Vector Char 8
  /-- No two operations share a symbol. -/
  distinct : ∀ o p : Operation, symbols[o.index] = symbols[p.index] → o = p
  deriving DecidableEq

namespace Alphabet

/-- The symbol of an operation. -/
def symbol (alphabet : Alphabet) (operation : Operation) : Char :=
  alphabet.symbols[operation.index]

/-- The first of the positions before a limit that holds a character. -/
def position? (symbols : Vector Char 8) (limit : Nat) (c : Char) : Option (Fin 8) :=
  (List.finRange 8).find? fun i => decide (i.val < limit) && symbols.get i == c

theorem symbol_of_position? {symbols : Vector Char 8} {limit : Nat} {c : Char} {i : Fin 8}
    (h : position? symbols limit c = some i) : symbols.get i = c := by
  have hFound := List.find?_some h
  rw [Bool.and_eq_true, beq_iff_eq] at hFound
  exact hFound.2

theorem position?_eq_none_iff {symbols : Vector Char 8} {limit : Nat} {c : Char} :
    position? symbols limit c = none ↔ ∀ i : Fin 8, i.val < limit → symbols.get i ≠ c := by
  rw [position?, List.find?_eq_none]
  simp only [Bool.and_eq_true, decide_eq_true_eq, beq_iff_eq, not_and, List.mem_finRange,
    forall_const]

/-- The operation whose symbol a character is: the two stand at the same position. -/
def lookup (alphabet : Alphabet) (c : Char) : Option Operation :=
  (position? alphabet.symbols 8 c).map .ofIndex

theorem symbol_ofIndex (alphabet : Alphabet) (i : Fin 8) :
    alphabet.symbol (.ofIndex i) = alphabet.symbols.get i := by
  obtain ⟨operation, rfl⟩ := Operation.exists_index_eq i
  rw [Operation.ofIndex_index]
  rfl

theorem symbol_injective (alphabet : Alphabet) {o p : Operation}
    (h : alphabet.symbol o = alphabet.symbol p) : o = p :=
  alphabet.distinct o p h

/-- A character stands for an operation exactly if it is that operation's symbol. -/
theorem lookup_eq_some_iff {alphabet : Alphabet} {c : Char} {operation : Operation} :
    alphabet.lookup c = some operation ↔ alphabet.symbol operation = c := by
  have hSymbol {other : Operation} (hFound : alphabet.lookup c = some other) :
      alphabet.symbol other = c := by
    obtain ⟨i, hPosition, rfl⟩ := Option.map_eq_some_iff.1 hFound
    rw [symbol_ofIndex, symbol_of_position? hPosition]
  constructor
  · exact hSymbol
  · intro h
    cases hFound : alphabet.lookup c with
    | none =>
        have hNone := position?_eq_none_iff.1 (Option.map_eq_none_iff.1 hFound)
        exact absurd h (hNone operation.index operation.index.isLt)
    | some other => rw [alphabet.symbol_injective ((hSymbol hFound).trans h.symm)]

/-- A character stands for nothing exactly if it is no symbol. -/
theorem lookup_eq_none_iff (alphabet : Alphabet) {c : Char} :
    alphabet.lookup c = none ↔ ∀ operation : Operation, alphabet.symbol operation ≠ c := by
  rw [Option.eq_none_iff_forall_ne_some]
  exact forall_congr' fun operation => not_congr lookup_eq_some_iff

@[simp] theorem lookup_symbol (alphabet : Alphabet) (operation : Operation) :
    alphabet.lookup (alphabet.symbol operation) = some operation :=
  lookup_eq_some_iff.2 rfl

/-! ## Alphabets from eight characters -/

/--
The first clash among eight characters: the first position whose character has
already been given away, preceded by the first position that has it.
-/
def clash? (symbols : Vector Char 8) : Option (Fin 8 × Fin 8) :=
  (List.finRange 8).findSome? fun second =>
    (position? symbols second.val (symbols.get second)).map fun first => (first, second)

/-- Without a clash, equal characters belong to one operation. -/
theorem eq_of_clash?_eq_none {symbols : Vector Char 8} (h : clash? symbols = none)
    (o p : Operation) (hSymbols : symbols[o.index] = symbols[p.index]) : o = p := by
  have key : ∀ first second : Fin 8, first.val < second.val →
      symbols.get first ≠ symbols.get second := by
    intro first second
    have hSecond := List.findSome?_eq_none_iff.1 h second (List.mem_finRange second)
    exact position?_eq_none_iff.1 (Option.map_eq_none_iff.1 hSecond) first
  apply Operation.index_injective
  rcases Nat.lt_trichotomy o.index.val p.index.val with hLess | hEq | hGreater
  · exact absurd hSymbols (key o.index p.index hLess)
  · exact Fin.ext hEq
  · exact absurd hSymbols.symm (key p.index o.index hGreater)

/-- There is no clash exactly if the characters are pairwise distinct. -/
theorem clash?_eq_none_iff {symbols : Vector Char 8} :
    clash? symbols = none ↔
      ∀ o p : Operation, symbols[o.index] = symbols[p.index] → o = p := by
  refine ⟨eq_of_clash?_eq_none, fun h => List.findSome?_eq_none_iff.2 fun second _ => ?_⟩
  rw [Option.map_eq_none_iff, position?_eq_none_iff]
  intro first hLess hClash
  obtain ⟨o, rfl⟩ := Operation.exists_index_eq first
  obtain ⟨p, rfl⟩ := Operation.exists_index_eq second
  rw [h o p hClash] at hLess
  exact Nat.lt_irrefl _ hLess

/-- The alphabet of eight characters, or the first clash among them. -/
def ofSymbols (symbols : Vector Char 8) : Except AlphabetError Alphabet :=
  match h : clash? symbols with
  | none => .ok ⟨symbols, eq_of_clash?_eq_none h⟩
  | some (first, second) =>
    .error (.duplicateSymbol (symbols.get second) (.ofIndex first) (.ofIndex second))

/-! ## Named alphabets -/

/-- The invisible alphabet, of characters without width. -/
def zeroWidth : Alphabet where
  symbols := #v['\u200b', '\u200c', '\u200d', '\u200e', '\u200f', '\u202a', '\u202b', '\u202c']
  distinct := eq_of_clash?_eq_none (by decide)

/-- The usual alphabet, of ASCII punctuation. -/
def ascii : Alphabet where
  symbols := #v['>', '<', '+', '-', '.', ',', '[', ']']
  distinct := eq_of_clash?_eq_none (by decide)

/-- The alphabet of a name. -/
def ofName (name : String) : Except AlphabetError Alphabet :=
  if name = "zero-width" || name = "zws" then .ok zeroWidth
  else if name = "ascii" then .ok ascii
  else .error (.unknownEncoding name)

/-- An alphabet that can be asked for by a name. -/
def Named (alphabet : Alphabet) : Prop := ∃ name : String, ofName name = .ok alphabet

theorem named_iff {alphabet : Alphabet} :
    alphabet.Named ↔ alphabet = zeroWidth ∨ alphabet = ascii := by
  constructor
  · intro ⟨name, hName⟩
    unfold ofName at hName
    split at hName
    · exact .inl (Except.ok.inj hName).symm
    · split at hName
      · exact .inr (Except.ok.inj hName).symm
      · cases hName
  · intro h
    rcases h with rfl | rfl
    · exact ⟨"zero-width", by simp [ofName]⟩
    · exact ⟨"ascii", by simp [ofName]⟩

end Alphabet

end TapeLang
