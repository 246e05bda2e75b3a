import Mathlib.Data.Fin.Tuple.Basic
import Mathlib.Order.Bounds.Basic
import TapeLang.Alphabet

/-!
# Alphabets as bijections

Eight characters make an alphabet if no two are alike.  If some are, there may be
several clashes among them, and one is reported: the search goes through the
positions and, for each, through the positions before it.  What it finds can be said
without the search.  The second position of the clash is the least one whose
character occurs earlier, and the first is the least one that has that character.

Searches go by positions, an alphabet is about operations.  The listing puts each
operation at its own position (`Operation.getElem?_all`), so what is found at a
position is found of an operation.

## Main results

* `Alphabet.position?_eq_some_iff` — what a search for a character finds.
* `Alphabet.clash?_eq_some_iff` — the double search finds the first clash.
* `Alphabet.eq_iff_lookup_eq` — an alphabet is known by what its lookup answers.
* `alphabets_are_bijections` — which characters make an alphabet, what is reported
  of others, and how lookup and symbols go together.
-/

namespace TapeLang

theorem Operation.getElem?_all (operation : Operation) :
    all[operation.index.val]? = some operation := by
  cases operation <;> rfl

namespace Alphabet

/-! ## The first clash -/

/--
The first clash among eight characters.  The second position is the least one
whose character occurs at an earlier position, and the first position is the
least one that holds that character.
-/
structure FirstClash (symbols : Vector Char 8) (first second : Fin 8) : Prop where
  second_isLeast : IsLeast {i : Fin 8 | ∃ j < i, symbols[j] = symbols[i]} second
  first_isLeast : IsLeast {j : Fin 8 | symbols[j] = symbols[second]} first

variable {symbols : Vector Char 8}

theorem FirstClash.lt {first second : Fin 8} (h : FirstClash symbols first second) :
    first < second := by
  obtain ⟨j, hLess, hSame⟩ := h.second_isLeast.1
  exact lt_of_le_of_lt (h.first_isLeast.2 hSame) hLess

theorem FirstClash.unique {first second first' second' : Fin 8}
    (h : FirstClash symbols first second) (h' : FirstClash symbols first' second') :
    first' = first ∧ second' = second := by
  obtain rfl : second' = second := h'.second_isLeast.unique h.second_isLeast
  exact ⟨h'.first_isLeast.unique h.first_isLeast, rfl⟩

/-- The search for a character finds the least position that holds it, if below the limit. -/
theorem position?_eq_some_iff {limit : Nat} {c : Char} {i : Fin 8} :
    position? symbols limit c = some i ↔
      i.val < limit ∧ IsLeast {j : Fin 8 | symbols[j] = c} i := by
  rw [position?, ← Fin.find?_eq_find?_finRange, Fin.find?_eq_some_iff]
  simp only [Bool.and_eq_true, decide_eq_true_eq, beq_iff_eq, Bool.and_eq_false_iff,
    decide_eq_false_iff_not, beq_eq_false_iff_ne]
  constructor
  · rintro ⟨⟨hLimit, hHere⟩, hNone⟩
    refine ⟨hLimit, hHere, ?_⟩
    intro j hj
    apply le_of_not_gt
    intro hEarlier
    -- what stands even earlier is below the limit too, and would have been found before
    cases hNone j hEarlier with
    | inl hNot => exact hNot (lt_trans (Fin.lt_def.1 hEarlier) hLimit)
    | inr hNe => exact hNe hj
  · rintro ⟨hLimit, hHere, hLeast⟩
    refine ⟨⟨hLimit, hHere⟩, ?_⟩
    intro j hEarlier
    right
    intro hj
    exact absurd (hLeast hj) (not_le_of_gt hEarlier)

/-- The double search finds the first clash. -/
theorem clash?_eq_some_iff {first second : Fin 8} :
    clash? symbols = some (first, second) ↔ FirstClash symbols first second := by
  rw [clash?, ← Fin.findSome?_eq_findSome?_finRange, Fin.findSome?_eq_some_iff]
  constructor
  · rintro ⟨position, hFound, hNone⟩
    obtain ⟨found, hPosition, hPair⟩ := Option.map_eq_some_iff.1 hFound
    obtain ⟨rfl, rfl⟩ := Prod.mk.inj hPair
    obtain ⟨hLess, hFirst⟩ := position?_eq_some_iff.1 hPosition
    refine ⟨⟨⟨_, hLess, hFirst.1⟩, ?_⟩, hFirst⟩
    rintro i ⟨j, hj, hClash⟩
    apply le_of_not_gt
    intro hEarlier
    have hOther := Option.map_eq_none_iff.1 (hNone i hEarlier)
    exact position?_eq_none_iff.1 hOther j hj hClash
  · intro h
    refine ⟨second, ?_, ?_⟩
    · exact Option.map_eq_some_iff.2 ⟨first, position?_eq_some_iff.2 ⟨h.lt, h.first_isLeast⟩, rfl⟩
    · intro i hEarlier
      refine Option.map_eq_none_iff.2 (position?_eq_none_iff.2 ?_)
      intro j hj hClash
      exact absurd (h.second_isLeast.2 ⟨j, hj, hClash⟩) (not_le_of_gt hEarlier)

/-- Eight characters without a clash are the symbols of the alphabet that is made of them. -/
theorem ofSymbols_eq_ok_iff {alphabet : Alphabet} :
    ofSymbols symbols = .ok alphabet ↔ alphabet.symbols = symbols := by
  constructor
  · intro h
    unfold ofSymbols at h
    split at h
    · cases h
      rfl
    · cases h
  · rintro rfl
    have hNone := clash?_eq_none_iff.2 alphabet.distinct
    unfold ofSymbols
    split
    · rfl
    · next hClash =>
        rw [hNone] at hClash
        cases hClash

/-- A clash is reported with the character and the operations at its two positions. -/
theorem ofSymbols_eq_error {first second : Fin 8} (h : FirstClash symbols first second) :
    ofSymbols symbols =
      .error (.duplicateSymbol symbols[second] (.ofIndex first) (.ofIndex second)) := by
  have hFound := clash?_eq_some_iff.2 h
  unfold ofSymbols
  split
  · next hNone =>
      rw [hFound] at hNone
      cases hNone
  · next hClash =>
      rw [hFound] at hClash
      cases hClash
      rfl

theorem exists_ofSymbols_eq_ok_iff :
    (∃ alphabet : Alphabet, ofSymbols symbols = .ok alphabet) ↔
      ∀ i j : Fin 8, i ≠ j → symbols[i] ≠ symbols[j] := by
  constructor
  · rintro ⟨alphabet, hMade⟩ i j hNe hSame
    obtain rfl := ofSymbols_eq_ok_iff.1 hMade
    obtain ⟨o, rfl⟩ := Operation.exists_index_eq i
    obtain ⟨p, rfl⟩ := Operation.exists_index_eq j
    exact hNe (congrArg Operation.index (alphabet.distinct o p hSame))
  · intro hDistinct
    have hOperations : ∀ o p : Operation, symbols[o.index] = symbols[p.index] → o = p := by
      intro o p hSame
      by_contra hNe
      exact hDistinct o.index p.index (fun hIndex => hNe (Operation.index_injective hIndex)) hSame
    exact ⟨⟨symbols, hOperations⟩, ofSymbols_eq_ok_iff.2 rfl⟩

theorem exists_firstClash (h : ¬∀ i j : Fin 8, i ≠ j → symbols[i] ≠ symbols[j]) :
    ∃ first second : Fin 8, FirstClash symbols first second := by
  cases hClash : clash? symbols with
  | none =>
      exact absurd (exists_ofSymbols_eq_ok_iff.1
        ⟨⟨symbols, eq_of_clash?_eq_none hClash⟩, ofSymbols_eq_ok_iff.2 rfl⟩) h
  | some clash => exact ⟨clash.1, clash.2, clash?_eq_some_iff.1 hClash⟩

theorem eq_of_symbol_eq {alphabet other : Alphabet}
    (h : ∀ operation : Operation, alphabet.symbol operation = other.symbol operation) :
    alphabet = other := by
  have hSymbols : alphabet.symbols = other.symbols := by
    apply Vector.ext
    intro i hi
    obtain ⟨operation, hIndex⟩ := Operation.exists_index_eq ⟨i, hi⟩
    simpa [symbol, hIndex] using h operation
  cases alphabet
  cases other
  cases hSymbols
  rfl

/-- An alphabet is known by what its lookup answers. -/
theorem eq_iff_lookup_eq {alphabet other : Alphabet} :
    alphabet = other ↔ ∀ c : Char, alphabet.lookup c = other.lookup c := by
  constructor
  · rintro rfl c
    rfl
  · intro h
    apply eq_of_symbol_eq
    intro operation
    have hOther : other.lookup (alphabet.symbol operation) = some operation := by
      rw [← h, alphabet.lookup_symbol]
    exact (lookup_eq_some_iff.1 hOther).symm

end Alphabet

open Alphabet in
/--
**Eight characters make an alphabet exactly if they are pairwise distinct.**
Otherwise the first clash is reported, and there is only one: its operations stand
in the listing at the least position whose character occurs earlier, and at the
least position of that character.  In an alphabet so made, an operation has the
character at its place in the listing, looking a character up and taking an
operation's symbol are inverse to each other, and a character that is no
operation's symbol is not found.  Two alphabets that answer alike to every
character are the same.
-/
theorem alphabets_are_bijections (symbols : Vector Char 8) :
    ((∃ alphabet : Alphabet, ofSymbols symbols = .ok alphabet) ↔
      ∀ i j : Fin 8, i ≠ j → symbols[i] ≠ symbols[j]) ∧
    ((¬∀ i j : Fin 8, i ≠ j → symbols[i] ≠ symbols[j]) →
      ∃ (j i : Fin 8) (first second : Operation),
        FirstClash symbols j i ∧ j < i ∧
        (∀ j' i' : Fin 8, FirstClash symbols j' i' → j' = j ∧ i' = i) ∧
        Operation.all[j.val]? = some first ∧ Operation.all[i.val]? = some second ∧
        ofSymbols symbols = .error (.duplicateSymbol symbols[i] first second)) ∧
    ∀ alphabet : Alphabet, ofSymbols symbols = .ok alphabet →
      (∀ (i : Fin 8) (operation : Operation), Operation.all[i.val]? = some operation →
        alphabet.symbol operation = symbols[i]) ∧
      (∀ (c : Char) (operation : Operation),
        alphabet.lookup c = some operation ↔ alphabet.symbol operation = c) ∧
      (∀ c : Char, (∀ operation : Operation, alphabet.symbol operation ≠ c) →
        alphabet.lookup c = none) ∧
      ∀ (symbols' : Vector Char 8) (other : Alphabet), ofSymbols symbols' = .ok other →
        (alphabet = other ↔ ∀ c : Char, alphabet.lookup c = other.lookup c) := by
  refine ⟨exists_ofSymbols_eq_ok_iff, ?_, ?_⟩
  · intro hAlike
    obtain ⟨first, second, hClash⟩ := exists_firstClash hAlike
    have hListed (i : Fin 8) : Operation.all[i.val]? = some (.ofIndex i) := by
      obtain ⟨operation, rfl⟩ := Operation.exists_index_eq i
      rw [operation.getElem?_all, operation.ofIndex_index]
    exact ⟨first, second, .ofIndex first, .ofIndex second, hClash, hClash.lt,
      fun j' i' hOther => hClash.unique hOther, hListed first, hListed second,
      ofSymbols_eq_error hClash⟩
  · intro alphabet hMade
    obtain rfl := ofSymbols_eq_ok_iff.1 hMade
    refine ⟨?_, fun _ _ => lookup_eq_some_iff, fun _ => alphabet.lookup_eq_none_iff.2,
      fun _ _ _ => eq_iff_lookup_eq⟩
    intro i operation hListed
    obtain ⟨listed, rfl⟩ := Operation.exists_index_eq i
    rw [listed.getElem?_all] at hListed
    cases hListed
    rfl

open Alphabet in
/-- Three characters occur twice or more; the clash reported is the one that is complete first. -/
theorem alphabets_are_bijections_several_clashes :
    FirstClash #v['a', 'b', 'c', 'd', 'b', 'a', 'c', 'b'] 1 4 ∧
    ofSymbols #v['a', 'b', 'c', 'd', 'b', 'a', 'c', 'b'] =
      .error (.duplicateSymbol 'b' .backward .write) ∧
    ofSymbols #v['>', '<', '+', '-', '.', ',', '[', ']'] = .ok ascii ∧
    ascii.lookup ',' = some .read ∧ ascii.lookup 'a' = none := by
  have hFirst : FirstClash #v['a', 'b', 'c', 'd', 'b', 'a', 'c', 'b'] 1 4 := by
    refine ⟨⟨⟨1, by decide, by decide⟩, ?_⟩, by decide, ?_⟩
    · simp only [mem_lowerBounds, Set.mem_ofPred_eq]
      decide
    · simp only [mem_lowerBounds, Set.mem_ofPred_eq]
      decide
  obtain ⟨j, i, first, second, _, _, hUnique, hj, hi, hError⟩ :=
    (alphabets_are_bijections #v['a', 'b', 'c', 'd', 'b', 'a', 'c', 'b']).2.1 (by decide)
  obtain ⟨rfl, rfl⟩ := hUnique 1 4 hFirst
  cases hj
  cases hi
  have hAscii : ofSymbols #v['>', '<', '+', '-', '.', ',', '[', ']'] = .ok ascii :=
    ofSymbols_eq_ok_iff.2 rfl
  obtain ⟨_, hLookup, hNone, _⟩ := (alphabets_are_bijections _).2.2 ascii hAscii
  refine ⟨hFirst, hError, hAscii, (hLookup ',' .read).2 rfl, hNone 'a' ?_⟩
  intro operation
  cases operation <;> decide

end TapeLang
