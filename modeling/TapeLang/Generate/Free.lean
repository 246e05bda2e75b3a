import TapeLang.Alphabet
import TapeLang.Generate.Chooser

/-!
# Sources of any shape

A source of symbols in any order, brackets included, mixed with arbitrary
other characters. Most such sources do not compile.
-/

namespace TapeLang.Generate

variable {σ : Type} [Chooser σ]

/-- The amount that a symbol takes at most: a choice and a character. -/
def freeSymbolCost : Nat := 8

/-- A symbol of the alphabet or, as the ninth possibility, any character. -/
def freeSymbol (alphabet : Alphabet) (source : σ) : Char × σ :=
  match Chooser.choose 9 (by decide) source with
  | (choice, source) =>
    if h : choice.val < 8 then (alphabet.symbol (.ofIndex ⟨choice.val, h⟩), source)
    else Chooser.char source

/-- Adds a number of symbols to a text. -/
def addFreeSymbols (alphabet : Alphabet) : Nat → String → σ → String × σ
  | 0, text, source => (text, source)
  | count + 1, text, source =>
    match freeSymbol alphabet source with
    | (symbol, source) => addFreeSymbols alphabet count (text.push symbol) source

/-- A source of any shape. -/
def free (alphabet : Alphabet) (source : σ) : String × σ :=
  match Chooser.size source with
  | (size, source) => addFreeSymbols alphabet (size / freeSymbolCost) "" source

end TapeLang.Generate
