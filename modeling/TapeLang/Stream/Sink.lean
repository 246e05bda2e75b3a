import TapeLang.Stream.Error

/-!
# Sinks

A text is written in pieces, one after the other, until one cannot be
written; then the rest is not tried. A sink is a state that takes such
pieces. The sink of this module takes a fixed number of bytes and refuses the
next one, which may fall anywhere, also within a character.
-/

namespace TapeLang

/-- A state that takes pieces of text. -/
class Sink (σ : Type) where
  /-- Takes a piece of text, as much of it as it can. -/
  write : String → σ → Except StreamError Unit × σ

/-- Writes pieces of text up to the first that fails. -/
def Sink.writeAll {σ : Type} [Sink σ] : List String → σ → Except StreamError Unit × σ
  | [], sink => (.ok (), sink)
  | piece :: rest, sink =>
    match Sink.write piece sink with
    | (.ok (), sink) => writeAll rest sink
    | (.error error, sink) => (.error error, sink)

/-- A sink with room for a number of bytes. -/
structure BoundedSink where
  /-- The number of bytes that it takes in all. -/
  capacity : Nat
  /-- How it refuses a byte beyond that. -/
  refusal : StreamError
  /-- The bytes that it has taken. -/
  accepted : Array UInt8 := #[]
  deriving DecidableEq, Repr

namespace BoundedSink

/-- Takes the bytes of a piece as far as there is room. -/
def write (piece : String) (sink : BoundedSink) : Except StreamError Unit × BoundedSink :=
  match sink with
  | ⟨capacity, refusal, accepted⟩ =>
    let bytes := piece.toUTF8.data
    let room := capacity - accepted.size
    if bytes.size ≤ room then
      (.ok (), ⟨capacity, refusal, accepted ++ bytes⟩)
    else
      (.error refusal, ⟨capacity, refusal, accepted ++ bytes.take room⟩)

instance : Sink BoundedSink where
  write := write

end BoundedSink

end TapeLang
