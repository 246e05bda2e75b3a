import TapeLang.Stream.Error

/-!
# Terminals

A running program talks to a terminal: it writes bytes, reads bytes, and asks
for written bytes to be passed on before it waits for input. A terminal is a
state together with these three actions. Each returns the state after it,
also when it fails.

How often an action is tried is the terminal's own affair: what a machine
sees is one answer to one request.
-/

namespace TapeLang

/-- A state that bytes can be written to and read from. -/
class Terminal (σ : Type) where
  /-- Writes one byte. -/
  write : UInt8 → σ → Except StreamError Unit × σ
  /-- Passes on all that was written. -/
  flush : σ → Except StreamError Unit × σ
  /-- Reads one byte; there is none at the end of the input. -/
  read : σ → Except StreamError (Option UInt8) × σ

end TapeLang
