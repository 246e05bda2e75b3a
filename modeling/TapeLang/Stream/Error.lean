/-!
# Failures of a stream

A stream fails for a reason of one of the kinds below. Each kind has a
standard wording; a failure may carry a wording of its own instead.
-/

namespace TapeLang

/-- What went wrong with a stream or a file. -/
inductive StreamError.Kind where
  | notFound
  | permissionDenied
  | connectionRefused
  | connectionReset
  | connectionAborted
  | notConnected
  | brokenPipe
  | alreadyExists
  | wouldBlock
  | notADirectory
  | isADirectory
  | invalidInput
  | invalidData
  | timedOut
  | writeZero
  | storageFull
  | invalidFilename
  | interrupted
  | unsupported
  | unexpectedEof
  | outOfMemory
  | other
  deriving DecidableEq, Repr

/-- The standard wording of a kind. -/
def StreamError.Kind.text : StreamError.Kind → String
  | .notFound => "entity not found"
  | .permissionDenied => "permission denied"
  | .connectionRefused => "connection refused"
  | .connectionReset => "connection reset"
  | .connectionAborted => "connection aborted"
  | .notConnected => "not connected"
  | .brokenPipe => "broken pipe"
  | .alreadyExists => "entity already exists"
  | .wouldBlock => "operation would block"
  | .notADirectory => "not a directory"
  | .isADirectory => "is a directory"
  | .invalidInput => "invalid input parameter"
  | .invalidData => "invalid data"
  | .timedOut => "timed out"
  | .writeZero => "write zero"
  | .storageFull => "no storage space"
  | .invalidFilename => "invalid filename"
  | .interrupted => "operation interrupted"
  | .unsupported => "unsupported"
  | .unexpectedEof => "unexpected end of file"
  | .outOfMemory => "out of memory"
  | .other => "other error"

/-- A failure of a stream. -/
structure StreamError where
  /-- What went wrong. -/
  kind : StreamError.Kind
  /-- The wording. -/
  text : String
  deriving DecidableEq, Repr

namespace StreamError

/-- The failure of a kind in its standard wording. -/
def ofKind (kind : Kind) : StreamError := ⟨kind, kind.text⟩

/-- The failure that the operating system reports by a number. -/
def system (kind : Kind) (description : String) (code : Nat) : StreamError :=
  ⟨kind, description ++ " (os error " ++ code.repr ++ ")"⟩

/-- A write that was to go through took nothing. -/
def wroteNothing : StreamError := ⟨.writeZero, "failed to write whole buffer"⟩

/-- The path leads nowhere. -/
def noSuchFile : StreamError := system .notFound "No such file or directory" 2

/-- The path goes on below a file. -/
def notDirectory : StreamError := system .notADirectory "Not a directory" 20

/-- The path ends at a directory where a file is needed. -/
def isDirectory : StreamError := system .isADirectory "Is a directory" 21

/-- The device takes no more bytes. -/
def noSpace : StreamError := system .storageFull "No space left on device" 28

/-- A name in the path, or the whole path, is too long. -/
def nameTooLong : StreamError := system .invalidFilename "File name too long" 36

end StreamError

end TapeLang
