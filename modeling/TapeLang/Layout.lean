/-!
# Lines of text with nesting

Both ways of showing a program put one item on a line and indent it by one
tab for each loop around it. A line is kept in its parts, so that a text can
be written piece by piece and its layout can be spoken of without cutting up
strings.
-/

namespace TapeLang

/-- A line: what stands in the margin, the indentation, and the body. -/
structure Line where
  /-- The pieces before the indentation. -/
  margin : List String := []
  /-- The number of tabs. -/
  level : Nat
  /-- The pieces after the indentation. -/
  body : List String
  deriving DecidableEq, Repr

namespace Line

/-- The pieces of a line in order, the end of the line included. -/
def pieces (line : Line) : List String :=
  line.margin ++ List.replicate line.level "\t" ++ line.body ++ ["\n"]

end Line

/-- Lines of text, from the first to the last. -/
structure Layout where
  /-- The lines in order. -/
  lines : Array Line := #[]
  deriving DecidableEq, Repr

namespace Layout

/-- Adds a line at the end. -/
def push (layout : Layout) (line : Line) : Layout := ⟨layout.lines.push line⟩

/-- All pieces in order. -/
def pieces (layout : Layout) : List String := layout.lines.toList.flatMap Line.pieces

/-- The whole text. -/
def text (layout : Layout) : String := String.join layout.pieces

end Layout

end TapeLang
