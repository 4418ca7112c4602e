/-!
# Lines of a byte stream

A line ends with a line feed, and a carriage return just before the line feed belongs to
the end of the line. What follows the last line feed is a line of its own unless it is
empty. `lines_append`: cutting a stream after a line feed cuts its lines in two.
-/

namespace TabHost

namespace Text

/-- The line feed. -/
def lineFeed : UInt8 := 10

/-- The carriage return. -/
def carriageReturn : UInt8 := 13

/-- The content of a line that ended with a line feed, from its bytes in reverse. -/
def endLine : List UInt8 → List UInt8
  | b :: rest => if b = carriageReturn then rest.reverse else (b :: rest).reverse
  | [] => []

/-- The lines of a stream, given the bytes of the current line so far in reverse. -/
def linesFrom (line : List UInt8) : List UInt8 → List (List UInt8)
  | [] => if line.isEmpty then [] else [line.reverse]
  | b :: rest =>
    if b = lineFeed then endLine line :: linesFrom [] rest else linesFrom (b :: line) rest

/-- The lines of a byte stream. -/
def lines (bytes : List UInt8) : List (List UInt8) := linesFrom [] bytes

/-- The text that bytes encode, if they are valid UTF-8. -/
def decode? (bytes : List UInt8) : Option (List Char) :=
  (String.fromUTF8? ⟨bytes.toArray⟩).map String.toList

theorem linesFrom_append (line b : List UInt8) :
    ∀ a : List UInt8, linesFrom line (a ++ lineFeed :: b) =
      linesFrom line (a ++ [lineFeed]) ++ lines b
  | [] => by simp [linesFrom, lines]
  | c :: a => by
    by_cases h : c = lineFeed
    · simp [linesFrom, h, linesFrom_append [] b a]
    · simp [linesFrom, h, linesFrom_append (c :: line) b a]

theorem lines_append (a b : List UInt8) :
    lines (a ++ lineFeed :: b) = lines (a ++ [lineFeed]) ++ lines b :=
  linesFrom_append [] b a

end Text

end TabHost
