/-
The lines of a document.
-/
import Shorthand.Text.Class

namespace Shorthand.Text

/-- The characters that end a line. -/
def lineEnds : Ranges :=
  [(0xA, 0xD), (0x1C, 0x1E), (0x85, 0x85), (0x2028, 0x2029)]

def isLineEnd (c : Char) : Bool := lineEnds.contains c

/-- The lines of a text, each with its terminator; a carriage return and a line
feed together are one. Nothing follows a final terminator. -/
def lines : Text → List Text
  | [] => []
  | '\r' :: '\n' :: rest => ['\r', '\n'] :: lines rest
  | c :: rest =>
    if isLineEnd c then [c] :: lines rest
    else match lines rest with
      | [] => [[c]]
      | line :: others => (c :: line) :: others

/-- The line without the carriage returns and line feeds at its end. -/
def withoutTerminator (line : Text) : Text :=
  (line.reverse.dropWhile fun c => c == '\r' || c == '\n').reverse

/-- The text with every line break it was stored with written as a line feed. -/
def unifyLineBreaks : Text → Text
  | [] => []
  | '\r' :: '\n' :: rest => '\n' :: unifyLineBreaks rest
  | c :: rest => (if c = '\r' then '\n' else c) :: unifyLineBreaks rest

end Shorthand.Text
